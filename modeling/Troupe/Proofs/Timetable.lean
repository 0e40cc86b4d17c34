import Mathlib.Algebra.Group.Nat.Defs
import Mathlib.Data.List.TakeWhile
import Troupe.Proofs.Mailbox

/-!
Timers are released in the order of their due times, and not too early.

The timers that were released, followed by those that wait, are always in one order: by due time,
and with one due time in the order in which they were set (`Scheduler.Punctual`). A release cuts
this row at a later place. A timer that is set goes behind the cut, because it is due at the current
time at the earliest and has the highest number.

* `Scheduler.Steps.punctual`: the timetable of every run of a scheduler.
* `Configuration.timers_in_order`: that of a configuration, whatever its behaviors are and whatever
  its host tells it to do.
-/

namespace Troupe

open Act List Nat Timer

variable {M B : Type}

namespace Timer

/-- A timer is due before another, or at the same time and was set before it. -/
def Before (t t' : Timer M) : Prop := t.due < t'.due ∨ t.due = t'.due ∧ t.seq < t'.seq

lemma Before.due_le {t t' : Timer M} (h : t.Before t') : t.due ≤ t'.due :=
  h.elim le_of_lt fun h => h.1.le

lemma le_eq_true_iff {t t' : Timer M} :
    t.le t' = true ↔ t.due < t'.due ∨ t.due = t'.due ∧ t.seq ≤ t'.seq := by
  simp [le]

/-- In a row where whatever is behind something that fails fails too, the first part that passes is
all that passes. -/
lemma takeWhile_eq_filter {p : Timer M → Bool} {timers : List (Timer M)}
    (down : timers.Pairwise fun t t' => p t' = true → p t = true) :
    timers.takeWhile p = timers.filter p ∧ timers.dropWhile p = timers.filter (!p ·) := by
  induction timers with
  | nil => exact ⟨rfl, rfl⟩
  | cons t timers ih =>
    obtain ⟨hfirst, hrest⟩ := pairwise_cons.1 down
    obtain ⟨htake, hdrop⟩ := ih hrest
    cases ht : p t with
    | true => simp [ht, htake, hdrop]
    | false =>
      have hfail : ∀ t' ∈ timers, p t' = false := by
        intro t' ht'
        rw [Bool.eq_false_iff]
        intro hpass
        rw [hfirst t' ht' hpass] at ht
        cases ht
      have hnone : timers.filter p = [] := filter_eq_nil_iff.2 fun t' ht' => by simp [hfail t' ht']
      have hall : timers.filter (!p ·) = timers :=
        filter_eq_self.2 fun t' ht' => by simp [hfail t' ht']
      simp [ht, hnone, hall]

/-- In a row in order, the timers that are due are the first ones. -/
lemma due_eq_filter {timers : List (Timer M)} (sorted : timers.Pairwise Before) (now : Millis) :
    timers.takeWhile (·.due ≤ now) = timers.filter (·.due ≤ now) ∧
      timers.dropWhile (·.due ≤ now) = timers.filter (now < ·.due) := by
  have hdown : timers.Pairwise fun t t' => decide (t'.due ≤ now) = true →
      decide (t.due ≤ now) = true := by
    refine sorted.imp fun {t t'} h hdue => ?_
    rw [decide_eq_true_eq] at hdue ⊢
    exact h.due_le.trans hdue
  obtain ⟨htake, hdrop⟩ := takeWhile_eq_filter hdown
  refine ⟨htake, hdrop.trans (filter_congr fun t _ => ?_)⟩
  by_cases h : t.due ≤ now
  · simp [h, not_lt.2 h]
  · simp [h, not_le.1 h]

/-- A timer with a new number has its place in a row in order: the others before it are those that
are due no later. -/
lemma pairwise_insert {timers : List (Timer M)} {t : Timer M} (sorted : timers.Pairwise Before)
    (newest : ∀ t' ∈ timers, t'.seq < t.seq) : (insert timers t).Pairwise Before := by
  have hdown : timers.Pairwise fun t1 t2 => t2.le t = true → t1.le t = true := by
    refine sorted.imp fun {t1 t2} h hle => ?_
    rw [le_eq_true_iff] at hle ⊢
    rcases h with h | ⟨h, hseq⟩ <;> rcases hle with hle | ⟨hle, hseq'⟩
    · exact .inl (h.trans hle)
    · exact .inl (hle ▸ h)
    · exact .inl (h ▸ hle)
    · exact .inr ⟨h.trans hle, hseq.le.trans hseq'⟩
  obtain ⟨htake, hdrop⟩ := takeWhile_eq_filter hdown
  have hbefore : ∀ t' ∈ timers.takeWhile (le · t), t'.Before t := by
    intro t' ht'
    rw [htake, mem_filter, le_eq_true_iff] at ht'
    exact ht'.2.imp_right fun h => ⟨h.1, newest t' ht'.1⟩
  have hafter : ∀ t' ∈ timers.dropWhile (le · t), t.Before t' := by
    intro t' ht'
    rw [hdrop, mem_filter, Bool.not_eq_true', ← Bool.not_eq_true, le_eq_true_iff, not_or] at ht'
    refine (lt_or_eq_of_le (not_lt.1 ht'.2.1)).imp_right fun h => ?_
    exact absurd ⟨h.symm, (newest t' ht'.1).le⟩ ht'.2.2
  have hpair := sorted
  rw [← takeWhile_append_dropWhile (p := (le · t)) (l := timers), pairwise_append]
    at hpair
  refine pairwise_append.2 ⟨hpair.1, pairwise_cons.2 ⟨hafter, hpair.2.1⟩, ?_⟩
  intro t1 ht1 t2 ht2
  rcases mem_cons.1 ht2 with rfl | ht2
  · exact hbefore t1 ht1
  · exact hpair.2.2 t1 ht1 t2 ht2

end Timer

/-- The act is punctual: a timer is due after its delay, and no timer is released before it is
due. -/
def Act.Punctual : Act M B → Prop
  | scheduled now delay t => t.due = Millis.after now delay
  | released now fired _ => ∀ t ∈ fired, t.due ≤ now
  | _ => True

namespace Scheduler

variable {s s' : Scheduler M B} {a : Act M B} {acts : List (Act M B)}

lemma Step.punctual (step : s.Step a s') : a.Punctual := by
  obtain ⟨-, hscheduled, hreleased⟩ := step.sound
  cases a with
  | scheduled now delay t => exact (hscheduled now delay t rfl).2.1
  | released now fired lost =>
    obtain ⟨clock, rfl, -, -, hact⟩ := hreleased now fired lost rfl
    cases hact
    intro t ht
    have hdue := mem_takeWhile_imp (mem_filter.1 ht).1
    exact of_decide_eq_true hdue
  | _ => trivial

/-- The timetable of a run. -/
structure Punctual (acts : List (Act M B)) (s : Scheduler M B) : Prop where
  /-- All timers that were released, and behind them all that wait, are in order. -/
  ordered : (acts.flatMap fired ++ s.timers).Pairwise Timer.Before
  /-- Their numbers have been given, and their due times are times. -/
  bounded : ∀ t ∈ acts.flatMap fired ++ s.timers, t.seq < s.timerSeq ∧ t.due ≤ Millis.last
  past : ∀ t ∈ acts.flatMap fired, t.due ≤ s.clock.now
  punctual : ∀ a ∈ acts, a.Punctual

namespace Punctual

lemma sorted (h : s.Punctual acts) : s.timers.Pairwise Timer.Before :=
  (pairwise_append.1 h.ordered).2.1

/-- A new timer goes behind all that were released. -/
lemma set {t : Timer M} (h : s.Punctual acts) (due : min s.clock.now Millis.last ≤ t.due)
    (last : t.seq = s.timerSeq) :
    (acts.flatMap fired ++ insert s.timers t).Pairwise Timer.Before := by
  obtain ⟨hfired, htimers, hcross⟩ := pairwise_append.1 h.ordered
  have hnewest : ∀ t' ∈ acts.flatMap fired ++ s.timers, t'.seq < t.seq :=
    fun t' ht' => last ▸ (h.bounded t' ht').1
  refine pairwise_append.2 ⟨hfired, pairwise_insert htimers fun t' ht' =>
    hnewest t' (mem_append_right _ ht'), fun t1 ht1 t2 ht2 => ?_⟩
  rcases mem_insert.1 ht2 with rfl | ht2
  · have hall := mem_append_left s.timers ht1
    have hle : t1.due ≤ t2.due := (le_min (h.past t1 ht1) (h.bounded t1 hall).2).trans due
    exact (lt_or_eq_of_le hle).imp_right fun heq => ⟨heq, hnewest t1 hall⟩
  · exact hcross t1 ht1 t2 ht2

lemma step (h : s.Punctual acts) (addressed : s.Addressed) (step : s.Step a s') :
    s'.Punctual (acts ++ [a]) := by
  obtain ⟨-, hscheduled, hreleased⟩ := step.sound
  have haccount := step.account
  have htimers := haccount.timers
  have hseq := haccount.timerSeq
  have hfired : (acts ++ [a]).flatMap fired = acts.flatMap fired ++ a.fired := by simp
  have hacts : ∀ b ∈ acts ++ [a], b.Punctual := by
    intro b hb
    rcases mem_append.1 hb with hb | hb
    · exact h.punctual b hb
    · rw [mem_singleton.1 hb]
      exact step.punctual
  have hseq' : ∀ t : Timer M, t.seq < s.timerSeq → t.seq < s'.timerSeq :=
    fun t ht => hseq ▸ Nat.lt_add_right _ ht
  cases ha : a with
  | scheduled now delay t =>
    obtain ⟨rfl, hdue, hlast, -⟩ := hscheduled now delay t ha
    have hrow : (acts ++ [a]).flatMap fired = acts.flatMap fired := by
      rw [hfired, ha]
      exact append_nil _
    have hnow := step.account.now (by simp [ha])
    rw [ha, timersAfter] at htimers
    rw [← ha]
    refine ⟨?_, ?_, ?_, hacts⟩
    · rw [hrow, htimers]
      refine h.set ?_ hlast
      rw [hdue]
      exact le_min ((min_le_left _ _).trans (le_add_right _ _)) (min_le_right _ _)
    · intro t' ht'
      rw [hrow, htimers, mem_append, mem_insert, or_rotate] at ht'
      rcases ht' with rfl | ht'
      · refine ⟨?_, hdue ▸ min_le_right _ _⟩
        rw [hseq, ha, hlast]
        exact lt_succ_self _
      · exact (h.bounded t' (mem_append.2 ht'.symm)).imp_left (hseq' t')
    · intro t' ht'
      rw [hrow] at ht'
      rw [hnow]
      exact h.past t' ht'
  | released now fired lost =>
    obtain ⟨clock, rfl, hclock, hlater, hact⟩ := hreleased now fired lost ha
    rw [addressed.releaseAct] at hact
    -- the row is cut at another place
    have hrow : (acts ++ [a]).flatMap Act.fired ++ s'.timers =
        acts.flatMap Act.fired ++ s.timers := by
      have hsplit : s.dueAt clock ++ s.timers.dropWhile (·.due ≤ clock.now) = s.timers :=
        takeWhile_append_dropWhile
      rw [hfired, htimers, hact, append_assoc]
      exact congrArg _ hsplit
    rw [← ha]
    refine ⟨hrow ▸ h.ordered, ?_, ?_, hacts⟩
    · rw [hrow]
      exact fun t ht => (h.bounded t ht).imp_left (hseq' t)
    · intro t ht
      rw [hfired, mem_append] at ht
      rw [hclock]
      rcases ht with ht | ht
      · refine (le_min (h.past t ht) ?_).trans hlater
        exact (h.bounded t (mem_append_left _ ht)).2
      · have hpunctual := step.punctual
        rw [ha] at ht hpunctual
        exact hpunctual t ht
  | _ =>
    have hrow : (acts ++ [a]).flatMap fired = acts.flatMap fired := by
      rw [hfired, ha]
      exact append_nil _
    have hsame : s'.timers = s.timers := by rw [htimers, ha]; rfl
    have hnow := step.account.now (by simp [ha])
    rw [← ha]
    refine ⟨?_, ?_, ?_, hacts⟩
    · rw [hrow, hsame]
      exact h.ordered
    · rw [hrow, hsame]
      exact fun t ht => (h.bounded t ht).imp_left (hseq' t)
    · rw [hrow, hnow]
      exact h.past

end Punctual

/-- Every run of a scheduler keeps the timetable. -/
theorem Steps.punctual {settings : Settings}
    (h : (Scheduler.ofSettings settings : Scheduler M B).Steps acts s) : s.Punctual acts := by
  induction h with
  | refl =>
    exact ⟨.nil, fun _ h => absurd h not_mem_nil, fun _ h => absurd h not_mem_nil,
      fun _ h => absurd h not_mem_nil⟩
  | snoc before step ih => exact ih.step before.balanced.addressed step

/-- A release puts the messages of all timers that are due on the queue, and leaves all others. -/
lemma Step.release {now : Millis} {fired lost : List (Timer M)} (addressed : s.Addressed)
    (sorted : s.timers.Pairwise Timer.Before) (step : s.Step (.released now fired lost) s') :
    s'.clock.now = now ∧ lost = [] ∧ fired = s.timers.filter (·.due ≤ now) ∧
      s'.timers = s.timers.filter (now < ·.due) ∧
      s'.queue.toList = s.queue.toList ++ fired.map (·.envelope) := by
  obtain ⟨clock, rfl, hclock, -, hact⟩ := step.sound.2.2 now fired lost rfl
  obtain ⟨htake, hdrop⟩ := due_eq_filter sorted clock.now
  rw [addressed.releaseAct] at hact
  cases hact
  exact ⟨congrArg Clock.now hclock, rfl, htake, step.account.timers.trans hdrop,
    step.account.queue.symm⟩

end Scheduler

namespace Configuration

variable {W : Type} [Behavior M B W]

/-- Timers are in order and in time, for all behaviors, whatever the host tells the configuration to
do, and at every moment, also while a behavior runs. The timers that wait are sorted, with numbers
that were given before. A message is not put on the queue before its delay has passed, or the last
time has come. Each release is of all timers that are due and of no others. And all timers that were
ever released were released in the order of their due times, with one due time in the order in which
they were set. -/
theorem timers_in_order (settings : Settings) (world : W) (commands : List (Command M B)) :
    let start : Configuration M B W := ofSettings settings world
    let history := start.history commands
    start.toScheduler.Steps history (start.obey commands).toScheduler ∧
    ∀ acts rest s, history = acts ++ rest → start.toScheduler.Steps acts s →
      (s.timers.Pairwise Timer.Before ∧ ∀ t ∈ s.timers, t.seq < s.timerSeq) ∧
      (∀ t₀ delay timer now fired lost, .scheduled t₀ delay timer ∈ acts →
        .released now fired lost ∈ acts → timer ∈ fired → min (t₀ + delay) (2 ^ 64 - 1) ≤ now) ∧
      (∀ now fired lost s', s.Step (.released now fired lost) s' →
        s'.clock.now = now ∧ lost = [] ∧ fired = s.timers.filter (·.due ≤ now) ∧
          s'.timers = s.timers.filter (now < ·.due) ∧
          s'.queue.toList = s.queue.toList ++ fired.map (·.envelope)) ∧
      (acts.flatMap fired).Pairwise Timer.Before := by
  intro start history
  refine ⟨(timely_history start commands).steps, fun acts rest s _ h => ?_⟩
  have hpunctual := Scheduler.Steps.punctual h
  refine ⟨⟨hpunctual.sorted, fun t ht => ?_⟩, ?_, ?_, (List.pairwise_append.1 hpunctual.ordered).1⟩
  · exact (hpunctual.bounded t (List.mem_append_right _ ht)).1
  · intro t₀ delay timer now fired lost hscheduled hreleased hfired
    have hdue : timer.due = Millis.after t₀ delay := hpunctual.punctual _ hscheduled
    have hnow : timer.due ≤ now := hpunctual.punctual _ hreleased timer hfired
    rw [hdue] at hnow
    exact hnow
  · exact fun now fired lost s' hstep =>
      hstep.release (Scheduler.Steps.balanced h).addressed hpunctual.sorted

/-- Timers that are set before and between releases, one of them with no delay and one for ever. -/
def threeTimers : List (Command Value Performer) :=
  [.ask (.create .sink "sink" fun id => .sendAfter 9 (.symbol "nine") id fun _ =>
    .sendAfter (2 ^ 64) (.symbol "last") id fun _ => .done ()),
    .advance 9,
    .ask (.sendAfter 0 (.symbol "now") ⟨1⟩ fun _ => .done ()),
    .runUntilIdle 9]

theorem threeTimers_in_order :
    ∃ acts s, (Scheduler.ofSettings {} : Scheduler Value Performer).Steps acts s ∧
      (acts.flatMap fired).map (·.due) = [9, 9, 2 ^ 64 - 1] ∧
      (acts.flatMap fired).Pairwise Timer.Before := by
  have h := timers_in_order {} ({ fuel := 0 } : World) threeTimers
  exact ⟨_, _, h.1, by decide +kernel, (h.2 _ [] _ (List.append_nil _).symm h.1).2.2.2⟩

end Configuration

end Troupe
