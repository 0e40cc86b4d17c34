import Troupe.Proofs.Batches
import Troupe.Proofs.Pausing
import Troupe.Proofs.Timetable

/-!
Running until idle comes to an end.

The run is a loop. One turn of it (`Configuration.Turn`) does one unit of work or, if there is none,
lets the clock jump to the first due time; it goes on until enough work was done or nothing is left.
A turn that jumps is not counted, but it releases a timer. So the work still to be done and, behind
it, the number of timers get smaller with every turn, whatever the behaviors add meanwhile.

* `Configuration.wellFounded_turn`: the loop ends.
* `Configuration.turns_runIdleFrom`: it ends where `Configuration.runUntilIdle` says.
* `Configuration.runUntilIdle_quiescent`: what it leaves, and how time passes.
-/

namespace Troupe

open Fifo List Prod Scheduler

/-! ### Jumps -/

namespace Scheduler

variable {M B : Type} {s : Scheduler M B} {t : Timer M}

/-- A clock that stands still, with no timer due in front, releases nothing. -/
lemma advanceTo_of_le {time : Millis} (passed : time ≤ s.clock.now)
    (later : ∀ t ∈ s.timers.head?, s.clock.now < t.due) : s.advanceTo time = s := by
  have hclock : s.clock.advanceTo time = s.clock := by
    rw [Clock.advanceTo, max_eq_left passed]
  have hspan : s.timers.span (·.due ≤ s.clock.now) = ([], s.timers) := by
    rw [span_eq_takeWhile_dropWhile]
    cases htimers : s.timers with
    | nil => rfl
    | cons t timers =>
      have hlater := later t (by rw [htimers]; rfl)
      rw [takeWhile_cons_of_neg (by simpa using hlater),
        dropWhile_cons_of_neg (by simpa using hlater)]
  rw [advanceTo, hclock, releaseTimers]
  dsimp only
  rw [hspan]
  rfl

/-- A jump leaves no timer in front that is due. -/
lemma lt_due_advanceTo (s : Scheduler M B) (time : Millis) :
    ∀ t ∈ (s.advanceTo time).timers.head?, (s.advanceTo time).clock.now < t.due := by
  have hreleases := s.releases_at (s.clock.advanceTo time)
  rw [advanceTo, hreleases.timers, hreleases.clock]
  intro t ht
  have hnot := head?_dropWhile_not
    (fun t : Timer M => decide (t.due ≤ (s.clock.advanceTo time).now)) s.timers
  rw [Option.mem_def.1 ht] at hnot
  simpa using hnot

/-- A jump to the first due time releases the first timer. -/
lemma length_advanceTo_lt {timers : List (Timer M)} (first : s.timers = t :: timers) :
    (s.advanceTo t.due).timers.length < s.timers.length := by
  have hle : (s.advanceTo t.due).timers.length ≤ timers.length :=
    (timers_advanceTo_suffix (first ▸ suffix_rfl)).length_le
  rw [first, length_cons]
  exact Nat.lt_succ_of_le hle

/-- Nothing is pending. -/
lemma isIdle_iff : s.isIdle = true ↔ s.wakeups.toList = [] ∧ s.queue.toList = [] := by
  simp [isIdle, Fifo.isEmpty, Fifo.toList, and_comm]

end Scheduler

/-- What a behavior may do does not move the clock. -/
lemma Script.clock_run {M B α : Type} (x : Script M B α) (s : Scheduler M B) :
    (x.run s).2.clock = s.clock := by
  induction x generalizing s with
  | done a => rfl
  | send m t k ih =>
    refine (ih _ _).trans (settle_keeps (P := (·.clock = s.clock)) rfl fun s' granted => ?_)
    obtain ⟨-, rfl⟩ := send_ok granted
    rfl
  | sendAfter d m t k ih =>
    refine (ih _ _).trans (settle_keeps (P := (·.clock = s.clock)) rfl fun s' granted => ?_)
    obtain ⟨-, rfl⟩ := sendAfter_ok granted
    rfl
  | create b n k ih | reserve k ih | issued k ih | countWakeups k ih => exact ih _ _
  | createReserved id b n k ih =>
    refine (ih _ _).trans (settle_keeps (P := (·.clock = s.clock)) rfl fun s' granted => ?_)
    obtain ⟨-, rfl⟩ := createReserved_ok granted
    rfl
  | wake id k ih => exact ih _
  | takeWakeup k ih =>
    have htake : s.takeWakeup.2.clock = s.clock := by rw [takeWakeup_snd]
    exact (ih _ _).trans htake

namespace Configuration

variable {M B W : Type} [Behavior M B W] {c c' : Configuration M B W} {limit n : Nat}

/-- With nothing pending there is no work. -/
lemma dispatch_of_idle (idle : c.isIdle = true) : c.dispatch = (false, c) := by
  obtain ⟨hwakeups, hqueue⟩ := isIdle_iff.1 idle
  exact dispatch_nothing (pop?_eq_none_iff.2 hwakeups) (pop?_eq_none_iff.2 hqueue)

/-- Without work nothing is pending. -/
lemma isIdle_of_dispatch (h : c.dispatch.1 = false) : c.isIdle = true := by
  refine isIdle_iff.2 ?_
  unfold dispatch at h
  split at h
  · cases h
  · rename_i hwakeups
    split at h
    · cases h
    · rename_i hqueue
      exact ⟨pop?_eq_none_iff.1 hwakeups, pop?_eq_none_iff.1 hqueue⟩

/-! ### The loop -/

/-- One turn of running until idle, with the number of dispatches before and after it. -/
inductive Turn (limit : Nat) : Nat × Configuration M B W → Nat × Configuration M B W → Prop where
  /-- One unit of work is done. -/
  | work {n : Nat} {c c' : Configuration M B W} (below : n < limit)
      (did : c.dispatch = (true, c')) :
      Turn limit (n, c) (n + 1, c')
  /-- There is none, and the clock jumps to the first due time. -/
  | jump {n : Nat} {c c' : Configuration M B W} {t : Timer M} (below : n < limit)
      (nothing : c.dispatch = (false, c')) (first : c'.timers.head? = some t) :
      Turn limit (n, c) (n, c'.modify (·.advanceTo t.due))

/-- Any number of turns. -/
abbrev Turns (limit : Nat) : Nat × Configuration M B W → Nat × Configuration M B W → Prop :=
  Relation.ReflTransGen (Turn limit)

/-- A turn does some of the work that is left, or leaves the work and takes a timer away. -/
lemma Turn.descends {x y : Nat × Configuration M B W} (h : Turn limit x y) :
    Prod.Lex (· < ·) (· < ·) (limit - y.1, y.2.timers.length) (limit - x.1, x.2.timers.length) := by
  cases h with
  | work below did => exact .left _ _ (Nat.sub_succ_lt_self _ _ below)
  | @jump n c c' t below nothing first =>
    have hsame : c' = c := by
      rw [← dispatch_snd_of_fst (congrArg fst nothing), nothing]
    subst hsame
    obtain ⟨timers, htimers⟩ := head?_eq_some_iff.1 first
    exact .right _ (length_advanceTo_lt htimers)

/-- The loop ends. -/
theorem wellFounded_turn (limit : Nat) :
    WellFounded fun y x : Nat × Configuration M B W => Turn limit x y :=
  Subrelation.wf (fun h => h.descends)
    (InvImage.wf (fun x : Nat × Configuration M B W => (limit - x.1, x.2.timers.length))
      (WellFounded.prod_lex wellFounded_lt wellFounded_lt))

/-- The jumps along a row of timers, of which those in front have been released. -/
lemma turns_skip (below : n < limit) (world : W) (timers : List (Timer M)) :
    ∀ (gone : List (Timer M)) {s : Scheduler M B}, timers = gone ++ s.timers →
      (∀ t ∈ gone, t.due ≤ s.clock.now) →
      (gone ≠ [] → ∀ t ∈ s.timers.head?, s.clock.now < t.due) →
        Turns limit (n, ⟨s, world⟩)
          (n, ⟨timers.foldl (fun s t => if s.isIdle then s.advanceTo t.due else s) s, world⟩) := by
  induction timers with
  | nil => exact fun _ _ _ _ _ => .refl
  | cons t timers ih =>
    intro gone s hrow hgone hlater
    rw [foldl_cons]
    by_cases hidle : s.isIdle = true
    · rw [if_pos hidle]
      cases gone with
      | cons t' gone =>
        -- the timer was released before, and the jump to its due time does nothing
        obtain ⟨rfl, hrest⟩ := cons.inj hrow
        rw [advanceTo_of_le (hgone t (mem_cons_self ..)) (hlater (by simp))]
        exact ih gone hrest (fun t' ht' => hgone t' (mem_cons_of_mem _ ht')) fun _ =>
          hlater (by simp)
      | nil =>
        have hfirst : s.timers.head? = some t := by rw [← nil_append s.timers, ← hrow]; rfl
        have hturn : Turn limit (n, ⟨s, world⟩) (n, ⟨s.advanceTo t.due, world⟩) :=
          .jump below (dispatch_of_idle hidle) hfirst
        refine .head hturn (ih (timers.takeWhile (·.due ≤ max s.clock.now t.due)) ?_ ?_ ?_)
        · rw [timers_advanceTo, ← nil_append s.timers, ← hrow,
            dropWhile_cons_of_pos (by simp), takeWhile_append_dropWhile]
        · intro t' ht'
          have hdue := mem_takeWhile_imp ht'
          rw [advanceTo, (s.releases_at _).clock]
          exact of_decide_eq_true hdue
        · exact fun _ => s.lt_due_advanceTo t.due
    · rw [if_neg hidle, foldl_jump_of_pending hidle]

/-- Jumping ahead is a number of turns. -/
lemma turns_skipAhead (below : n < limit) (c : Configuration M B W) :
    Turns limit (n, c) (n, c.modify (·.skipAhead)) := by
  obtain ⟨s, world⟩ := c
  change Turns limit (n, ⟨s, world⟩) (n, ⟨s.skipAhead, world⟩)
  unfold skipAhead
  split
  · exact turns_skip below world s.timers [] rfl (by simp) (by simp)
  · exact .refl

/-- The loop ends where `Configuration.runIdleFrom` ends. -/
theorem turns_runIdleFrom (left : Nat) :
    ∀ {n : Nat} {c : Configuration M B W}, n + left = limit →
      Turns limit (n, c) (runIdleFrom n left c) ∧ ∀ y, ¬ Turn limit (runIdleFrom n left c) y := by
  induction left with
  | zero =>
    intro n c hlimit
    refine ⟨.refl, fun y hturn => ?_⟩
    cases hturn <;> omega
  | succ left ih =>
    intro n c hlimit
    have hskip : Turns limit (n, c) (n, c.modify (·.skipAhead)) := turns_skipAhead (by omega) c
    rw [runIdleFrom]
    cases hwork : (c.modify (·.skipAhead)).dispatch with
    | mk more c' =>
      cases more with
      | true =>
        obtain ⟨hturns, hends⟩ := ih (n := n + 1) (c := c') (by omega)
        exact ⟨hskip.trans (.head (.work (by omega) hwork) hturns), hends⟩
      | false =>
        have hsame : c' = c.modify (·.skipAhead) := by
          rw [← dispatch_snd_of_fst (congrArg fst hwork), hwork]
        subst hsame
        refine ⟨hskip, fun y hturn => ?_⟩
        -- nothing is pending, so no timer is left either
        have htimers : (c.modify (·.skipAhead)).timers = [] :=
          timers_skipAhead (s := c.toScheduler)
            (isIdle_of_dispatch (congrArg fst hwork))
        cases hturn with
        | work _ did => rw [hwork] at did; cases did
        | jump _ nothing first =>
          rw [hwork] at nothing
          cases nothing
          rw [htimers] at first
          cases first

/-- The loop does not do more than it is told. -/
lemma Turns.fst_le {x y : Nat × Configuration M B W} (h : Turns limit x y) (start : x.1 ≤ limit) :
    y.1 ≤ limit := by
  induction h with
  | refl => exact start
  | tail _ last ih =>
    cases last with
    | work below did => exact below
    | jump below nothing first => exact ih

/-- If the loop stops before it has done all that it may, nothing is left. -/
lemma spent_of_stopped {x : Nat × Configuration M B W} (below : x.1 < limit)
    (stopped : ∀ y, ¬ Turn limit x y) :
    x.2.queue.toList = [] ∧ x.2.wakeups.toList = [] ∧ x.2.timers = [] := by
  obtain ⟨n, c⟩ := x
  cases hwork : c.dispatch with
  | mk more c' =>
    cases more with
    | true => exact absurd (.work below hwork) (stopped _)
    | false =>
      have hidle := isIdle_of_dispatch (congrArg fst hwork)
      obtain ⟨hwakeups, hqueue⟩ := isIdle_iff.1 hidle
      rw [dispatch_of_idle hidle] at hwork
      cases hwork
      refine ⟨hqueue, hwakeups, ?_⟩
      cases htimers : c.timers with
      | nil => rfl
      | cons t timers =>
        exact absurd (.jump below (dispatch_of_idle hidle) (by rw [htimers]; rfl)) (stopped _)

/-! ### Time -/

/-- Turns are steps of the scheduler. -/
lemma Turn.steps {x y : Nat × Configuration M B W} (h : Turn limit x y) :
    ∃ acts, x.2.toScheduler.Steps acts y.2.toScheduler := by
  cases h with
  | @work n c c' below did =>
    have hsteps := (timely_dispatch c).steps
    rw [did] at hsteps
    exact ⟨_, hsteps⟩
  | @jump n c c' t below nothing first =>
    have hsteps := (timely_dispatch c).steps
    rw [nothing] at hsteps
    exact ⟨_, hsteps.snoc (.jump _ t.due)⟩

lemma Turns.steps {x y : Nat × Configuration M B W} (h : Turns limit x y) :
    ∃ acts, x.2.toScheduler.Steps acts y.2.toScheduler := by
  induction h with
  | refl => exact ⟨[], .refl⟩
  | tail _ last ih =>
    obtain ⟨acts, hacts⟩ := ih
    obtain ⟨acts', hacts'⟩ := Turn.steps last
    exact ⟨_, hacts.trans hacts'⟩

lemma clock_dispatch (c : Configuration M B W) : c.dispatch.2.clock = c.clock := by
  have hinvoke : ∀ (c : Configuration M B W) (id : ActorId) (message : Option M),
      (c.invoke id message).clock = c.clock := by
    intro c id message
    cases hfound : c.find? id with
    | none => rw [invoke_missing message hfound]
    | some entry =>
      rw [invoke_found message hfound]
      exact Script.clock_run ..
  cases hwake : c.wakeups.pop? with
  | some x =>
    rw [dispatch_wakeup hwake]
    exact hinvoke ..
  | none =>
    cases hqueue : c.queue.pop? with
    | some x =>
      rw [dispatch_message hwake hqueue]
      exact hinvoke ..
    | none => rw [dispatch_nothing hwake hqueue]

/-- Time does not run backwards. It moves only if nothing is pending, to the due time of a timer
whose message is put on the queue. -/
lemma Turn.clock {x y : Nat × Configuration M B W} (h : Turn limit x y)
    (addressed : x.2.Addressed) (sorted : x.2.timers.Pairwise Timer.Before) :
    x.2.clock.now ≤ y.2.clock.now ∧ (y.2.clock.now ≠ x.2.clock.now →
      x.2.pending = 0 ∧ ∃ t ∈ x.2.timers, y.2.clock.now = t.due ∧ t ∉ y.2.timers ∧
        t.envelope ∈ y.2.queue.toList) := by
  cases h with
  | @work n c c' below did =>
    have hclock : c'.clock = c.clock := by
      rw [← clock_dispatch c, did]
    exact ⟨by rw [hclock], fun hmoved => absurd (congrArg Clock.now hclock) hmoved⟩
  | @jump n c c' t below nothing first =>
    have hsame : c' = c := by
      rw [← dispatch_snd_of_fst (congrArg fst nothing), nothing]
    subst hsame
    have hidle := isIdle_iff.1 (isIdle_of_dispatch (congrArg fst nothing))
    have hin : t ∈ c'.timers := mem_of_mem_head? first
    have hstep := Step.jump c'.toScheduler t.due
    rw [addressed.releaseAct] at hstep
    obtain ⟨hclock, -, hfired, htimers, hqueue⟩ := hstep.release addressed sorted
    have hnow : (c'.toScheduler.advanceTo t.due).clock.now = max c'.clock.now t.due := hclock
    have hdue : t.due ≤ (c'.clock.advanceTo t.due).now := le_max_right _ _
    refine ⟨(le_max_left _ _).trans hnow.ge, fun hmoved => ⟨?_, t, hin, ?_, ?_, ?_⟩⟩
    · simp [pending, hidle.1, hidle.2]
    · -- a clock that has moved was behind the due time
      refine hnow.trans (max_eq_right_of_lt (lt_of_not_ge fun hpassed => hmoved ?_))
      exact hnow.trans (max_eq_left hpassed)
    · intro hleft
      have hlater : t ∈ (c'.toScheduler.advanceTo t.due).timers := hleft
      rw [htimers, mem_filter] at hlater
      exact absurd (of_decide_eq_true hlater.2) (Nat.not_lt.2 hdue)
    · have hfront : t ∈ c'.dueAt (c'.clock.advanceTo t.due) := by
        rw [hfired, mem_filter]
        exact ⟨hin, decide_eq_true hdue⟩
      change t.envelope ∈ (c'.toScheduler.advanceTo t.due).queue.toList
      rw [hqueue]
      exact mem_append_right _ (mem_map_of_mem hfront)

/-- Running until idle comes to an end, for all behaviors, in every configuration that a host can
reach and for every limit. The loop ends, where `Configuration.runUntilIdle` says; it has done as
much work as it says, and `limit` units at most. If it has done less, then no message, no wake-up
and no timer is left. In no turn of it does time run backwards, and it moves only with nothing
pending, to the due time of a timer that is released then. -/
theorem runUntilIdle_quiescent (settings : Settings) (world : W) (commands : List (Command M B))
    (limit : Nat) :
    let c : Configuration M B W := (ofSettings settings world).obey commands
    let r := c.runUntilIdle limit
    (WellFounded fun y x : Nat × Configuration M B W => Turn limit x y) ∧
    Turns limit (0, c) r ∧ (∀ y, ¬ Turn limit r y) ∧ r.1 ≤ limit ∧
    (r.1 < limit → r.2.queue.toList = [] ∧ r.2.wakeups.toList = [] ∧ r.2.timers = []) ∧
    ∀ x y, Turns limit (0, c) x → Turn limit x y →
      x.2.clock.now ≤ y.2.clock.now ∧ (y.2.clock.now ≠ x.2.clock.now →
        x.2.pending = 0 ∧ ∃ t ∈ x.2.timers, y.2.clock.now = t.due ∧ t ∉ y.2.timers ∧
          t.envelope ∈ y.2.queue.toList) := by
  intro c r
  obtain ⟨hturns, hends⟩ := turns_runIdleFrom limit (n := 0) (c := c) (Nat.zero_add limit)
  refine ⟨wellFounded_turn limit, hturns, hends, ?_, fun hbelow => ?_, fun x y hbefore hturn => ?_⟩
  · exact hturns.fst_le (Nat.zero_le limit)
  · exact spent_of_stopped hbelow hends
  · obtain ⟨acts, hacts⟩ := Turns.steps hbefore
    have hsteps := (timely_history (ofSettings settings world) commands).steps.trans hacts
    exact hturn.clock hsteps.balanced.addressed hsteps.punctual.sorted

/-- Two timers, one of them for ever. -/
def twoTimers : List (Command Value Performer) :=
  [.ask (.create .println "println" fun id => .sendAfter (2 ^ 64) (.symbol "last") id fun _ =>
    .sendAfter 9 (.symbol "nine") id fun _ => .done ())]

/-- Two jumps and two deliveries; the first jump is to the timer that was set last. -/
theorem twoTimers_quiescent :
    let c : Configuration Value Performer World := (ofSettings {} { fuel := 0 }).obey twoTimers
    let r := c.runUntilIdle 3
    r.1 = 2 ∧ r.2.world.output = #["#nine", "#last"] ∧ r.2.clock.now = 2 ^ 64 - 1 ∧
      r.2.queue.toList = [] ∧ r.2.wakeups.toList = [] ∧ r.2.timers = [] ∧
      ∃ y, Turn 3 (0, c) y ∧ y.2.clock.now = 9 ∧ ∃ t ∈ c.timers, t.due = 9 ∧ t ∉ y.2.timers := by
  intro c r
  obtain ⟨-, -, -, -, hspent, hclock⟩ :=
    runUntilIdle_quiescent {} ({ fuel := 0 } : World) twoTimers 3
  have hcount : r.1 = 2 := by decide +kernel
  obtain ⟨hqueue, hwakeups, htimers⟩ :=
    hspent (by rw [show (c.runUntilIdle 3).1 = 2 from hcount]; decide)
  have hturn : Turn 3 (0, c) (0, c.modify (·.advanceTo 9)) :=
    .jump (t := ⟨9, 1, ⟨⟨1⟩, .symbol "nine"⟩⟩) (by decide) rfl rfl
  have hmoved : (c.modify (·.advanceTo 9)).clock.now = 9 := rfl
  obtain ⟨-, t, ht, hdue, hgone, -⟩ := (hclock _ _ .refl hturn).2 (by decide)
  exact ⟨hcount, by decide +kernel, by decide +kernel, hqueue, hwakeups, htimers, _,
    hturn, hmoved, t, ht, hdue.symm.trans hmoved, hgone⟩

end Configuration

end Troupe
