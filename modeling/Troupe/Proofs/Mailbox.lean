import Mathlib.Data.List.Range
import Mathlib.Order.Lattice
import Troupe.Proofs.Acts

/-!
Messages are delivered first in, first out, and each exactly once.

What a step of a scheduler means for its queue and its timers is said by the act that it is
(`Scheduler.Step.account`). Messages only get there if their target is
registered, and no one leaves, so the books of every run balance (`Scheduler.Balanced`).

* `Scheduler.Steps.balanced`: the books of every run of a scheduler.
* `Configuration.fifo_exactly_once`: those of a configuration, whatever its behaviors are and
  whatever its host tells it to do.
-/

open scoped List

namespace Troupe

open Script

open Act

open List

open Scheduler

/-! ### What acts are about -/

namespace Act

variable {M B : Type}

/-- The message for which a behavior is run. -/
def delivered : Act M B → List (Envelope M)
  | received e _ => [e]
  | _ => []

/-- The timers whose messages an act puts on the queue. -/
def fired : Act M B → List (Timer M)
  | released _ fired _ => fired
  | _ => []

end Act

namespace Scheduler

variable {M B : Type} {s s' : Scheduler M B} {a : Act M B} {acts : List (Act M B)}

/-! ### Releasing timers -/

/-! ### What one step does -/

/-! ### What every run does -/

/-- All messages that wait are for registered actors. -/
structure Addressed (s : Scheduler M B) : Prop where
  queue : ∀ e ∈ s.queue.toList, s.contains e.target = true
  timers : ∀ t ∈ s.timers, s.contains t.envelope.target = true

lemma addressed_ofSettings (settings : Settings) :
    (ofSettings settings : Scheduler M B).Addressed :=
  ⟨fun _ h => absurd h not_mem_nil, fun _ h => absurd h not_mem_nil⟩

/-- The messages of timers that are due all have their targets. -/
lemma Addressed.releaseAct (h : s.Addressed) (clock : Clock) :
    s.releaseAct clock = .released clock.now (s.dueAt clock) [] := by
  have htargets : ∀ t ∈ s.dueAt clock, s.contains t.envelope.target = true :=
    fun t ht => h.timers t ((takeWhile_sublist _).subset ht)
  have hfired : (s.dueAt clock).filter (fun t => s.contains t.envelope.target) = s.dueAt clock :=
    filter_eq_self.2 htargets
  have hlost : (s.dueAt clock).filter (fun t => !s.contains t.envelope.target) = [] :=
    filter_eq_nil_iff.2 fun t ht => by simp [htargets t ht]
  rw [Scheduler.releaseAct, hfired, hlost]

lemma Step.addressed (step : s.Step a s') (h : s.Addressed) : s'.Addressed := by
  obtain ⟨hsent, hscheduled, hreleased⟩ := step.sound
  have haccount := step.account
  constructor
  · intro e he
    -- it was there before, or was put there
    have hin : e ∈ s.queue.toList ++ a.enqueued := by
      rw [haccount.queue]
      exact mem_append_right _ he
    refine haccount.contains _ ((mem_append.1 hin).elim (h.queue e) fun hnew => ?_)
    cases a with
    | sent e' =>
      rw [enqueued, mem_singleton] at hnew
      rw [hnew]
      exact hsent e' rfl
    | released now fired lost =>
      obtain ⟨clock, -, -, -, hact⟩ := hreleased now fired lost rfl
      rw [h.releaseAct] at hact
      cases hact
      obtain ⟨t, ht, rfl⟩ := mem_map.1 hnew
      exact h.timers t ((takeWhile_sublist _).subset ht)
    | _ => exact absurd hnew not_mem_nil
  · intro t ht
    rw [haccount.timers] at ht
    cases a with
    | scheduled now delay t' =>
      refine haccount.contains _ ((mem_insert.1 ht).elim (fun heq => ?_) (h.timers t))
      rw [heq]
      exact (hscheduled now delay t' rfl).2.2.2
    | released now fired lost =>
      exact haccount.contains _ (h.timers t ((dropWhile_suffix _).subset ht))
    | _ => exact haccount.contains _ (h.timers t ht)

/-- Every message that is taken is delivered. -/
lemma Step.taken (step : s.Step a s') (h : s.Addressed) : a.taken = a.delivered := by
  cases step with
  | @discard e queue next missing =>
    have hin : e ∈ s.queue.toList := by
      rw [Fifo.toList_eq_cons_of_pop? next]
      exact mem_cons_self ..
    have hthere := h.queue e hin
    rw [Scheduler.contains, missing] at hthere
    cases hthere
  | _ => rfl

/-- The books of a run balance: what was put on the queue is what was delivered, followed by what is
there; what was put on the timers is what was released to the queue, beside what is there; and all
that waits has its target. -/
structure Balanced (acts : List (Act M B)) (s : Scheduler M B) : Prop where
  fifo : acts.flatMap enqueued = acts.flatMap delivered ++ s.queue.toList
  once : acts.flatMap timed ~ acts.flatMap fired ++ s.timers
  /-- All timers have different numbers, so `once` tells them apart. -/
  numbers : (acts.flatMap timed).map (·.seq) = range s.timerSeq
  addressed : s.Addressed
  /-- No message and no timer was taken and not delivered or put on the queue. -/
  nothing_lost : ∀ a ∈ acts, (∀ e, a ≠ .discarded e) ∧ ∀ now fired lost,
    a = .released now fired lost →
    lost = []

lemma balanced_ofSettings (settings : Settings) :
    Balanced [] (ofSettings settings : Scheduler M B) :=
  ⟨rfl, .nil, rfl, addressed_ofSettings settings, fun _ h => absurd h not_mem_nil⟩

/-- One step keeps the books balanced. -/
lemma Balanced.step (h : Balanced acts s) (step : s.Step a s') : Balanced (acts ++ [a]) s' := by
  obtain ⟨-, hscheduled, hreleased⟩ := step.sound
  have haccount := step.account
  have hsnoc : ∀ {β : Type} (f : Act M B → List β), (acts ++ [a]).flatMap f =
      acts.flatMap f ++ f a :=
    fun f => by simp
  refine ⟨?_, ?_, ?_, step.addressed h.addressed, ?_⟩
  · calc (acts ++ [a]).flatMap enqueued
        = acts.flatMap delivered ++ (s.queue.toList ++ a.enqueued) := by
          rw [hsnoc, h.fifo, append_assoc]
      _ = acts.flatMap delivered ++ (a.delivered ++ s'.queue.toList) := by
          rw [haccount.queue, step.taken h.addressed]
      _ = (acts ++ [a]).flatMap delivered ++ s'.queue.toList := by
          rw [hsnoc, append_assoc]
  · rw [hsnoc, hsnoc, haccount.timers]
    cases a with
    | scheduled now delay t =>
      have hinsert : (t :: s.timers).Perm (Timer.insert s.timers t) := by
        conv_lhs => rw [← takeWhile_append_dropWhile (p := (Timer.le · t)) (l := s.timers)]
        exact perm_middle.symm
      calc acts.flatMap timed ++ [t]
          ~ t :: acts.flatMap timed := perm_append_singleton _ _
        _ ~ t :: (acts.flatMap fired ++ s.timers) := h.once.cons t
        _ ~ acts.flatMap fired ++ (t :: s.timers) := perm_middle.symm
        _ ~ acts.flatMap fired ++ [] ++ Timer.insert s.timers t := by
            rw [append_nil]
            exact hinsert.append_left _
    | released now fired lost =>
      obtain ⟨clock, rfl, -, -, hact⟩ := hreleased now fired lost rfl
      rw [h.addressed.releaseAct] at hact
      cases hact
      have hsplit : s.dueAt clock ++ s.timers.dropWhile (·.due ≤ clock.now) = s.timers :=
        takeWhile_append_dropWhile
      simp only [timed, fired, append_nil, append_assoc]
      rw [timersAfter, hsplit]
      exact h.once
    | _ =>
      simp only [timed, fired, append_nil]
      exact h.once
  · rw [hsnoc, map_append, h.numbers, haccount.timerSeq]
    cases a with
    | scheduled now delay t =>
      simp only [timed, map_cons, map_nil, length_singleton, range_succ]
      rw [(hscheduled now delay t rfl).2.2.1]
    | _ => simp [timed]
  · intro b hb
    rcases mem_append.1 hb with hb | hb
    · exact h.nothing_lost b hb
    · rw [mem_singleton.1 hb]
      refine ⟨fun e he => ?_, fun now fired lost ha => ?_⟩
      · subst he
        exact absurd (step.taken h.addressed) (cons_ne_nil _ _)
      · obtain ⟨clock, -, -, -, hact⟩ := hreleased now fired lost ha
        rw [h.addressed.releaseAct, ha] at hact
        cases hact
        rfl

/-- The books of every run balance. -/
theorem Steps.balanced {settings : Settings}
    (h : (ofSettings settings : Scheduler M B).Steps acts s) : Balanced acts s := by
  induction h with
  | refl => exact balanced_ofSettings settings
  | snoc _ step ih => exact ih.step step

end Scheduler

/-! ### Refused requests -/

namespace Script

variable {M B : Type} {s s' : Scheduler M B} {fault : Fault}

/-- A request that is refused changes nothing. -/
lemma eq_of_settle {granted : Except Fault (Scheduler M B)}
    (refused : settle s granted = (.error fault, s')) : granted = .error fault ∧ s' = s := by
  cases granted with
  | ok s1 => cases refused
  | error e =>
    cases refused
    exact ⟨rfl, rfl⟩

/-- A send to no one is refused, and changes nothing. -/
lemma run_send_refused {message : M} {target : ActorId}
    (refused : (send message target .done).run s = (.error fault, s')) :
    s' = s ∧ s.contains target = false ∧ fault = .notAnActor target := by
  obtain ⟨hgranted, hs⟩ := eq_of_settle refused
  rw [send_eq] at hgranted
  split at hgranted
  · cases hgranted
  · rename_i h
    cases hgranted
    exact ⟨hs, by simpa using h, rfl⟩

lemma run_sendAfter_refused {delay : Millis} {message : M} {target : ActorId}
    (refused : (sendAfter delay message target .done).run s = (.error fault, s')) :
    s' = s ∧ s.contains target = false ∧ fault = .notAnActor target := by
  obtain ⟨hgranted, hs⟩ := eq_of_settle refused
  rw [sendAfter_eq] at hgranted
  split at hgranted
  · cases hgranted
  · rename_i h
    cases hgranted
    exact ⟨hs, by simpa using h, rfl⟩

/-- An address that is taken is refused, and nothing changes. -/
lemma run_createReserved_refused {id : ActorId} {b : B} {name : String}
    (refused : (createReserved id b name .done).run s = (.error fault, s')) :
    s' = s ∧ s.contains id = true ∧ fault = .alreadyRegistered id := by
  obtain ⟨hgranted, hs⟩ := eq_of_settle refused
  rw [Scheduler.createReserved] at hgranted
  split at hgranted
  · rename_i h
    cases hgranted
    exact ⟨hs, h, rfl⟩
  · cases hgranted

end Script

namespace Configuration

variable {M B W : Type} [Behavior M B W]

/-- A message to a registered actor is delivered by running the behavior that the actor has,
once. -/
lemma dispatch_found {c : Configuration M B W} {e : Envelope M} {queue : Fifo (Envelope M)}
    {entry : Entry B} (idle : c.wakeups.pop? = none) (next : c.queue.pop? = some (e, queue))
    (found : c.find? e.target = some entry) :
    c.dispatch =
      let r := (Behavior.receive entry.behavior ⟨e.target, c.clock.now⟩ e.message c.world).run
        (c.toScheduler.withQueue e.target queue)
      (true, ⟨r.2.setBehavior e.target r.1.1, r.1.2⟩) := by
  rw [dispatch_message idle next]
  exact congrArg (Prod.mk true) (invoke_found _ found)

/-- Delivery is first-in first-out and exactly once, for all behaviors, whatever the host tells the
configuration to do, and at every moment, also while a behavior runs. A message that is dispatched
runs the behavior of its target once, and requests that are refused change nothing. -/
theorem fifo_exactly_once (settings : Settings) (world : W) (commands : List (Command M B)) :
    let start : Configuration M B W := ofSettings settings world
    let history := start.history commands
    let c := start.obey commands
    start.toScheduler.Steps history c.toScheduler ∧
    (∀ acts rest s, history = acts ++ rest → start.toScheduler.Steps acts s → s.Balanced acts) ∧
    (∀ e queue, c.wakeups.pop? = none → c.queue.pop? = some (e, queue) →
      ∃ entry, c.find? e.target = some entry ∧ c.dispatch =
        let r := (Behavior.receive entry.behavior ⟨e.target, c.clock.now⟩ e.message c.world).run
          (c.toScheduler.withQueue e.target queue)
        (true, ⟨r.2.setBehavior e.target r.1.1, r.1.2⟩)) ∧
    (∀ message target fault s',
      (send message target .done).run c.toScheduler = (.error fault, s') →
        s' = c.toScheduler ∧ c.contains target = false ∧ fault = .notAnActor target) ∧
    (∀ delay message target fault s',
      (sendAfter delay message target .done).run c.toScheduler = (.error fault, s') →
        s' = c.toScheduler ∧ c.contains target = false ∧ fault = .notAnActor target) ∧
    ∀ id b name fault s',
      (createReserved id b name .done).run c.toScheduler = (.error fault, s') →
        s' = c.toScheduler ∧ c.contains id = true ∧ fault = .alreadyRegistered id := by
  intro start history c
  have hsteps : start.toScheduler.Steps history c.toScheduler :=
    (timely_history start commands).steps
  refine ⟨hsteps, fun acts rest s _ h => Scheduler.Steps.balanced h, ?_, ?_, ?_, ?_⟩
  · intro e queue idle next
    have hin : e ∈ c.queue.toList := by
      rw [Fifo.toList_eq_cons_of_pop? next]
      exact mem_cons_self ..
    obtain ⟨entry, hentry⟩ := Option.isSome_iff_exists.1
      ((Scheduler.Steps.balanced hsteps).addressed.queue e hin)
    exact ⟨entry, hentry, dispatch_found idle next hentry⟩
  · exact fun _ _ _ _ => run_send_refused
  · exact fun _ _ _ _ _ => run_sendAfter_refused
  · exact fun _ _ _ _ _ => run_createReserved_refused

/-- Two messages, one with a delay, to an actor that prints them. -/
def twoMessages : List (Command Value Performer) :=
  [.ask (.create .println "println" fun id =>
    .sendAfter 5 (.symbol "late") id fun _ => .send (.symbol "early") id fun _ => .done ()),
    .runUntilIdle 3]

theorem twoMessages_balanced :
    ∃ acts s, (Scheduler.ofSettings {} : Scheduler Value Performer).Steps acts s ∧
      (acts.flatMap delivered).map (·.message) = [.symbol "early", .symbol "late"] ∧
      s.Balanced acts := by
  have h := fifo_exactly_once {} ({ fuel := 0 } : World) twoMessages
  exact ⟨_, _, h.1, by decide +kernel, h.2.1 _ [] _ (append_nil _).symm h.1⟩

end Configuration

end Troupe
