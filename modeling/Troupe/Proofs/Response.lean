import Mathlib.Data.List.TakeDrop
import Troupe.Actor
import Troupe.Proofs.Registry

/-!
What the responses of actors do to the scheduler.

Each group of requests in the response of an actor is a function of the scheduler: registering
staged actors (`Scheduler.seat`), sending (`Scheduler.post`), asking for wake-ups. What these leave
on the queue and on the timers is said in full.

* `Scheduler.registry_seatAll`: actors under free addresses are all registered, in order.
* `Scheduler.queue_postAll`, `Scheduler.timers_postAll`: sends to registered actors are put on the
  queue or on the timers, in order.
-/

namespace Troupe

open Fifo List Scheduler Script

variable {d : Delivery} {s : Stage} {w : World}

/-- The place of a timer: behind those that are released no later. -/
def Timer.insert {M : Type} (timers : List (Timer M)) (t : Timer M) : List (Timer M) :=
  timers.takeWhile (Timer.le · t) ++ t :: timers.dropWhile (Timer.le · t)

/-- The entry of a staged actor. -/
def StagedActor.entry (logger : Option ActorId) (a : StagedActor) : ActorId × Entry Performer :=
  (a.id, ⟨a.name, .program { behavior := a.behavior, env := a.env, logger }⟩)

namespace Scheduler

variable {M B : Type}

/-! ### The registry -/

/-- Registers a staged actor, unless its address is taken. -/
def seat (logger : Option ActorId) (s : Scheduler M Performer) (a : StagedActor) :
    Scheduler M Performer :=
  if s.contains a.id then s
  else s.register a.id (.program { behavior := a.behavior, env := a.env, logger }) a.name

/-- Sends a message, or drops it if it is for no one. -/
def post (s : Scheduler Value B) (x : PendingSend) : Scheduler Value B :=
  match (match x.delay with
    | none => s.send x.message x.target
    | some delay => s.sendAfter delay x.message x.target) with
  | .ok s => s
  | .error _ => s

lemma seatAll_frame (logger : Option ActorId) (l : List StagedActor) (s : Scheduler M Performer) :
    (l.foldl (seat logger) s).queue = s.queue ∧ (l.foldl (seat logger) s).timers = s.timers ∧
      (l.foldl (seat logger) s).timerSeq = s.timerSeq ∧
      (l.foldl (seat logger) s).clock = s.clock ∧ (l.foldl (seat logger) s).ids = s.ids ∧
      (l.foldl (seat logger) s).wakeups = s.wakeups := by
  induction l generalizing s with
  | nil => exact ⟨rfl, rfl, rfl, rfl, rfl, rfl⟩
  | cons a l ih =>
    obtain ⟨h1, h2, h3, h4, h5, h6⟩ := ih (s.seat logger a)
    refine ⟨h1.trans ?_, h2.trans ?_, h3.trans ?_, h4.trans ?_, h5.trans ?_, h6.trans ?_⟩ <;>
      unfold seat <;> split <;> rfl

/-- Staged actors under different addresses that are free are all registered, in order. -/
theorem registry_seatAll (logger : Option ActorId) {l : List StagedActor}
    {s : Scheduler M Performer} (nodup : (l.map (·.id)).Nodup)
    (free : ∀ a ∈ l, ∀ e, (a.id, e) ∉ s.registry) :
    (l.foldl (seat logger) s).registry = s.registry ++ l.map (StagedActor.entry logger) := by
  induction l generalizing s with
  | nil => exact (append_nil _).symm
  | cons a l ih =>
    rw [map_cons, nodup_cons] at nodup
    have hfree := free a (mem_cons_self ..)
    have hcontains : ¬ s.contains a.id = true := by
      rw [contains_eq_true_iff]
      exact fun ⟨e, he⟩ => hfree e he
    have hregistry : (s.seat logger a).registry = s.registry ++ [a.entry logger] := by
      rw [seat, if_neg hcontains]
      exact enter_of_free hfree
    rw [foldl_cons, ih nodup.2, hregistry, append_assoc]
    · rfl
    · intro b hb e he
      rw [hregistry, mem_append] at he
      rcases he with he | he
      · exact free b (mem_cons_of_mem _ hb) e he
      · have hid : b.id = a.id := congrArg Prod.fst (mem_singleton.1 he)
        exact nodup.1 (hid ▸ mem_map_of_mem hb)

/-- Whoever is registered in the end was registered before, or was staged. -/
lemma mem_registry_seatAll (logger : Option ActorId) {l : List StagedActor}
    {s : Scheduler M Performer} {x : ActorId × Entry Performer}
    (h : x ∈ (l.foldl (seat logger) s).registry) :
    x ∈ s.registry ∨ ∃ a ∈ l, x = a.entry logger := by
  induction l generalizing s with
  | nil => exact .inl h
  | cons a l ih =>
    rcases ih h with h | ⟨b, hb, rfl⟩
    · unfold seat at h
      split at h
      · exact .inl h
      · rename_i hfree
        rw [Bool.not_eq_true, ← Bool.not_eq_true, contains_eq_true_iff, not_exists] at hfree
        have hregistry := enter_of_free (e := (a.entry logger).2) hfree
        have hx : x ∈ s.registry ++ [a.entry logger] := hregistry ▸ h
        rcases mem_append.1 hx with hx | hx
        · exact .inl hx
        · exact .inr ⟨a, mem_cons_self .., mem_singleton.1 hx⟩
    · exact .inr ⟨b, mem_cons_of_mem _ hb, rfl⟩

/-! ### The queue and the timers -/

/-- What a send without a delay to a registered actor puts on the queue. -/
def envelope? (s : Scheduler M B) (x : PendingSend) : Option (Envelope Value) :=
  match x.delay with
  | none => if s.contains x.target then some ⟨x.target, x.message⟩ else none
  | some _ => none

/-- What a delayed send to a registered actor puts on the timers, but for its number: when it is
due, and the message. -/
def appointment? (s : Scheduler M B) (x : PendingSend) : Option (Millis × Envelope Value) :=
  match x.delay with
  | none => none
  | some delay =>
    if s.contains x.target then some (Millis.after s.clock.now delay, ⟨x.target, x.message⟩)
    else none

lemma envelope?_congr {s s' : Scheduler M B} (registry : s'.registry = s.registry) :
    s'.envelope? = s.envelope? := by
  funext x
  simp only [envelope?, contains_congr registry]

lemma appointment?_congr {s s' : Scheduler M B} (registry : s'.registry = s.registry)
    (clock : s'.clock = s.clock) : s'.appointment? = s.appointment? := by
  funext x
  simp only [appointment?, contains_congr registry, clock]

/-- Puts appointments on the timers, numbered on from `seq`. -/
def schedule : Nat → List (Timer Value) → List (Millis × Envelope Value) → List (Timer Value)
  | _, timers, [] => timers
  | seq, timers, (due, envelope) :: rest =>
    schedule (seq + 1) (Timer.insert timers ⟨due, seq, envelope⟩) rest

/-- What a send does. -/
lemma posts (s : Scheduler Value B) (x : PendingSend) :
    ((s.post x).registry = s.registry ∧ (s.post x).clock = s.clock ∧ (s.post x).ids = s.ids ∧
      (s.post x).wakeups = s.wakeups) ∧
    (s.post x).queue.toList = s.queue.toList ++ (s.envelope? x).toList ∧
    (s.post x).timers = schedule s.timerSeq s.timers (s.appointment? x).toList ∧
    (s.post x).timerSeq = s.timerSeq + (s.appointment? x).toList.length := by
  obtain ⟨message, target, delay⟩ := x
  by_cases h : s.contains target = true
  · cases delay with
    | none => simp [post, send, envelope?, appointment?, h, resume, schedule]
    | some delay =>
      simp [post, sendAfter, envelope?, appointment?, h, schedule, Timer.insert,
        span_eq_takeWhile_dropWhile]
  · cases delay <;> simp [post, send, sendAfter, envelope?, appointment?, h, schedule]

lemma postAll_frame (l : List PendingSend) (s : Scheduler Value B) :
    (l.foldl post s).registry = s.registry ∧ (l.foldl post s).clock = s.clock ∧
      (l.foldl post s).ids = s.ids ∧ (l.foldl post s).wakeups = s.wakeups := by
  induction l generalizing s with
  | nil => exact ⟨rfl, rfl, rfl, rfl⟩
  | cons x l ih =>
    obtain ⟨h1, h2, h3, h4⟩ := ih (s.post x)
    obtain ⟨k1, k2, k3, k4⟩ := (s.posts x).1
    exact ⟨h1.trans k1, h2.trans k2, h3.trans k3, h4.trans k4⟩

/-- Sends without a delay to registered actors are put on the queue, in order. -/
theorem queue_postAll (l : List PendingSend) (s : Scheduler Value B) :
    (l.foldl post s).queue.toList = s.queue.toList ++ l.filterMap s.envelope? := by
  induction l generalizing s with
  | nil => exact (append_nil _).symm
  | cons x l ih =>
    obtain ⟨hframe, hqueue, -⟩ := s.posts x
    rw [foldl_cons, ih, hqueue, envelope?_congr hframe.1, append_assoc, filterMap_cons]
    cases s.envelope? x <;> rfl

lemma schedule_append (seq : Nat) (timers : List (Timer Value))
    (l l' : List (Millis × Envelope Value)) :
    schedule seq timers (l ++ l') = schedule (seq + l.length) (schedule seq timers l) l' := by
  induction l generalizing seq timers with
  | nil => rfl
  | cons x l ih =>
    simp only [cons_append, schedule, length_cons, ih]
    congr 1
    omega

/-- Delayed sends to registered actors are put on the timers, numbered in order. -/
theorem timers_postAll (l : List PendingSend) (s : Scheduler Value B) :
    (l.foldl post s).timers = schedule s.timerSeq s.timers (l.filterMap s.appointment?) := by
  induction l generalizing s with
  | nil => rfl
  | cons x l ih =>
    obtain ⟨⟨hregistry, hclock, -⟩, -, htimers, hseq⟩ := s.posts x
    rw [foldl_cons, ih, appointment?_congr hregistry hclock, htimers,
      hseq, ← schedule_append, filterMap_cons]
    cases s.appointment? x <;> rfl

end Scheduler

/-! ### Responses -/

namespace Script

variable {M B : Type}

lemma run_reserveAll (n : Nat) (s : Scheduler M B) :
    (reserveAll n).run s = ((), { s with ids := ⟨s.ids.issued + n⟩ }) := by
  induction n generalizing s with
  | zero => rfl
  | succ n ih =>
    have hcount : s.ids.issued + 1 + n = s.ids.issued + (n + 1) := by omega
    rw [← hcount]
    exact ih _

lemma run_wakeAll (ids : List ActorId) (s : Scheduler M B) :
    (wakeAll ids).run s = ((), { s with wakeups := ids.foldl push s.wakeups }) := by
  induction ids generalizing s with
  | nil => rfl
  | cons id ids ih => exact ih _

lemma run_register (logger : Option ActorId) (l : List StagedActor) (s : Stage) :
    (register logger l).run s = ((), l.foldl (seat logger) s) := by
  induction l generalizing s with
  | nil => rfl
  | cons a l ih =>
    rw [foldl_cons, ← ih, register, run_createReserved, Scheduler.createReserved,
      seat]
    by_cases h : s.contains a.id = true
    · rw [if_pos h, if_pos h]
      rfl
    · rw [if_neg h, if_neg h]
      rfl

lemma run_sendAll (l : List PendingSend) (s : Scheduler Value B) :
    (sendAll l).run s = ((), l.foldl post s) := by
  induction l generalizing s with
  | nil => rfl
  | cons x l ih =>
    obtain ⟨message, target, delay⟩ := x
    cases delay with
    | none =>
      rw [foldl_cons, ← ih, sendAll, run_send, post]
      dsimp only
      cases s.send message target <;> rfl
    | some delay =>
      rw [foldl_cons, ← ih, sendAll, run_sendAfter, post]
      dsimp only
      cases s.sendAfter delay message target <;> rfl

end Script

/-- First the new actors are registered, then the sends take place. -/
lemma Effects.run_flush (e : Effects) (logger : Option ActorId) (s : Stage) :
    (e.flush logger).run s =
      ((), e.sends.toList.foldl post (e.created.toList.foldl (seat logger) s)) := by
  refine (run_bind ..).trans ?_
  rw [run_register]
  exact run_sendAll ..

lemma World.run_passWakeups (w : World) (s : Stage) :
    w.passWakeups.run s =
      ({ w with store := { w.store with wakeups := #[] } },
        { s with wakeups := w.store.wakeups.toList.foldl push s.wakeups }) := by
  refine (run_bind ..).trans ?_
  rw [run_wakeAll]
  rfl

namespace Actor

/-- The report of a delivery as a send. -/
def trace (a : Actor) (self : ActorId) (message result : Value) : List PendingSend :=
  a.logger.toList.map fun logger => ⟨.pair (.pair message (.actor self)) result, logger, none⟩

lemma run_report (a : Actor) (self : ActorId) (message result : Value) (s : Stage) :
    (a.report self message result).run s = ((), (a.trace self message result).foldl post s) := by
  unfold report trace
  cases a.logger with
  | none => rfl
  | some logger =>
    simp only [run_send, run_done, Option.toList_some, map_cons, map_nil, foldl_cons,
      foldl_nil, post]
    cases s.send (.pair (.pair message (.actor self)) result) logger <;> rfl

end Actor

/-- A run of a delivery: the scheduler hands out addresses and wake-ups, and nothing else. -/
lemma Delivery.run_advance {task : Task .outcome} {store : Store}
    (h : d.task.advance w.fuel { w.store with ids := ⟨s.ids.issued⟩ } = some (task, store)) :
    (d.advance w).run s =
      (({ d with task }, { w with store := { store with wakeups := #[] } }),
        { s with
          ids := ⟨s.ids.issued + (store.ids.issued - s.ids.issued)⟩
          wakeups := store.wakeups.toList.foldl push s.wakeups }) := by
  obtain ⟨st, output, traces, fuel, exhausted⟩ := w
  unfold advance
  rw [run_issued, h]
  dsimp only
  rw [run_bind, run_reserveAll, run_bind, World.run_passWakeups]
  rfl

/-- A delivery that runs out of fuel gives the store up. -/
lemma Delivery.run_advance_none
    (h : d.task.advance w.fuel { w.store with ids := ⟨s.ids.issued⟩ } = none) :
    (d.advance w).run s = ((d, { w with store := {}, exhausted := true }), s) := by
  obtain ⟨st, output, traces, fuel, exhausted⟩ := w
  unfold advance
  rw [run_issued, h]
  rfl

/-- A run of a delivery that did not run out of fuel. -/
lemma Delivery.exists_of_run_advance {d' : Delivery} {w' : World} {s' : Stage}
    (run : (d.advance w).run s = ((d', w'), s')) (alive : w'.exhausted = false) :
    ∃ task store, d.task.advance w.fuel { w.store with ids := ⟨s.ids.issued⟩ } =
    some (task, store) ∧
      d' = { d with task } ∧ w' = { w with store := { store with wakeups := #[] } } ∧
      s' = { s with
        ids := ⟨s.ids.issued + (store.ids.issued - s.ids.issued)⟩
        wakeups := store.wakeups.toList.foldl push s.wakeups } := by
  cases h : d.task.advance w.fuel { w.store with ids := ⟨s.ids.issued⟩ } with
  | none =>
    rw [run_advance_none h] at run
    cases run
    cases alive
  | some r =>
    obtain ⟨task, store⟩ := r
    rw [run_advance h] at run
    cases run
    exact ⟨task, store, rfl, rfl, rfl, rfl⟩

lemma Heap.define_frame (h : Heap) (name : String) (v : Value) (env : Env) :
    (h.define name v env).2 = { h with dicts := (h.define name v env).2.dicts } := by
  induction env with
  | empty | global => rfl
  | dynamic layer base ih | block scope captured caller ih _ | actor stamp id next ih => exact ih

namespace Actor

lemma setDefinitions_frame (env : Env) (defines : List (String × Value)) (s : Store) :
    ∃ dicts, setDefinitions env defines s = { s with heap := { s.heap with dicts } } := by
  induction defines generalizing s with
  | nil => exact ⟨s.heap.dicts, rfl⟩
  | cons x defines ih =>
    obtain ⟨dicts, hdicts⟩ := ih (s.onHeap (·.define x.1 x.2 env)).2
    refine ⟨dicts, hdicts.trans ?_⟩
    change { s with heap := { (s.heap.define x.1 x.2 env).2 with dicts } } = _
    rw [Heap.define_frame]

lemma heap_setDefinitions (env : Env) (defines : List (String × Value)) (s : Store) :
    (setDefinitions env defines s).heap =
      defines.foldl (fun h x => (h.define x.1 x.2 env).2) s.heap := by
  induction defines generalizing s with
  | nil => rfl
  | cons x defines ih => exact ih _

/-- The world after a delivery has been settled, with what is left of the heap. -/
def aftermath (d : Delivery) (w : World) (store : Store) : World :=
  { w with store := { store.close d.task.context.task with wakeups := #[] } }

/-- A delivery has failed, or what it has gathered is committed. -/
lemma failed_or_gathered (outcome : Outcome) (t : Transaction) :
    (outcome = .fail ∨ t.isFailed = true) ∨ ∃ e, t = .gathering e ∧ outcome ≠ .fail := by
  by_cases hfail : outcome = .fail
  · exact .inl (.inl hfail)
  · cases t with
    | gathering e => exact .inr ⟨e, rfl, hfail⟩
    | failed x => exact .inl (.inr rfl)

/-- A delivery that failed is reverted and reported. -/
lemma run_settle_failed (a : Actor) (self : ActorId) {outcome : Outcome}
    (failed : outcome = .fail ∨ (w.store.transaction d.transaction).isFailed) (s : Stage) :
    ∃ wakeups, wakeups = ((w.store.onTransaction d.transaction (·.revert)).2.close
        d.task.context.task).wakeups.toList.foldl push s.wakeups ∧
      (a.settle self d outcome w).run s =
        ((a, aftermath d w (w.store.onTransaction d.transaction (·.revert)).2),
          { (a.trace self d.message (.pair (.symbol "exception")
              ((w.store.transaction d.transaction).revert.1.getD .undefined))).foldl
                post s with wakeups }) := by
  obtain ⟨store, output, traces, fuel, exhausted⟩ := w
  refine ⟨_, rfl, ?_⟩
  unfold settle
  dsimp only
  rw [if_pos failed, revert]
  refine (run_bind ..).trans ?_
  refine (run_bind ..).trans ?_
  rw [run_done, run_report]
  refine (run_bind ..).trans ?_
  rw [World.run_passWakeups, (postAll_frame ..).2.2.2]
  rfl

/-- A delivery that did not fail is committed and reported. -/
lemma run_settle_committed (a : Actor) (self : ActorId) {outcome : Outcome} {effects : Effects}
    (gathered : w.store.transaction d.transaction = .gathering effects) (sound : outcome ≠ .fail)
    (s : Stage) :
    ∃ wakeups, wakeups = ((setDefinitions a.env effects.defines.toList
        (w.store.onTransaction d.transaction (·.commit)).2).close
          d.task.context.task).wakeups.toList.foldl push s.wakeups ∧
      (a.settle self d outcome w).run s =
        ((a.next outcome, aftermath d w (setDefinitions a.env effects.defines.toList
            (w.store.onTransaction d.transaction (·.commit)).2)),
          { (effects.sends.toList ++ a.trace self d.message effects.report).foldl post
              (effects.created.toList.foldl (seat a.logger) s) with wakeups }) := by
  have hnext : (a.next outcome).env = a.env ∧ (a.next outcome).logger = a.logger := by
    cases outcome <;> exact ⟨rfl, rfl⟩
  obtain ⟨store, output, traces, fuel, exhausted⟩ := w
  have hfailed : ¬ (outcome = .fail ∨ (store.transaction d.transaction).isFailed = true) := by
    rw [gathered]
    simpa [Transaction.isFailed] using sound
  have hcommit : (store.onTransaction d.transaction (·.commit)).1 = effects := by
    rw [Store.onTransaction, gathered]
    rfl
  refine ⟨_, rfl, ?_⟩
  unfold settle
  dsimp only
  rw [if_neg hfailed, commit]
  dsimp only
  rw [hnext.1, hnext.2, hcommit]
  refine (run_bind ..).trans ?_
  rw [run_bind, Effects.run_flush]
  refine (run_bind ..).trans ?_
  rw [run_done, run_report]
  refine (run_bind ..).trans ?_
  rw [World.run_passWakeups, (postAll_frame ..).2.2.2, (postAll_frame ..).2.2.2,
    (seatAll_frame ..).2.2.2.2.2, trace, hnext.2, foldl_append]
  rfl

/-- What settling a delivery comes to: its transaction ends, definitions are made, actors are
registered if they were staged, and messages are sent. -/
lemma exists_settlement (a : Actor) (self : ActorId) (d : Delivery) (outcome : Outcome) (w : World)
    (s : Stage) :
    ∃ (f : Transaction → Unit × Transaction) (e : Effects) (mail : List PendingSend) (next : Actor)
      (wakeups : Fifo ActorId), (e = {} ∨ w.store.transaction d.transaction = .gathering e) ∧
      (next = a ∨ next = a.next outcome) ∧
      wakeups =
      ((setDefinitions a.env e.defines.toList (w.store.onTransaction d.transaction f).2).close
        d.task.context.task).wakeups.toList.foldl push s.wakeups ∧
      (a.settle self d outcome w).run s =
      ((next, aftermath d w (setDefinitions a.env e.defines.toList
          (w.store.onTransaction d.transaction f).2)),
        { mail.foldl post (e.created.toList.foldl (seat a.logger) s) with wakeups }) := by
  rcases failed_or_gathered outcome
    (w.store.transaction d.transaction) with hfailed | ⟨e, he, hsound⟩
  · obtain ⟨wakeups, hwakeups, hrun⟩ := run_settle_failed a self hfailed s
    exact ⟨fun t => ((), t.revert.2), {}, _, a, wakeups, .inl rfl, .inl rfl, hwakeups, hrun⟩
  · obtain ⟨wakeups, hwakeups, hrun⟩ := run_settle_committed a self he hsound s
    exact ⟨fun t => ((), t.commit.2), e, _, _, wakeups, .inr he, .inr rfl, hwakeups, hrun⟩

end Actor

end Troupe
