import Troupe.Proofs.Deliveries
import Troupe.Proofs.Parts

/-!
How actors respond.

The services of a session have no deliveries: they send what a message mentions, and the logger
keeps it (`Performer.Serves`). Programs respond by a run.

* `Configuration.Invoked`: the ways in which the invocation of an actor ends.
* `Configuration.dispatch_cases`: a dispatch invokes an actor once its wake-up or message was taken.
-/

namespace Troupe

open List Script

/-- The message is on the queue or on the timers. -/
def Scheduler.Carries (s : Stage) (e : Envelope Value) : Prop :=
  e ∈ s.queue.toList ∨ ∃ t ∈ s.timers, t.envelope = e

/-- The configuration after the response of an actor. -/
def Configuration.after (id : ActorId) (r : (Performer × World) × Stage) :
    Ensemble :=
  ⟨r.2.setBehavior id r.1.1, r.1.2⟩

/-- The response of an actor to a message, or to being resumed. -/
def Performer.respond (p : Performer) (moment : Moment) (message : Option Value) (w : World) :
    Response (Performer × World) :=
  match message with
  | some m => p.receive moment m w
  | none => p.resume moment w

lemma bind_bind {M B α β γ : Type} (x : Script M B α) (f : α → Script M B β)
    (g : β → Script M B γ) : (x.bind f).bind g = x.bind fun a => (f a).bind g := by
  induction x with
  | done a => rfl
  | send m t k ih => exact congrArg (send m t) (funext ih)
  | sendAfter d m t k ih => exact congrArg (sendAfter d m t) (funext ih)
  | create b n k ih => exact congrArg (create b n) (funext ih)
  | createReserved id b n k ih => exact congrArg (createReserved id b n) (funext ih)
  | reserve k ih => exact congrArg reserve (funext ih)
  | issued k ih => exact congrArg issued (funext ih)
  | wake id k ih => exact congrArg (wake id) ih
  | takeWakeup k ih => exact congrArg takeWakeup (funext ih)
  | countWakeups k ih => exact congrArg countWakeups (funext ih)

namespace Performer

/-- What a service does: it sends what a message mentions, and the logger keeps it. -/
structure Serves (p : Performer) (moment : Moment) (message : Option Value) (w : World)
    (l : List PendingSend) (p' : Performer) (w' : World) : Prop where
  eq : p.respond moment message w = (Script.sendAll l).bind fun _ => .done (p', w')
  parts : ∀ y ∈ l, ∃ m, message = some m ∧ y.parts ⊆ m.parts
  traces : ∀ v ∈ w'.traces, v ∈ w.traces ∨ p = .logger ∧ message = some v
  store : w'.store = w.store
  service : ∀ a, p' ≠ .program a
  logger : p = .logger → p' = .logger ∧ l = []

lemma serveTimer_eq (request : Value) :
    ∃ l, serveTimer request = sendAll l ∧ ∀ y ∈ l, y.parts ⊆ request.parts := by
  unfold serveTimer
  split
  · rename_i delay message target
    split
    · rename_i ms _
      refine ⟨[⟨message, target, some ms⟩], rfl, fun y hy => ?_⟩
      rw [mem_singleton.1 hy]
      rintro p (rfl | hp)
      · exact .inr (.inr rfl)
      · exact .inr (.inl hp)
    · exact ⟨[], rfl, fun y hy => absurd hy not_mem_nil⟩
  · exact ⟨[], rfl, fun y hy => absurd hy not_mem_nil⟩

lemma serveRandom_eq (rng : Rng) (request : Value) :
    ∃ l rng', serveRandom rng request = (sendAll l).bind (fun _ => .done rng') ∧
      ∀ y ∈ l, y.parts ⊆ request.parts := by
  have hnone : ∀ rng', ∃ l rng'', (.done rng' : Response Rng) =
      (sendAll l).bind (fun _ => .done rng'') ∧ ∀ y ∈ l, y.parts ⊆ request.parts := fun rng' =>
    ⟨[], rng', rfl, fun y hy => absurd hy not_mem_nil⟩
  unfold serveRandom
  split
  · rename_i customer range
    split
    · split
      · rename_i n rng' _
        split
        · rename_i v hv
          refine ⟨[⟨v, customer, none⟩], rng', rfl, fun y hy => ?_⟩
          have hparts : v.parts = ∅ := by
            obtain ⟨_, _, rfl⟩ := Option.map_eq_some_iff.1 hv
            rfl
          rw [mem_singleton.1 hy, PendingSend.parts, hparts]
          exact Set.insert_subset (.inl rfl) (Set.empty_subset _)
        · exact hnone _
      · exact hnone _
    · exact hnone _
  · exact hnone _

/-- Who is no program serves, and is never exhausted by that. -/
lemma exists_serves {p : Performer} (hp : ∀ a, p ≠ .program a) (moment : Moment)
    (message : Option Value) (w : World) :
    ∃ l p' w', p.Serves moment message w l p' w' ∧ w'.exhausted = w.exhausted := by
  cases message with
  | none =>
    refine ⟨[], p, w, ⟨?_, fun y hy => absurd hy not_mem_nil, fun v hv => .inl hv, rfl, hp,
      fun h => ⟨h, rfl⟩⟩, rfl⟩
    cases p with
    | program a => exact absurd rfl (hp a)
    | _ => rfl
  | some m =>
    cases p with
    | program a => exact absurd rfl (hp a)
    | sink => exact ⟨[], .sink, w, ⟨rfl, by simp, fun v hv => .inl hv, rfl, by simp, by simp⟩, rfl⟩
    | println =>
      exact ⟨[], .println, _, ⟨rfl, by simp, fun v hv => .inl hv, rfl, by simp, by simp⟩, rfl⟩
    | logger =>
      refine ⟨[], .logger, _, ⟨rfl, by simp, fun v hv => ?_, rfl, by simp, by simp⟩, rfl⟩
      exact (Array.mem_push.1 hv).imp_right fun hv => ⟨rfl, by rw [hv]⟩
    | timer =>
      obtain ⟨l, heq, hparts⟩ := serveTimer_eq m
      refine ⟨l, .timer, w, ⟨?_, fun y hy => ⟨m, rfl, hparts y hy⟩, fun v hv =>
          .inl hv, rfl, by simp, by simp⟩, rfl⟩
      rw [respond, receive, heq]
    | random rng =>
      obtain ⟨l, rng', heq, hparts⟩ := serveRandom_eq rng m
      refine ⟨l, .random rng', w, ⟨?_, fun y hy => ⟨m, rfl, hparts y hy⟩, fun v hv =>
          .inl hv, rfl, by simp, by simp⟩, rfl⟩
      rw [respond, receive, heq, bind_bind]
      rfl

/-- What a service does when it responds. -/
lemma Serves.run {p p' : Performer} {moment : Moment} {message : Option Value} {w w' : World}
    {l : List PendingSend} (h : p.Serves moment message w l p' w') (s : Stage) :
    (p.respond moment message w).run s = ((p', w'), l.foldl Scheduler.post s) := by
  rw [h.eq, run_bind, run_sendAll]
  rfl

end Performer

lemma Performer.run_respond_program (a : Actor) (moment : Moment)
    (message : Option Value) (w : World) (s : Stage) :
    ((Performer.program a).respond moment message w).run s =
      (fun r : (Actor × World) × Stage => ((.program r.1.1, r.1.2), r.2))
        ((Actor.drain { a with backlog := a.backlog ++ message.toList } moment w).run s) := by
  cases message with
  | some m => exact run_bind ..
  | none =>
    have hsame : ({ a with backlog := a.backlog ++ (none : Option Value).toList } : Actor) = a := by
      simp
    rw [hsame]
    exact run_bind ..

namespace Configuration

variable {s : Stage} {w : World} {id : ActorId}

lemma invoke_of_none (message : Option Value) (h : s.find? id = none) :
    invoke ⟨s, w⟩ id message = ⟨s, w⟩ := by
  simp only [invoke, h]

lemma invoke_of_some (message : Option Value) {e : Entry Performer} (h : s.find? id = some e) :
    invoke ⟨s, w⟩ id message =
    after id ((e.behavior.respond ⟨id, s.clock.now⟩ message w).run s) := by
  simp only [invoke, h]
  cases message <;> rfl

/-- The ways in which an invocation ends: no one is there, a service has responded, or a program has
run to the last point of its run. -/
inductive Invoked (s : Stage) (w : World) (id : ActorId) (message : Option Value) :
    Ensemble → Prop where
  | missing (gone : s.find? id = none) : Invoked s w id message ⟨s, w⟩
  | service {name : String} {p p' : Performer} {l : List PendingSend} {w' : World}
      (found : s.find? id = some ⟨name, p⟩) (other : ∀ a, p ≠ .program a)
      (serves : p.Serves ⟨id, s.clock.now⟩ message w l p' w') (same : w'.exhausted = w.exhausted) :
      Invoked s w id message ⟨(l.foldl Scheduler.post s).setBehavior id p', w'⟩
  | program {name : String} {a a' : Actor} {s' : Stage} {w' : World}
      {current : Option Delivery} {backlog : List Value}
      (found : s.find? id = some ⟨name, .program a⟩)
      (point : Actor.Runs ⟨id, s.clock.now⟩ s w { a with backlog := a.backlog ++ message.toList }
        s' w' a' current backlog)
      (last : Actor.Runs.Last ⟨id, s.clock.now⟩ s w
        { a with backlog := a.backlog ++ message.toList } s' w' a' current backlog)
      (alive : w'.exhausted = false) :
      Invoked s w id message ⟨s'.setBehavior id (.program { a' with current, backlog }), w'⟩

/-- Unless the store is given up, an invocation ends in one of these ways. -/
lemma invoked (s : Stage) (w : World) (id : ActorId) (message : Option Value)
    (alive : (invoke ⟨s, w⟩ id message).world.exhausted = false) :
    Invoked s w id message (invoke ⟨s, w⟩ id message) := by
  cases hfound : s.find? id with
  | none =>
    rw [invoke_of_none message hfound]
    exact .missing hfound
  | some entry =>
    obtain ⟨name, p⟩ := entry
    rw [invoke_of_some message hfound] at alive ⊢
    by_cases hp : ∃ a, p = .program a
    · obtain ⟨a, rfl⟩ := hp
      dsimp only at alive ⊢
      rw [Performer.run_respond_program] at alive ⊢
      obtain ⟨a', current, backlog, hruns, hend, hlast⟩ :=
        Actor.Runs.ends_drain ⟨id, s.clock.now⟩ s w
          { a with backlog := a.backlog ++ message.toList } alive
      have hafter : Invoked s w id message _ := .program hfound hruns hlast alive
      rw [← hend] at hafter
      exact hafter
    · rw [not_exists] at hp
      obtain ⟨l, p', w', hserves, hsame⟩ := p.exists_serves hp ⟨id, s.clock.now⟩ message w
      rw [show (⟨name, p⟩ : Entry Performer).behavior = p from rfl, hserves.run]
      exact .service hfound hp hserves hsame

/-- A wake-up or a message for an actor is taken. -/
structure Takes (c : Ensemble) (s : Stage) (id : ActorId)
    (message : Option Value) : Prop where
  registry : s.registry = c.registry
  ids : s.ids = c.ids
  wakeups : ∀ id' ∈ c.wakeups.toList, id' ≠ id → id' ∈ s.wakeups.toList
  mail : ∀ e, s.Carries e → c.Carries e
  parcel : ∀ m, message = some m → c.Carries ⟨id, m⟩

lemma takes_wakeup {c : Ensemble} {id : ActorId} {wakeups : Fifo ActorId}
    (next : c.wakeups.pop? = some (id, wakeups)) :
    c.Takes { c.toScheduler with wakeups } id none := by
  refine ⟨rfl, rfl, fun id' hin hne => ?_, fun e he => he, fun m hm => by cases hm⟩
  rw [Fifo.toList_eq_cons_of_pop? next] at hin
  exact (mem_cons.1 hin).resolve_left hne

lemma takes_message {c : Ensemble} {id : ActorId} {message : Value}
    {queue : Fifo (Envelope Value)} (next : c.queue.pop? = some (⟨id, message⟩, queue)) :
    c.Takes { c.toScheduler with
      queue
      journal := c.journal.record c.clock.now (.delivered id) } id (some message) := by
  have hqueue := Fifo.toList_eq_cons_of_pop? next
  refine ⟨rfl, rfl, fun _ hin _ => hin, fun e => Or.imp_left fun he => ?_, fun m hm => ?_⟩
  · exact hqueue ▸ mem_cons_of_mem _ he
  · cases hm
    exact .inl (hqueue ▸ mem_cons_self ..)

/-- A dispatch does nothing, or an actor is invoked once its wake-up or message was taken. -/
lemma dispatch_cases (c : Ensemble) (alive : c.dispatch.2.world.exhausted = false) :
    c.dispatch.2 = c ∨ ∃ s id message, c.Takes s id message ∧
      Invoked s c.world id message c.dispatch.2 := by
  obtain ⟨s, w⟩ := c
  unfold dispatch at alive ⊢
  cases hwake : s.wakeups.pop? with
  | some x =>
    obtain ⟨id, wakeups⟩ := x
    rw [hwake] at alive
    exact .inr ⟨_, id, none, takes_wakeup hwake, invoked _ _ _ _ alive⟩
  | none =>
    cases hqueue : s.queue.pop? with
    | some x =>
      obtain ⟨⟨target, message⟩, queue⟩ := x
      rw [hwake, hqueue] at alive
      exact .inr ⟨_, target, some message, takes_message hqueue, invoked _ _ _ _ alive⟩
    | none => exact .inl rfl

end Configuration

end Troupe
