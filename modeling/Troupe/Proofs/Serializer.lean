import Troupe.Proofs.TameResponses

/-!
Actors take one message at a time.

What happens to an actor is noted (`Note`): a message arrives, its delivery starts with the behavior
of that time, and the delivery is settled. The notes are taken by the runs themselves
(`Actor.drainNoted`), which goes unnoticed (`Actor.run_drainNoted`). They follow one pattern
(`Serial`): deliveries start in the order in which the messages arrived, one after the other, and
each is settled once.

* `Session.Chronicle`: the notes on an actor in the course of a session.
* `Session.serialized`
-/

namespace Troupe

open Troupe.Configuration List Option Scheduler Script

variable {w : World} {a : Actor}

/-! ### Notes -/

/-- Something that happens to an actor. -/
inductive Note where
  | arrived (message : Value)
  /-- The behavior is applied to the message. -/
  | started (behavior message : Value)
  /-- The delivery of the message was committed or reverted. -/
  | settled (message : Value) (outcome : Outcome) (committed : Bool)

/-- The message that arrives. -/
def Note.arrival? : Note → Option Value
  | .arrived message => some message
  | _ => none

/-- Whether a delivery starts or is settled. -/
def Note.isWork : Note → Bool
  | .arrived _ => false
  | _ => true

/-- The behavior after a delivery. -/
def Outcome.successor (behavior : Value) : Outcome → Bool → Value
  | .become v, true => v
  | _, _ => behavior

namespace Actor

/-- Whether a delivery that has finished is committed. -/
def commits (w : World) (d : Delivery) (outcome : Outcome) : Bool :=
  !decide (outcome = .fail ∨ (w.store.transaction d.transaction).isFailed)

/-- `Actor.serve`, taking notes. -/
def serveNoted (moment : Moment) :
    List Value → Actor → World → Response (List Note × Actor × World)
  | [], a, w => .done ([], { a with current := none, backlog := [] }, w)
  | message :: backlog, a, w =>
    match a.start moment message w with
    | (d, w) =>
      (d.advance w).bind fun (d, w) =>
        match d.task.answer? with
        | none => .done ([.started a.behavior message], { a with current := some d, backlog }, w)
        | some outcome =>
          (a.settle moment.self d outcome w).bind fun (a', w') =>
            (serveNoted moment backlog a' w').bind fun (notes, r) =>
              .done (.started a.behavior message ::
                .settled d.message outcome (commits w d outcome) :: notes, r)

/-- `Actor.drain`, taking notes. -/
def drainNoted (a : Actor) (moment : Moment) (w : World) : Response (List Note × Actor × World) :=
  match a.current with
  | none => serveNoted moment a.backlog a w
  | some d =>
    (d.advance w).bind fun (d, w) =>
      match d.task.answer? with
      | none => .done ([], { a with current := some d }, w)
      | some outcome =>
        (a.settle moment.self d outcome w).bind fun (a', w') =>
          (serveNoted moment a'.backlog a' w').bind fun (notes, r) =>
            .done (.settled d.message outcome (commits w d outcome) :: notes, r)

variable {moment : Moment}

lemma run_serveNoted (messages : List Value) (a : Actor) (w : World) (s : Stage) :
    ((serveNoted moment messages a w).run s).1.2 = ((serve moment messages a w).run s).1 ∧
      ((serveNoted moment messages a w).run s).2 = ((serve moment messages a w).run s).2 := by
  induction messages generalizing a w s with
  | nil => exact ⟨rfl, rfl⟩
  | cons message messages ih =>
    rw [serveNoted, serve, run_bind, run_bind]
    generalize ((a.start moment message w).1.advance (a.start moment message w).2).run s = r
    obtain ⟨⟨d, w1⟩, s1⟩ := r
    dsimp only
    cases d.task.answer? with
    | none => exact ⟨rfl, rfl⟩
    | some outcome =>
      dsimp only
      rw [run_bind, run_bind, run_bind]
      exact ih ..

/-- Taking notes changes nothing. -/
theorem run_drainNoted (a : Actor) (moment : Moment) (w : World) (s : Stage) :
    ((a.drainNoted moment w).run s).1.2 = ((a.drain moment w).run s).1 ∧
      ((a.drainNoted moment w).run s).2 = ((a.drain moment w).run s).2 := by
  unfold drainNoted drain
  cases a.current with
  | none => exact run_serveNoted ..
  | some d =>
    dsimp only
    rw [run_bind, run_bind]
    generalize (d.advance w).run s = r
    obtain ⟨⟨d', w1⟩, s1⟩ := r
    dsimp only
    cases d'.task.answer? with
    | none => exact ⟨rfl, rfl⟩
    | some outcome =>
      dsimp only
      rw [run_bind, run_bind, run_bind]
      exact run_serveNoted ..

end Actor

/-! ### One message at a time -/

/-- The notes on an actor, with its present behavior, the message that is being delivered and those
that wait. -/
inductive Serial : List Note → Value → Option Value → List Value → Prop where
  | new (behavior : Value) : Serial [] behavior none []
  | arrived {notes : List Note} {behavior : Value} {current : Option Value} {backlog : List Value}
      (before : Serial notes behavior current backlog) (message : Value) :
      Serial (notes ++ [.arrived message]) behavior current (backlog ++ [message])
  | started {notes : List Note} {behavior message : Value} {backlog : List Value}
      (before : Serial notes behavior none (message :: backlog)) :
      Serial (notes ++ [.started behavior message]) behavior (some message) backlog
  | settled {notes : List Note} {behavior message : Value} {backlog : List Value}
      (before : Serial notes behavior (some message) backlog) (outcome : Outcome)
      (committed : Bool) :
      Serial (notes ++ [.settled message outcome committed]) (outcome.successor behavior committed)
        none backlog

/-- The notes are right for the actor, and no message waits but behind a delivery that waits. -/
structure Actor.InOrder (a : Actor) (notes : List Note) : Prop where
  serial : Serial notes a.behavior (a.current.map (·.message)) a.backlog
  busy : a.backlog ≠ [] → a.current ≠ none

/-- There are no notes on an actor without messages. -/
lemma Actor.InOrder.of_fresh (h : a.current = none ∧ a.backlog = []) : a.InOrder [] := by
  refine ⟨?_, fun hne => absurd h.2 hne⟩
  rw [h.1, h.2]
  exact .new a.behavior

namespace Actor

variable {moment : Moment} {notes : List Note}

/-- A run of a delivery keeps its message. -/
lemma message_advance (d : Delivery) (w : World) (s : Stage) :
    ((d.advance w).run s).1.1.message = d.message := by
  cases hrun : d.task.advance w.fuel { w.store with ids := ⟨s.ids.issued⟩ } with
  | none => rw [Delivery.run_advance_none hrun]
  | some r => rw [Delivery.run_advance hrun]

/-- The behavior and the backlog after a delivery was settled. -/
lemma behavior_settle (a : Actor) (self : ActorId) (d : Delivery) (outcome : Outcome) (w : World)
    (s : Stage) :
    ((a.settle self d outcome w).run s).1.1.behavior =
      outcome.successor a.behavior (commits w d outcome) := by
  rcases failed_or_gathered outcome
    (w.store.transaction d.transaction) with hfailed | ⟨e, he, hsound⟩
  · obtain ⟨wakeups, -, hrun⟩ := run_settle_failed a self hfailed s
    have hcommits : commits w d outcome = false := by simp [commits, hfailed]
    rw [hrun, hcommits]
    cases outcome <;> rfl
  · obtain ⟨wakeups, -, hrun⟩ := run_settle_committed a self he hsound s
    have hcommits : commits w d outcome = true := by
      simp [commits, he, hsound, Transaction.isFailed]
    rw [hrun, hcommits]
    cases outcome <;> rfl

lemma inOrder_serve (moment : Moment) (messages : List Value) :
    ∀ {a : Actor} {w : World} {notes : List Note} (s : Stage),
      Serial notes a.behavior none messages →
        ((serveNoted moment messages a w).run s).1.2.1.InOrder
          (notes ++ ((serveNoted moment messages a w).run s).1.1) := by
  induction messages with
  | nil =>
    intro a w notes s h
    refine ⟨?_, fun hne => absurd rfl hne⟩
    rwa [serveNoted, Script.run, append_nil]
  | cons message messages ih =>
    intro a w notes s h
    have hmessage := message_advance (a.start moment message w).1 (a.start moment message w).2 s
    rw [serveNoted, run_bind]
    generalize ((a.start moment message w).1.advance (a.start moment message w).2).run s = r
      at hmessage ⊢
    obtain ⟨⟨d, w1⟩, s1⟩ := r
    have hd : d.message = message := hmessage
    dsimp only
    cases hanswer : d.task.answer? with
    | none =>
      refine ⟨?_, fun _ => some_ne_none _⟩
      change Serial (notes ++ [.started a.behavior message]) a.behavior (some d.message) messages
      rw [hd]
      exact h.started
    | some outcome =>
      dsimp only
      have hbehavior := behavior_settle a moment.self d outcome w1 s1
      rw [run_bind, run_bind]
      generalize (a.settle moment.self d outcome w1).run s1 = r at hbehavior ⊢
      obtain ⟨⟨a', w2⟩, s2⟩ := r
      have hserial : Serial (notes ++ [.started a.behavior message] ++
          [.settled d.message outcome (commits w1 d outcome)]) a'.behavior none messages := by
        rw [show a'.behavior = _ from hbehavior, hd]
        exact h.started.settled outcome _
      have hrest := ih (w := w2) s2 hserial
      simp only [append_assoc, cons_append, nil_append] at hrest
      exact hrest

/-- Running an actor. -/
theorem inOrder_drain (moment : Moment) (s : Stage)
    (h : Serial notes a.behavior (a.current.map (·.message)) a.backlog) :
    ((a.drainNoted moment w).run s).1.2.1.InOrder
      (notes ++ ((a.drainNoted moment w).run s).1.1) := by
  unfold drainNoted
  cases hcurrent : a.current with
  | none =>
    rw [hcurrent] at h
    exact inOrder_serve moment a.backlog s h
  | some d =>
    rw [hcurrent] at h
    dsimp only
    have hmessage := message_advance d w s
    rw [run_bind]
    generalize (d.advance w).run s = r at hmessage ⊢
    obtain ⟨⟨d', w1⟩, s1⟩ := r
    have hd : d'.message = d.message := hmessage
    dsimp only
    cases hanswer : d'.task.answer? with
    | none =>
      refine ⟨?_, fun _ => some_ne_none _⟩
      change Serial (notes ++ []) a.behavior (some d'.message) a.backlog
      rwa [hd, append_nil]
    | some outcome =>
      dsimp only
      have hbehavior := behavior_settle a moment.self d' outcome w1 s1
      have hbacklog := (settle_keeps a moment.self d' outcome w1 s1).1
      rw [run_bind, run_bind]
      generalize (a.settle moment.self d' outcome w1).run s1 = r at hbehavior hbacklog ⊢
      obtain ⟨⟨a', w2⟩, s2⟩ := r
      have hserial : Serial (notes ++ [.settled d'.message outcome (commits w1 d' outcome)])
          a'.behavior none a'.backlog := by
        rw [show a'.behavior = _ from hbehavior, show a'.backlog = _ from hbacklog, hd]
        exact h.settled outcome _
      have hrest := inOrder_serve moment a'.backlog (w := w2) s2 hserial
      simp only [append_assoc, cons_append, nil_append] at hrest
      exact hrest

end Actor

/-! ### The notes in a session -/

namespace Configuration

variable {s : Stage} {id : ActorId}

/-- The notes of a program that responds to a message, or is resumed. -/
def notesOf (c : Ensemble) (id : ActorId) (message : Option Value) :
    List Note :=
  match c.find? id with
  | some ⟨_, .program a⟩ =>
    message.toList.map .arrived ++ ((Actor.drainNoted
      { a with backlog := a.backlog ++ message.toList } ⟨id, c.clock.now⟩ c.world).run
        c.toScheduler).1.1
  | _ => []

/-- The notes that one dispatch takes on an actor. -/
def notes (c : Ensemble) (id : ActorId) : List Note :=
  match c.wakeups.pop? with
  | some (id', wakeups) =>
    if id' = id then (c.modify fun s => { s with wakeups }).notesOf id none else []
  | none =>
    match c.queue.pop? with
    | some (⟨target, message⟩, queue) =>
      if target = id then
        (c.modify fun s =>
          { s with
            queue
            journal := s.journal.record s.clock.now (.delivered target) }).notesOf id (some message)
      else []
    | none => []

/-- The notes on an actor are right: on a program they are in order, and of others there are
none. -/
def Noted (s : Stage) (id : ActorId) (notes : List Note) : Prop :=
  match s.find? id with
  | some ⟨_, .program a⟩ => a.InOrder notes
  | _ => notes = []

lemma noted_of_program {name : String} {notes : List Note}
    (found : s.find? id = some ⟨name, .program a⟩) : Noted s id notes ↔ a.InOrder notes := by
  unfold Noted
  rw [found]

lemma noted_of_service {e : Entry Performer} {notes : List Note} (found : s.find? id = some e)
    (hp : ∀ a, e.behavior ≠ .program a) : Noted s id notes ↔ notes = [] := by
  obtain ⟨name, p⟩ := e
  unfold Noted
  rw [found]
  cases p with
  | program a => exact absurd rfl (hp a)
  | _ => exact Iff.rfl

lemma noted_of_none {notes : List Note} (found : s.find? id = none) :
    Noted s id notes ↔ notes = [] := by
  unfold Noted
  rw [found]

/-- The notes on actors that are left alone stay right. -/
lemma Noted.onward {s' : Stage} {notes : List Note} (h : Noted s id notes)
    (onward : s.Onward Performer.Fresh s') : Noted s' id notes := by
  cases hfound : s.find? id with
  | some e =>
    unfold Noted at h ⊢
    rwa [onward.kept id e hfound, ← hfound]
  | none =>
    rw [noted_of_none hfound] at h
    subst h
    cases hfound' : s'.find? id with
    | none => exact (noted_of_none hfound').2 rfl
    | some e =>
      have hfresh := onward.joined id e hfound hfound'
      obtain ⟨name, p⟩ := e
      cases p with
      | program a => exact (noted_of_program hfound').2 (.of_fresh hfresh)
      | _ => exact (noted_of_service hfound' nofun).2 rfl

/-- A response of an actor, and the notes on all. -/
lemma Noted.invoke {notes : List Note} (h : Noted s id notes) (id' : ActorId)
    (message : Option Value) :
    Noted (invoke ⟨s, w⟩ id' message).toScheduler id
      (notes ++ if id' = id then notesOf ⟨s, w⟩ id message else []) := by
  cases hfound : s.find? id' with
  | none =>
    rw [invoke_of_none message hfound]
    by_cases hid : id' = id
    · subst hid
      have hnone : notesOf ⟨s, w⟩ id' message = [] := by
        unfold notesOf
        rw [show find? (toScheduler ⟨s, w⟩) id' = none from hfound]
      rwa [if_pos rfl, hnone, append_nil]
    · rwa [if_neg hid, append_nil]
  | some e =>
    have honward := (e.behavior.tame_respond ⟨id', s.clock.now⟩ message w).run s
    rw [invoke_of_some message hfound]
    by_cases hid : id' = id
    · subst hid
      rw [if_pos rfl]
      obtain ⟨name, p⟩ := e
      have hfound' := honward.kept id' _ hfound
      by_cases hp : ∃ a, p = .program a
      · obtain ⟨a, rfl⟩ := hp
        dsimp only at hfound' ⊢
        rw [Performer.run_respond_program] at hfound' ⊢
        rw [noted_of_program hfound] at h
        set b : Actor := { a with backlog := a.backlog ++ message.toList } with hb
        obtain ⟨hactor, hscheduler⟩ := b.run_drainNoted ⟨id', s.clock.now⟩ w s
        have hafter : (after id' ((.program ((b.drain ⟨id', s.clock.now⟩ w).run s).1.1,
            ((b.drain ⟨id', s.clock.now⟩ w).run s).1.2),
              ((b.drain ⟨id', s.clock.now⟩ w).run s).2)).toScheduler.find? id' =
            some ⟨name, .program ((b.drain ⟨id', s.clock.now⟩ w).run s).1.1⟩ := by
          rw [after, find?_setBehavior, if_pos rfl]
          dsimp only at hfound' ⊢
          rw [hfound']
          rfl
        rw [noted_of_program hafter]
        have hnotes : notesOf ⟨s, w⟩ id' message = message.toList.map .arrived ++
            ((b.drainNoted ⟨id', s.clock.now⟩ w).run s).1.1 := by
          unfold notesOf
          rw [show find? (toScheduler ⟨s, w⟩) id' = _ from hfound]
        have hserial : Serial (notes ++ message.toList.map .arrived) b.behavior
            (b.current.map (·.message)) b.backlog := by
          cases message with
          | none =>
            simp only [toList_none, map_nil, append_nil, hb]
            exact h.serial
          | some m => exact h.serial.arrived m
        have horder := Actor.inOrder_drain ⟨id', s.clock.now⟩ (w := w) s hserial
        rwa [hnotes, ← append_assoc, ← hactor]
      · rw [not_exists] at hp
        obtain ⟨l, p', w', hserves, _⟩ := p.exists_serves hp ⟨id', s.clock.now⟩ message w
        have hnone : notesOf ⟨s, w⟩ id' message = [] := by
          unfold notesOf
          rw [show find? (toScheduler ⟨s, w⟩) id' = _ from hfound]
          cases p with
          | program a => exact absurd rfl (hp a)
          | _ => rfl
        rw [noted_of_service hfound hp] at h
        rw [hnone, h]
        dsimp only at hfound' ⊢
        rw [hserves.run] at hfound' ⊢
        have hafter : (after id' ((p', w'), l.foldl post s)).toScheduler.find? id' =
            some ⟨name, p'⟩ := by
          rw [after, find?_setBehavior, if_pos rfl, hfound']
          rfl
        exact (noted_of_service hafter hserves.service).2 rfl
    · rw [if_neg hid, append_nil]
      have hafter : ∀ (r : (Performer × World) × Stage),
          Noted r.2 id notes → Noted (after id' r).toScheduler id notes := by
        intro r hr
        unfold Noted at hr ⊢
        rwa [after, find?_setBehavior, if_neg (Ne.symm hid)]
      exact hafter _ (h.onward honward)

lemma Noted.dispatch {c : Ensemble} {notes : List Note} (h : Noted c.toScheduler id notes) :
    Noted c.dispatch.2.toScheduler id (notes ++ c.notes id) := by
  obtain ⟨s, w⟩ := c
  unfold Configuration.dispatch Configuration.notes
  cases hwake : s.wakeups.pop? with
  | some x =>
    obtain ⟨id', wakeups⟩ := x
    exact Noted.invoke (s := { s with wakeups }) h id' none
  | none =>
    cases hqueue : s.queue.pop? with
    | some x =>
      obtain ⟨⟨target, message⟩, queue⟩ := x
      exact Noted.invoke (s := { s with
        queue
        journal := s.journal.record s.clock.now (.delivered target) }) h target (some message)
    | none =>
      rwa [append_nil]

end Configuration

namespace Session

variable {x : Session} {id : ActorId} {notes : List Note}

/-- The notes on an actor in the course of a session. The host may do all that it may do in
`Session.Reachable`; notes are taken by the dispatches. -/
inductive Chronicle (id : ActorId) : Session → List Note → Prop where
  | start {x : Session} (fresh : x.Fresh) : Chronicle id x []
  | host {x : Session} {notes : List Note} (before : Chronicle id x notes)
      {s : Stage} (heap : Heap) (registry : s.registry = x.config.registry)
      (ids : x.config.ids.issued ≤ s.ids.issued) : Chronicle id (x.host s heap) notes
  | bind {x : Session} {notes : List Note} (before : Chronicle id x notes) (name : String)
      (v : Value) (env : Env) : Chronicle id (x.bind name v env).2 notes
  | register {x : Session} {notes : List Note} (before : Chronicle id x notes) {p : Performer}
      (fresh : p.Fresh) (name : String) : Chronicle id (x.register p name) notes
  | evaluate {x : Session} {notes : List Note} (before : Chronicle id x notes) (e : Expr)
      (alive : (x.evaluate e).2.config.world.exhausted = false) :
      Chronicle id (x.evaluate e).2 notes
  | dispatch {x : Session} {notes : List Note} (before : Chronicle id x notes)
      (alive : x.config.dispatch.2.world.exhausted = false) :
      Chronicle id { x with config := x.config.dispatch.2 } (notes ++ x.config.notes id)

lemma Chronicle.reachable (h : Chronicle id x notes) : x.Reachable := by
  induction h with
  | start fresh => exact .start fresh
  | host _ heap registry ids ih => exact .host ih heap registry ids
  | bind _ name v env ih => exact .bind ih name v env
  | register _ fresh name ih => exact .register ih fresh name
  | evaluate _ e alive ih => exact .evaluate ih e alive
  | dispatch _ alive ih => exact .dispatch ih alive

lemma Regular.onward_register (h : x.Regular) {p : Performer} (fresh : p.Fresh) (name : String) :
    x.config.toScheduler.Onward Performer.Fresh (x.register p name).config.toScheduler := by
  obtain ⟨own, h⟩ := h
  have hreserve : x.config.toScheduler.Onward Performer.Fresh x.config.reserve.2 :=
    .of_eq rfl prefix_rfl
  refine hreserve.trans (.register _ name ?_ fresh)
  -- a registered address was issued earlier
  refine eq_none_iff_forall_ne_some.2 fun e he => ?_
  exact Nat.not_succ_le_self _ (h.registered _ e (mem_of_find? he)).1

lemma onward_evaluate (x : Session) (e : Expr) :
    x.config.toScheduler.Onward Performer.Fresh (x.evaluate e).2.config.toScheduler := by
  obtain ⟨⟨s, store, output, traces, fuel, exhausted⟩, global, top, logger⟩ := x
  unfold Session.evaluate
  dsimp only
  split
  · exact .of_eq rfl prefix_rfl
  · rename_i task store' _
    have hids : s.Onward Performer.Fresh { s with ids := store'.ids } := .of_eq rfl prefix_rfl
    split
    · exact hids
    · exact hids.trans (((tame_register ..).bind fun _ => tame_sendAll _).run _)

/-- The notes on an actor are right. -/
theorem Chronicle.noted (h : Chronicle id x notes) : Noted x.config.toScheduler id notes := by
  induction h with
  | @start x fresh =>
    cases hfound : x.config.find? id with
    | none => exact (noted_of_none hfound).2 rfl
    | some e =>
      have he := (fresh.actors id e (mem_of_find? hfound)).2
      obtain ⟨name, p⟩ := e
      cases p with
      | program a => exact (noted_of_program hfound).2 (.of_fresh he)
      | _ => exact (noted_of_service hfound nofun).2 rfl
  | @host x notes before s heap registry ids ih =>
    unfold Configuration.Noted Scheduler.find? at ih ⊢
    rwa [show (x.host s heap).config.registry = x.config.registry from registry]
  | @bind x notes before name v env ih =>
    obtain ⟨⟨s, w⟩, global, top, logger⟩ := x
    exact ih.onward ((World.tame_passWakeups _).run s)
  | register before fresh name ih =>
    exact ih.onward (before.reachable.regular.onward_register fresh name)
  | evaluate before e alive ih => exact ih.onward (onward_evaluate _ e)
  | dispatch before alive ih => exact ih.dispatch

end Session

/-! ### Handled messages -/

/-- A delivery from its start to its end. -/
structure Handling where
  behavior : Value
  message : Value
  outcome : Outcome
  committed : Bool

namespace Handling

/-- The notes on a delivery. -/
def notes (r : Handling) : List Note :=
  [.started r.behavior r.message, .settled r.message r.outcome r.committed]

/-- The behavior after a delivery: what it became, if it was committed. -/
def next (r : Handling) : Value := r.outcome.successor r.behavior r.committed

/-- Each delivery has the behavior that the one before has left. -/
def Chained (first : Value) : List Handling → Value → Prop
  | [], last => first = last
  | r :: handled, last => r.behavior = first ∧ Chained r.next handled last

lemma Chained.concat {first last : Value} {handled : List Handling}
    (h : Chained first handled last) (r : Handling) (hr : r.behavior = last) :
    Chained first (handled ++ [r]) r.next := by
  induction handled generalizing first with
  | nil => exact ⟨hr.trans h.symm, rfl⟩
  | cons r' handled ih => exact ⟨h.1, ih h.2⟩

end Handling

/-- Serial notes are made of the deliveries that were settled, one after the other, and
the start of the current one. The messages are those that were settled, the current one, and those
that wait, in the order in which they arrived. -/
theorem Serial.handled {notes : List Note} {behavior : Value} {current : Option Value}
    {backlog : List Value} (h : Serial notes behavior current backlog) :
    ∃ first handled, notes.filter Note.isWork =
        handled.flatMap Handling.notes ++ current.toList.map (.started behavior) ∧
      notes.filterMap Note.arrival? = handled.map Handling.message ++ current.toList ++ backlog ∧
      Handling.Chained first handled behavior := by
  induction h with
  | new behavior => exact ⟨behavior, [], rfl, rfl, rfl⟩
  | @arrived notes behavior current backlog _ message ih =>
    obtain ⟨first, handled, hwork, harrivals, hchained⟩ := ih
    refine ⟨first, handled, ?_, ?_, hchained⟩
    · rw [filter_append, hwork]
      exact append_nil _
    · rw [filterMap_append, harrivals]
      exact append_assoc ..
  | @started notes behavior message backlog _ ih =>
    obtain ⟨first, handled, hwork, harrivals, hchained⟩ := ih
    refine ⟨first, handled, ?_, ?_, hchained⟩
    · rw [filter_append, hwork]
      simp [Note.isWork]
    · rw [filterMap_append, harrivals]
      simp [Note.arrival?]
  | @settled notes behavior message backlog _ outcome committed ih =>
    obtain ⟨first, handled, hwork, harrivals, hchained⟩ := ih
    set r : Handling := ⟨behavior, message, outcome, committed⟩
    refine ⟨first, handled ++ [r], ?_, ?_, hchained.concat r rfl⟩
    · rw [filter_append, hwork]
      simp [Note.isWork, Handling.notes, r]
    · rw [filterMap_append, harrivals]
      simp [Note.arrival?, r]

namespace Session

/-- Actors take one message at a time, in every session and however messages and wake-ups come. What
is noted on an actor, next to the messages that arrive, are the deliveries that were settled, each
started and then settled, and at last the start of the one that waits. Their messages, and behind
them those that wait to be delivered, are all that have arrived, in this order. The behavior of a
delivery is what the one before has become, or the same again. No message waits but behind a
delivery that waits. -/
theorem serialized {x : Session} {id : ActorId} {notes : List Note} {name : String} {a : Actor}
    (chronicle : Chronicle id x notes) (found : x.config.find? id = some ⟨name, .program a⟩) :
    (∃ first handled, notes.filter Note.isWork =
        handled.flatMap Handling.notes ++ (a.current.map (·.message)).toList.map
        (.started a.behavior) ∧
      notes.filterMap Note.arrival? =
        handled.map Handling.message ++ (a.current.map (·.message)).toList ++ a.backlog ∧
      Handling.Chained first handled a.behavior) ∧
    (a.backlog ≠ [] → a.current ≠ none) ∧
    ∀ (b : Actor) moment w s, ((b.drainNoted moment w).run s).1.2 = ((b.drain moment w).run s).1 ∧
      ((b.drainNoted moment w).run s).2 = ((b.drain moment w).run s).2 := by
  have horder := (Configuration.noted_of_program found).1 chronicle.noted
  exact ⟨horder.serial.handled, horder.busy, Actor.run_drainNoted⟩

/-- A session whose top-level actor is handed a block that waits for its variable, and another
message. -/
def crowded : Session :=
  let x := ofSettings {} 40
  x.host { x.config.toScheduler with
      queue := (x.config.queue.push ⟨x.top, .block 0⟩).push ⟨x.top, .nil⟩ }
    (x.config.world.store.heap.newBlock
      ⟨[], .expr (.block ["x"] (.send (.ident "x") (.ident "println"))), x.global⟩).2

/-- The first message. -/
def crowdedOnce : Session := { crowded with config := crowded.config.dispatch.2 }

/-- Both messages have arrived. -/
def crowdedTwice : Session := { crowdedOnce with config := crowdedOnce.config.dispatch.2 }

theorem crowdedTwice_serialized : ∃ notes name a, Chronicle ⟨6⟩ crowdedTwice notes ∧
    crowdedTwice.config.find? ⟨6⟩ = some ⟨name, .program a⟩ ∧ a.backlog = [.nil] ∧
    a.current ≠ none ∧
    ∃ handled : List Handling, notes.filterMap Note.arrival? =
      handled.map Handling.message ++ (a.current.map (·.message)).toList ++ a.backlog := by
  have hcrowded : Chronicle ⟨6⟩ crowded [] := .host (.start (.ofSettings {} 40)) _ rfl le_rfl
  have honce : Chronicle ⟨6⟩ crowdedOnce _ := .dispatch hcrowded (by decide +kernel)
  have htwice : Chronicle ⟨6⟩ crowdedTwice _ := .dispatch honce (by decide +kernel)
  have hwaits : ((crowdedTwice.config.find? ⟨6⟩).any fun e =>
      e.behavior.program?.any fun a => decide (a.backlog = [.nil])) = true := by decide +kernel
  obtain ⟨⟨name, p⟩, hfound, hp⟩ := (Option.any_eq_true _ _).1 hwaits
  cases p with
  | program a =>
    have hbacklog : a.backlog = [.nil] := of_decide_eq_true hp
    obtain ⟨⟨first, handled, _, harrivals, _⟩, hbusy, _⟩ := serialized htwice hfound
    exact ⟨_, name, a, htwice, hfound, hbacklog, hbusy (by simp [hbacklog]), handled, harrivals⟩
  | _ => cases hp

end Session

end Troupe
