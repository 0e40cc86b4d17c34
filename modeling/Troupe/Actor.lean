import Troupe.Rng
import Troupe.Script
import Troupe.Task
import Troupe.Value.Text

/-!
Actors programmed in the language, and the services beside them.

Every message to a program is one transaction: its behavior is applied to the message, the block it
gives is run, and what the block did takes effect at the end or not at all. Messages are taken one
at a time; a delivery that waits for a variable keeps the others waiting behind it.

* `Actor.drain` runs deliveries until one has to wait or none is left.
* `Actor.settle` commits or reverts a delivery that has finished, and reports it to the logger.
-/

namespace Troupe

/-- A message in progress. -/
structure Delivery where
  message : Value
  transaction : Nat
  task : Task .outcome

/-- An actor programmed in the language. -/
structure Actor where
  behavior : Value
  /-- The environment it was created in. -/
  env : Env
  /-- Who gets a report of every delivery. -/
  logger : Option ActorId
  /-- The variables of its blocks become definitions. -/
  exports : Bool := false
  /-- The delivery that waits. -/
  current : Option Delivery := none
  /-- The messages behind it, oldest first. -/
  backlog : List Value := []

/-- How an actor of a session behaves. -/
inductive Performer where
  /-- Takes every message and does nothing. -/
  | sink
  /-- Prints every message. -/
  | println
  /-- Keeps every report. -/
  | logger
  /-- Takes a delay, a message and an actor, and sends the message after the delay. -/
  | timer
  /-- Takes an actor and a range, and sends the actor a number below it. -/
  | random (rng : Rng)
  | program (actor : Actor)

/-- What the actors of a session share. -/
structure World where
  store : Store := {}
  /-- The lines printed so far. -/
  output : Array String := #[]
  /-- The reports kept so far. -/
  traces : Array Value := #[]
  /-- How many nested steps one run of a task may take. -/
  fuel : Nat
  /-- A task has run out of fuel; the store was given up with it. -/
  exhausted : Bool := false

/-- What a response of an actor is made of. -/
abbrev Response := Script Value Performer

/-- The scheduler of a session. -/
abbrev Stage := Scheduler Value Performer

/-! ### Requests in groups -/

/-- Takes the next `n` addresses. -/
def Script.reserveAll {M B : Type} : Nat → Script M B Unit
  | 0 => .done ()
  | n + 1 => .reserve fun _ => Script.reserveAll n

/-- Asks for actors to be resumed. -/
def Script.wakeAll {M B : Type} : List ActorId → Script M B Unit
  | [] => .done ()
  | id :: ids => .wake id (Script.wakeAll ids)

/-- Registers new actors; an address that is taken is passed over. -/
def Script.register (logger : Option ActorId) : List StagedActor → Response Unit
  | [] => .done ()
  | a :: rest =>
    .createReserved a.id (.program { behavior := a.behavior, env := a.env, logger }) a.name fun _ =>
      Script.register logger rest

/-- Sends messages; those to no one are dropped. -/
def Script.sendAll {B : Type} : List PendingSend → Script Value B Unit
  | [] => .done ()
  | ⟨message, target, none⟩ :: rest => .send message target fun _ => Script.sendAll rest
  | ⟨message, target, some delay⟩ :: rest =>
    .sendAfter delay message target fun _ => Script.sendAll rest

/-- What was sent and created, as a report. -/
def Effects.report (e : Effects) : Value :=
  .pair (.list (e.sends.toList.map fun x => .pair x.message (.actor x.target)))
    (.list (e.created.toList.map fun a => .actor a.id))

/-- Lets effects take place: first the new actors, then the sends. -/
def Effects.flush (e : Effects) (logger : Option ActorId) : Response Unit := do
  Script.register logger e.created.toList
  Script.sendAll e.sends.toList

/-! ### Deliveries -/

/-- Passes the wake-ups that were asked for in the store on to the configuration. -/
def World.passWakeups : World → Response World
  | ⟨store, output, traces, fuel, exhausted⟩ =>
    let wakeups := store.wakeups.toList
    let store := { store with wakeups := #[] }
    (Script.wakeAll wakeups).bind fun _ => .done ⟨store, output, traces, fuel, exhausted⟩

/-- Runs a delivery until it has finished or waits. -/
def Delivery.advance (d : Delivery) : World → Response (Delivery × World)
  | ⟨store, output, traces, fuel, exhausted⟩ =>
    .issued fun issued =>
      match d.task.advance fuel { store with ids := ⟨issued⟩ } with
      | none => .done (d, ⟨{}, output, traces, fuel, true⟩)
      | some (task, store) =>
        let fresh := store.ids.issued - issued
        (Script.reserveAll fresh).bind fun _ =>
          (World.passWakeups ⟨store, output, traces, fuel, exhausted⟩).bind fun w =>
            .done ({ d with task }, w)

namespace Actor

/-- Begins the delivery of a message. -/
def start (a : Actor) (moment : Moment) (message : Value) : World → Delivery × World
  | ⟨store, output, traces, fuel, exhausted⟩ =>
    let (transaction, store) := store.newTransaction
    let job := Job.deliver a.behavior message moment.self a.exports ⟨a.env, 0⟩
    let (task, store) := Task.spawn store moment.self false transaction moment.now (.start job)
    (⟨message, transaction, task⟩, ⟨store, output, traces, fuel, exhausted⟩)

/-- Sets the definitions of a transaction. -/
def setDefinitions (env : Env) (defines : List (String × Value)) (s : Store) : Store :=
  defines.foldl (fun s (name, v) => (s.onHeap (·.define name v env)).2) s

/-- Sends a report of a delivery to the logger. -/
def report (a : Actor) (self : ActorId) (message result : Value) : Response Unit :=
  match a.logger with
  | none => .done ()
  | some logger => .send (.pair (.pair message (.actor self)) result) logger fun _ => .done ()

/-- The behavior after a delivery with an outcome. -/
def next (a : Actor) : Outcome → Actor
  | .become behavior => { a with behavior }
  | _ => a

/-- Commits a delivery: definitions, new actors, sends. -/
def commit (a : Actor) (d : Delivery) (outcome : Outcome) : World → Response (Value × Actor × World)
  | ⟨store, output, traces, fuel, exhausted⟩ =>
    let a := a.next outcome
    let (effects, store) := store.onTransaction d.transaction (·.commit)
    let store := setDefinitions a.env effects.defines.toList store
    (effects.flush a.logger).bind fun _ =>
      .done (effects.report, a, ⟨store, output, traces, fuel, exhausted⟩)

/-- Reverts a delivery: nothing happens but the report of the exception. -/
def revert (a : Actor) (d : Delivery) : World → Response (Value × Actor × World)
  | ⟨store, output, traces, fuel, exhausted⟩ =>
    let (exception, store) := store.onTransaction d.transaction (·.revert)
    .done (.pair (.symbol "exception") (exception.getD .undefined), a,
      ⟨store, output, traces, fuel, exhausted⟩)

/-- Ends the task of a delivery. -/
def closeTask (d : Delivery) : World → World
  | ⟨store, output, traces, fuel, exhausted⟩ =>
    ⟨store.close d.task.context.task, output, traces, fuel, exhausted⟩

/-- Commits or reverts a delivery that has finished and reports it. -/
def settle (a : Actor) (self : ActorId) (d : Delivery) (outcome : Outcome) (w : World) :
    Response (Actor × World) := do
  let failed := outcome = .fail ∨ (w.store.transaction d.transaction).isFailed
  let (result, a, w) ← if failed then a.revert d w else a.commit d outcome w
  a.report self d.message result
  let w ← (closeTask d w).passWakeups
  return (a, w)

/-- Takes messages one after the other until one has to wait or none is left. -/
def serve (moment : Moment) : List Value → Actor → World → Response (Actor × World)
  | [], a, w => .done ({ a with current := none, backlog := [] }, w)
  | message :: backlog, a, w =>
    match a.start moment message w with
    | (d, w) =>
      (d.advance w).bind fun (d, w) =>
        match d.task.answer? with
        | none => .done ({ a with current := some d, backlog }, w)
        | some outcome =>
          (a.settle moment.self d outcome w).bind fun (a, w) => serve moment backlog a w

/-- Runs deliveries, the one that waits first, until one has to wait or none is left. -/
def drain (a : Actor) (moment : Moment) (w : World) : Response (Actor × World) :=
  match a.current with
  | none => serve moment a.backlog a w
  | some d =>
    (d.advance w).bind fun (d, w) =>
      match d.task.answer? with
      | none => .done ({ a with current := some d }, w)
      | some outcome =>
        (a.settle moment.self d outcome w).bind fun (a, w) => serve moment a.backlog a w

end Actor

/-! ### All performers -/

namespace Performer

/-- Answers a request for a delayed send. -/
def serveTimer (request : Value) : Response Unit :=
  match request with
  | .pair delay (.pair message (.actor target)) =>
    match delay.natural? with
    | some ms => .sendAfter ms message target fun _ => .done ()
    | none => .done ()
  | _ => .done ()

/-- Answers a request for a random number. An ill-formed request draws none. -/
def serveRandom (rng : Rng) (request : Value) : Response Rng :=
  match request with
  | .pair (.actor customer) range =>
    match range.natural? with
    | some range =>
      match rng.below (UInt64.ofNat range) with
      | (some n, rng) =>
        match Value.ofInt? n.toNat with
        | some v => .send v customer fun _ => .done rng
        | none => .done rng
      | (none, rng) => .done rng
    | none => .done rng
  | _ => .done rng

/-- Takes one message. -/
def receive (p : Performer) (moment : Moment) (message : Value) (w : World) :
    Response (Performer × World) :=
  match p with
  | sink => .done (sink, w)
  | println => .done (println, { w with output := w.output.push message.text })
  | logger => .done (logger, { w with traces := w.traces.push message })
  | timer => (serveTimer message).bind fun _ => .done (timer, w)
  | random rng => (serveRandom rng message).bind fun rng => .done (random rng, w)
  | program a =>
    (Actor.drain { a with backlog := a.backlog ++ [message] } moment w).bind fun (a, w) =>
      .done (program a, w)

/-- Continues what waited; only programs wait. -/
def resume (p : Performer) (moment : Moment) (w : World) : Response (Performer × World) :=
  match p with
  | program a => (a.drain moment w).bind fun (a, w) => .done (program a, w)
  | p => .done (p, w)

end Performer

instance : Behavior Value Performer World where
  receive := Performer.receive
  resume := Performer.resume

end Troupe
