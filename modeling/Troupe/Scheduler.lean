import Troupe.Fifo
import Troupe.Journal

/-!
The scheduler: who is registered, which messages wait on the queue and on the timers, who asked to
be resumed, and the clock, run state, journal and address counter beside them.

Nothing here runs a behavior: these are the operations that a host and a running behavior share.
A refused request answers a `Fault` and no scheduler, so it cannot change anything.

* `Scheduler.send`, `Scheduler.sendAfter`, `Scheduler.create`, `Scheduler.createReserved`
* `Scheduler.advance`: moves time and releases the timers that are due
* `Scheduler.skipAhead`: with nothing pending, jumps to the next due times
-/

namespace Troupe

/-- A message and the actor it is for. -/
structure Envelope (M : Type) where
  target : ActorId
  message : M

/-- A message that waits for the clock. -/
structure Timer (M : Type) where
  due : Millis
  /-- Timers with one due time are released in the order of these numbers. -/
  seq : Nat
  envelope : Envelope M

/-- A timer is released no later than another if it is due earlier, or at the same time with a
number that is not greater. -/
def Timer.le {M : Type} (a b : Timer M) : Bool := a.due < b.due || (a.due == b.due && a.seq ≤ b.seq)

/-- A registered actor. Its behavior stays here while it runs: no request of a running behavior
reads behaviors, runs do not nest, and the next behavior takes its place when the run ends, so no
one could tell whether it had been taken out. -/
structure Entry (B : Type) where
  name : String
  behavior : B

/-- The state of a scheduler for messages `M` and behaviors `B`. -/
structure Scheduler (M B : Type) where
  settings : Settings
  /-- The registered actors, in the order of their registration. -/
  registry : List (ActorId × Entry B) := []
  queue : Fifo (Envelope M) := {}
  /-- Sorted by due time and number. -/
  timers : List (Timer M) := []
  /-- The number of the next timer. -/
  timerSeq : Nat := 0
  clock : Clock := {}
  state : RunState := .halted
  ids : IdSource := {}
  /-- Actors that asked to be resumed. -/
  wakeups : Fifo ActorId := {}
  journal : Journal

namespace Scheduler

variable {M B : Type}

/-- A scheduler at time zero without actors. -/
def ofSettings (settings : Settings) : Scheduler M B :=
  { settings, journal := { settings := settings.journal } }

/-! ### The registry -/

/-- The entry of an actor. -/
def find? (s : Scheduler M B) (id : ActorId) : Option (Entry B) := s.registry.lookup id

/-- Whether an address names a registered actor. -/
def contains (s : Scheduler M B) (id : ActorId) : Bool := (s.find? id).isSome

/-- Puts an entry in the place of the one with the same address, or behind all others. -/
def enter (id : ActorId) (e : Entry B) : List (ActorId × Entry B) → List (ActorId × Entry B)
  | [] => [(id, e)]
  | (id', e') :: rest => if id' = id then (id, e) :: rest else (id', e') :: enter id e rest

/-- Registers an actor and records it. -/
def register (s : Scheduler M B) (id : ActorId) (behavior : B) (name : String) : Scheduler M B :=
  { s with
    journal := s.journal.record s.clock.now (.created id name)
    registry := enter id ⟨name, behavior⟩ s.registry }

/-- Replaces the behavior of an actor, if it is registered. -/
def setBehavior (s : Scheduler M B) (id : ActorId) (behavior : B) : Scheduler M B :=
  { s with
    registry := s.registry.map fun (id', e) => (id', if id' = id then { e with behavior } else e) }

/-- The next address, and the scheduler that has handed it out. -/
def reserve (s : Scheduler M B) : ActorId × Scheduler M B :=
  let (id, ids) := s.ids.next
  (id, { s with ids })

/-- Registers an actor under a fresh address. -/
def create (s : Scheduler M B) (behavior : B) (name : String) : ActorId × Scheduler M B :=
  let (id, s) := s.reserve
  (id, s.register id behavior name)

/-- Registers an actor under an address reserved earlier. -/
@[inline] def createReserved (s : Scheduler M B) (id : ActorId) (behavior : B) (name : String) :
    Except Fault (Scheduler M B) :=
  if s.contains id then .error (.alreadyRegistered id) else .ok (s.register id behavior name)

/-! ### Sending -/

/-- Stops dispatching until the next send. -/
def pause (s : Scheduler M B) : Scheduler M B := { s with state := s.state.pause }

/-- Continues a paused run. -/
def resume (s : Scheduler M B) : Scheduler M B := { s with state := s.state.resume }

/-- Lets ticks drive the configuration. -/
def run (s : Scheduler M B) (period : Millis) : Scheduler M B := { s with state := .running period }

/-- Lets ticks do nothing. -/
def halt (s : Scheduler M B) : Scheduler M B := { s with state := .halted }

/-- Puts a message on the queue. A send continues a paused run. -/
@[inline] def send (s : Scheduler M B) (message : M) (target : ActorId) :
    Except Fault (Scheduler M B) :=
  if s.contains target then
    .ok (resume
      { s with
        journal := s.journal.record s.clock.now (.sent target)
        queue := s.queue.push ⟨target, message⟩ })
  else .error (.notAnActor target)

/-- Puts a message on the timers. -/
@[inline] def sendAfter (s : Scheduler M B) (delay : Millis) (message : M) (target : ActorId) :
    Except Fault (Scheduler M B) :=
  if s.contains target then
    let due := Millis.after s.clock.now delay
    let timer : Timer M := ⟨due, s.timerSeq, ⟨target, message⟩⟩
    let (earlier, later) := s.timers.span (Timer.le · timer)
    .ok { s with
      timerSeq := s.timerSeq + 1
      journal := s.journal.record s.clock.now (.scheduled due target)
      timers := earlier ++ timer :: later }
  else .error (.notAnActor target)

/-! ### Wake-ups -/

/-- Asks for an actor to be resumed by a later dispatch. -/
def wake (s : Scheduler M B) (id : ActorId) : Scheduler M B :=
  { s with wakeups := s.wakeups.push id }

/-- Takes the oldest wake-up. -/
def takeWakeup (s : Scheduler M B) : Option ActorId × Scheduler M B :=
  match s.wakeups.pop? with
  | some (id, wakeups) => (some id, { s with wakeups })
  | none => (none, s)

/-- Messages and wake-ups that wait to be dispatched. -/
def pending (s : Scheduler M B) : Nat := s.queue.size + s.wakeups.size

/-- No message and no wake-up waits to be dispatched. -/
def isIdle (s : Scheduler M B) : Bool := s.queue.isEmpty && s.wakeups.isEmpty

/-- Messages that wait on the timers. -/
def scheduled (s : Scheduler M B) : Nat := s.timers.length

/-! ### Time -/

/-- Sends the message of a released timer; a message to no one is dropped. -/
def release (s : Scheduler M B) (t : Timer M) : Scheduler M B :=
  match s.send t.envelope.message t.envelope.target with
  | .ok s => s
  | .error _ => s

/-- Releases all timers that are due. -/
def releaseTimers (s : Scheduler M B) : Scheduler M B :=
  let (due, later) := s.timers.span (·.due ≤ s.clock.now)
  due.foldl release { s with timers := later }

/-- Moves time forward by `ms`. -/
def advance (s : Scheduler M B) (ms : Millis) : Scheduler M B :=
  releaseTimers { s with clock := s.clock.advance ms }

/-- Moves time forward to `time`. -/
def advanceTo (s : Scheduler M B) (time : Millis) : Scheduler M B :=
  releaseTimers { s with clock := s.clock.advanceTo time }

/-- Jumps from due time to due time until something is pending or no timer is left. Jumping to a
time that has passed releases nothing, so the due times may be taken from the timers at the start.
-/
def skipAhead (s : Scheduler M B) : Scheduler M B :=
  if s.isIdle then
    s.timers.foldl (fun s t => if s.isIdle then s.advanceTo t.due else s) s
  else s

end Scheduler

end Troupe
