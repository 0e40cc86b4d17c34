import Troupe.Scheduler

/-!
What a running behavior may do.

A `Script` is a program over the requests that a scheduler grants to a running behavior: one request
at a time, each continued with its answer, and a result at the end. Behaviors have no other access
to the scheduler, and a script is finite, so every run of a behavior ends.

* `Script.run` carries a script out; `Script.run_bind`: two scripts in sequence.
* `Behavior` says how the actors of a configuration respond.
-/

namespace Troupe

/-- A program over the requests of a running behavior. -/
inductive Script (M B α : Type) where
  | done (result : α)
  | send (message : M) (target : ActorId) (next : Except Fault Unit → Script M B α)
  | sendAfter (delay : Millis) (message : M) (target : ActorId)
      (next : Except Fault Unit → Script M B α)
  | create (behavior : B) (name : String) (next : ActorId → Script M B α)
  | createReserved (id : ActorId) (behavior : B) (name : String)
      (next : Except Fault Unit → Script M B α)
  /-- The next address. -/
  | reserve (next : ActorId → Script M B α)
  /-- How many addresses were handed out. -/
  | issued (next : Nat → Script M B α)
  /-- Asks for an actor to be resumed. -/
  | wake (id : ActorId) (next : Script M B α)
  /-- Takes the oldest wake-up. -/
  | takeWakeup (next : Option ActorId → Script M B α)
  /-- The number of wake-ups. -/
  | countWakeups (next : Nat → Script M B α)

namespace Script

variable {M B α β : Type}

/-- First one script, then the next with its result. -/
def bind : Script M B α → (α → Script M B β) → Script M B β
  | done a, f => f a
  | send m t k, f => send m t fun r => (k r).bind f
  | sendAfter d m t k, f => sendAfter d m t fun r => (k r).bind f
  | create b n k, f => create b n fun id => (k id).bind f
  | createReserved id b n k, f => createReserved id b n fun r => (k r).bind f
  | reserve k, f => reserve fun id => (k id).bind f
  | issued k, f => issued fun n => (k n).bind f
  | wake id k, f => wake id (k.bind f)
  | takeWakeup k, f => takeWakeup fun id => (k id).bind f
  | countWakeups k, f => countWakeups fun n => (k n).bind f

instance : Monad (Script M B) where
  pure := done
  bind := bind

/-- The scheduler after a request that may be refused, and the answer. -/
@[inline] def settle (s : Scheduler M B) :
    Except Fault (Scheduler M B) → Except Fault Unit × Scheduler M B
  | .ok s => (.ok (), s)
  | .error e => (.error e, s)

/-- Carries a script out. -/
def run : Script M B α → Scheduler M B → α × Scheduler M B
  | done a, s => (a, s)
  | send m t k, s =>
    let (r, s) := settle s (s.send m t)
    (k r).run s
  | sendAfter d m t k, s =>
    let (r, s) := settle s (s.sendAfter d m t)
    (k r).run s
  | create b n k, s =>
    let (id, s) := s.create b n
    (k id).run s
  | createReserved id b n k, s =>
    let (r, s) := settle s (s.createReserved id b n)
    (k r).run s
  | reserve k, s =>
    let (id, s) := s.reserve
    (k id).run s
  | issued k, s => (k s.ids.issued).run s
  | wake id k, s => k.run (s.wake id)
  | takeWakeup k, s =>
    let (id, s) := s.takeWakeup
    (k id).run s
  | countWakeups k, s => (k s.wakeups.size).run s

theorem run_done (a : α) (s : Scheduler M B) : (done a : Script M B α).run s = (a, s) := rfl

theorem run_send (m : M) (t : ActorId) (k : Except Fault Unit → Script M B α) (s : Scheduler M B) :
    (send m t k).run s = (k (settle s (s.send m t)).1).run (settle s (s.send m t)).2 := rfl

theorem run_sendAfter (d : Millis) (m : M) (t : ActorId) (k : Except Fault Unit → Script M B α)
    (s : Scheduler M B) : (sendAfter d m t k).run s =
      (k (settle s (s.sendAfter d m t)).1).run (settle s (s.sendAfter d m t)).2 := rfl

theorem run_createReserved (id : ActorId) (b : B) (n : String)
    (k : Except Fault Unit → Script M B α) (s : Scheduler M B) : (createReserved id b n k).run s =
      (k (settle s (s.createReserved id b n)).1).run (settle s (s.createReserved id b n)).2 := rfl

theorem run_issued (k : Nat → Script M B α) (s : Scheduler M B) :
    (issued k).run s = (k s.ids.issued).run s := rfl

/-- Running one script after the other is running their sequence. -/
theorem run_bind (x : Script M B α) (f : α → Script M B β) (s : Scheduler M B) :
    (x.bind f).run s = (f (x.run s).1).run (x.run s).2 := by
  induction x generalizing s with
  | done a => rfl
  | wake id k ih => exact ih _
  | send m t k ih => exact ih _ _
  | sendAfter d m t k ih => exact ih _ _
  | create b n k ih => exact ih _ _
  | createReserved id b n k ih => exact ih _ _
  | reserve k ih => exact ih _ _
  | issued k ih => exact ih _ _
  | takeWakeup k ih => exact ih _ _
  | countWakeups k ih => exact ih _ _

end Script

/-- The occasion of a run of a behavior: whose it is, and when. -/
structure Moment where
  self : ActorId
  now : Millis

/-- How actors with behaviors `B`, sharing a world `W`, respond. A response ends with the behavior
for the next occasion and with the world it leaves. -/
class Behavior (M : outParam Type) (B : Type) (W : outParam Type) where
  /-- Takes one message. -/
  receive : B → Moment → M → W → Script M B (B × W)
  /-- Continues work that waited. -/
  resume : B → Moment → W → Script M B (B × W)

end Troupe
