import Troupe.Script

/-!
A configuration: a scheduler whose actors are run.

Delivery is first-in first-out and one at a time. `Configuration.dispatch` does one unit of work,
wake-ups before messages; `Configuration.tick` and `Configuration.runUntilIdle` repeat it.
-/

namespace Troupe

/-- A scheduler and the world its behaviors share. -/
structure Configuration (M B W : Type) extends Scheduler M B where
  world : W

namespace Configuration

variable {M B W : Type}

/-- Applies an operation of the scheduler. -/
def modify (f : Scheduler M B → Scheduler M B) : Configuration M B W → Configuration M B W
  | ⟨s, world⟩ => ⟨f s, world⟩

variable [Behavior M B W]

/-- Runs the behavior of an actor for a message, or resumes it if there is none. An address that
names no actor is passed over. -/
def invoke (c : Configuration M B W) (id : ActorId) (message : Option M) : Configuration M B W :=
  match c with
  | ⟨s, world⟩ =>
    match s.find? id with
    | none => ⟨s, world⟩
    | some entry =>
      let moment : Moment := ⟨id, s.clock.now⟩
      let script :=
        match message with
        | some m => Behavior.receive entry.behavior moment m world
        | none => Behavior.resume entry.behavior moment world
      let ((behavior, world), s) := script.run s
      ⟨s.setBehavior id behavior, world⟩

/-- Does one unit of work: the oldest wake-up if there is one, else the oldest message. Answers
whether there was any. -/
def dispatch (c : Configuration M B W) : Bool × Configuration M B W :=
  match c.wakeups.pop? with
  | some (id, wakeups) => (true, (c.modify fun s => { s with wakeups }).invoke id none)
  | none =>
    match c.queue.pop? with
    | some (⟨target, message⟩, queue) =>
      (true, (c.modify fun s =>
        { s with
          queue
          journal := s.journal.record s.clock.now (.delivered target) }).invoke target
            (some message))
    | none => (false, c)

/-- Dispatches until nothing is pending, `limit` times at most, counting on from `count`. -/
def dispatchFrom (count : Nat) : Nat → Configuration M B W → Nat × Configuration M B W
  | 0, c => (count, c)
  | limit + 1, c =>
    match c.dispatch with
    | (true, c) => dispatchFrom (count + 1) limit c
    | (false, c) => (count, c)

/-- Dispatches until nothing is pending, `limit` times at most; answers how often. -/
def dispatchLoop (limit : Nat) (c : Configuration M B W) : Nat × Configuration M B W :=
  dispatchFrom 0 limit c

/-- One step of a running run: moves time by its period, dispatches one batch, and pauses when
nothing is pending and no timer is left. Answers the number of dispatches. -/
def tick (c : Configuration M B W) : Nat × Configuration M B W :=
  match c.state with
  | .running period =>
    let c := c.modify fun s =>
      let s := s.advance period
      { s with clock := s.clock.recordTick }
    let (n, c) := c.dispatchLoop c.settings.batchLimit.toNat
    (n, if c.pending = 0 ∧ c.scheduled = 0 then c.modify (·.pause) else c)
  | _ => (0, c)

/-- Dispatches `limit` times at most, jumping to the next due time whenever nothing is pending,
until nothing is left, and counts on from `count`. -/
def runIdleFrom (count : Nat) : Nat → Configuration M B W → Nat × Configuration M B W
  | 0, c => (count, c)
  | limit + 1, c =>
    match (c.modify (·.skipAhead)).dispatch with
    | (true, c) => runIdleFrom (count + 1) limit c
    | (false, c) => (count, c)

/-- Dispatches until nothing is left, `limit` times at most; answers how often. -/
def runUntilIdle (limit : Nat) (c : Configuration M B W) : Nat × Configuration M B W :=
  runIdleFrom 0 limit c

end Configuration

end Troupe
