import Troupe.Actor
import Troupe.Configuration

/-!
A session: a configuration with its services, a global dictionary and a top-level actor.

Statements given to `Session.execute` are run by the top-level actor, each as one transaction; what
they declare becomes global when it commits. `Session.evaluate` evaluates an expression at once.
-/

namespace Troupe

/-- Why an expression has no value. -/
inductive Stall where
  /-- It waits for a variable that is not bound. -/
  | suspended
  /-- It ran out of fuel. -/
  | exhausted
deriving DecidableEq, Repr

/-- The wording of a stall. -/
def Stall.message : Stall → String
  | suspended => "Evaluation suspended on an unbound identifier"
  | exhausted => "Evaluation ran out of fuel"

/-- Evaluates an expression at time zero with addresses of its own, and forgets what it asked for.
What waits, or does not end, has the value `?`. -/
def Store.evaluate (s : Store) (fuel : Nat) (e : Expr) (env : Env) : Value × Store :=
  let ids := s.ids
  let (transaction, s) := ({ s with ids := {} } : Store).newTransaction
  let (task, s) := Task.spawn s ⟨0⟩ true transaction 0 (.start (.eval e ⟨env, 1⟩))
  match task.advance fuel s with
  | none => (.undefined, {})
  | some (task, s) =>
    let s := s.close task.context.task
    (task.answer?.getD .undefined, { s with ids })

/-- The scheduler of a session with what its actors share. -/
abbrev Ensemble := Configuration Value Performer World

/-- A session. -/
structure Session where
  config : Configuration Value Performer World
  global : Env
  /-- The top-level actor. -/
  top : ActorId
  logger : ActorId

namespace Session

/-- A new session. One run of a task may take `fuel` nested steps. -/
def ofSettings (settings : Settings) (fuel : Nat) : Session :=
  let s : Scheduler Value Performer := .ofSettings settings
  let (logger, s) := s.create .logger "logger"
  let (println, s) := s.create .println "println"
  let (sink, s) := s.create .sink "sink"
  let (timer, s) := s.create .timer "timer"
  let (random, s) := s.create (.random (.ofSeed settings.seed)) "random"
  let (global, heap) := ({} : Heap).newGlobal .empty
  let heap := heap.definePrelude global
  let heap := [("versions", Heap.versions), ("println", .actor println), ("sink", .actor sink),
    ("timer", .actor timer), ("random", .actor random)].foldl
      (fun heap (name, v) => (heap.define name v global).2) heap
  let (behavior, heap) := heap.newNative .identity
  let actor : Actor := { behavior, env := global, logger := some logger, exports := true }
  let (top, s) := s.create (.program actor) "repl"
  { config := ⟨s, { store := { heap }, fuel }⟩, global, top, logger }

/-- Applies an operation of the store. -/
def onStore {α : Type} (x : Session) (f : Store → α × Store) : α × Session :=
  match x with
  | ⟨⟨s, ⟨store, output, traces, fuel, exhausted⟩⟩, global, top, logger⟩ =>
    let (a, store) := f store
    (a, ⟨⟨s, ⟨store, output, traces, fuel, exhausted⟩⟩, global, top, logger⟩)

/-- Sends a message from outside. -/
def send (x : Session) (message : Value) (target : ActorId) : Except Fault Session :=
  match x with
  | ⟨⟨s, world⟩, global, top, logger⟩ =>
    (s.send message target).map fun s => ⟨⟨s, world⟩, global, top, logger⟩

/-- Hands statements to the top-level actor. -/
def execute (x : Session) (stmt : Stmt) : Except Fault Session :=
  let global := x.global
  let (block, x) := x.onStore fun s => s.onHeap (·.newBlock ⟨stmt.declared, stmt, global⟩)
  let top := x.top
  x.send block top

/-- Sets a global name outside of any transaction. -/
def define (x : Session) (name : String) (v : Value) : Session :=
  let global := x.global
  (x.onStore fun s => s.onHeap (·.define name v global)).2

/-- The value of a global name; `?` if it has none. -/
def lookup (x : Session) (name : String) : Value :=
  (x.config.world.store.heap.lookup? name x.global).getD .undefined

/-- Binds a name in an environment from outside. Those who waited for it are resumed later. -/
def bind (x : Session) (name : String) (v : Value) (env : Env) : Bool × Session :=
  match x.onStore fun s => s.bind name v env with
  | (ok, ⟨⟨s, world⟩, global, top, logger⟩) =>
    let (world, s) := world.passWakeups.run s
    (ok, ⟨⟨s, world⟩, global, top, logger⟩)

/-- Registers an actor with a behavior in the global environment. -/
def enroll (x : Session) (behavior : Value) (logger : Option ActorId) (name : String) :
    ActorId × Session :=
  match x with
  | ⟨⟨s, world⟩, global, top, log⟩ =>
    let (id, s) := s.create (.program { behavior, env := global, logger }) name
    (id, ⟨⟨s, world⟩, global, top, log⟩)

/-- Registers an actor that reports to the logger. -/
def spawn (x : Session) (behavior : Value) : ActorId × Session :=
  x.enroll behavior (some x.logger) "spawn"

/-- Evaluates an expression in the global environment. The actors it creates are registered when it
has a value. -/
def evaluate (x : Session) (e : Expr) : Except Stall Value × Session :=
  match x with
  | ⟨⟨s, ⟨store, output, traces, fuel, exhausted⟩⟩, global, top, logger⟩ =>
    let (transaction, store) := ({ store with ids := s.ids } : Store).newTransaction
    let (task, store) :=
      Task.spawn store top true transaction s.clock.now (.start (.eval e ⟨global, 1⟩))
    match task.advance fuel store with
    | none => (.error .exhausted, ⟨⟨s, ⟨{}, output, traces, fuel, true⟩⟩, global, top, logger⟩)
    | some (task, store) =>
      let s := { s with ids := store.ids }
      let store := store.close task.context.task
      match task.answer? with
      | none =>
        (.error .suspended,
          ⟨⟨s, ⟨store, output, traces, fuel, exhausted⟩⟩, global, top, logger⟩)
      | some v =>
        let (effects, store) := store.onTransaction transaction (·.commit)
        let (_, s) := (effects.flush (some logger)).run s
        (.ok v, ⟨⟨s, ⟨store, output, traces, fuel, exhausted⟩⟩, global, top, logger⟩)

/-- Dispatches until nothing is left, `limit` times at most; answers how often. -/
def runUntilIdle (x : Session) (limit : Nat) : Nat × Session :=
  match x with
  | ⟨config, global, top, logger⟩ =>
    let (n, config) := config.runUntilIdle limit
    (n, ⟨config, global, top, logger⟩)

end Session

end Troupe
