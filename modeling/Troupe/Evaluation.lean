import Troupe.Heap
import Troupe.Transaction

/-!
Evaluations in progress.

An evaluation is a tree. Its leaves have finished (`Evaluation.done`), have not begun
(`Evaluation.start`), or wait: for a slot (`Evaluation.parked`) or for the answer of an evaluation
that was detached (`Evaluation.awaiting`). An inner node runs one part and goes on with a `Frame`,
runs two parts side by side and goes on with a `Join`, or races two statements, of which one that
fails decides at once.

Evaluations are indexed by what they answer (`Goal`).
-/

namespace Troupe

/-- What an evaluation answers. -/
inductive Goal where
  /-- The value of an expression. -/
  | value
  /-- Whether a pattern matches or unifies. -/
  | verdict
  /-- The value that a pattern stands for, if it stands for one. -/
  | meaning
  /-- The result of a statement. -/
  | outcome
deriving DecidableEq, Repr

/-- The type of an answer. -/
abbrev Goal.Result : Goal → Type
  | .value => Value
  | .verdict => Bool
  | .meaning => Option Value
  | .outcome => Outcome

/-- The answer in place of one that never comes. -/
def Goal.default : (g : Goal) → g.Result
  | .value => .undefined
  | .verdict => false
  | .meaning => none
  | .outcome => .ok

/-- Where something is evaluated: in which environment, and nested how deep. -/
structure Place where
  env : Env
  depth : Nat

/-- An evaluation that has not begun. -/
inductive Job : Goal → Type where
  | eval (e : Expr) (here : Place) : Job .value
  /-- Applies a function from outside of an expression. -/
  | apply (function argument : Value) (depth : Nat) : Job .value
  | exec (s : Stmt) (here : Place) : Job .outcome
  /-- Runs a block, then offers its variables as definitions. -/
  | publish (block : Block) (caller : Place) : Job .outcome
  /-- Applies a behavior to a message and runs the block it gives. -/
  | deliver (behavior message : Value) (self : ActorId) (exported : Bool) (here : Place) :
      Job .outcome
  | fit (p : Pattern) (v : Value) (here : Place) : Job .verdict
  | unify (left right : Pattern) (here : Place) : Job .verdict
  /-- Goes on with a unification whose left side is a name or matches everything. -/
  | unifyName (right left : Pattern) (here : Place) : Job .verdict
  /-- Goes on with a unification whose left side is a pair. -/
  | unifyPair (right left : Pattern) (here : Place) : Job .verdict
  | resolve (p : Pattern) (here : Place) : Job .meaning

/-- What is done with the answer of one part. -/
inductive Frame : Goal → Goal → Type where
  /-- The subject of a choice is known. -/
  | choose (arms : Arms) (here : Place) : Frame .value .value
  /-- An arm of a choice was tried on a layer of its own. -/
  | arm (body : Expr) (layer : Env) (rest : Arms) (subject : Value) (here : Place) :
      Frame .verdict .value
  /-- The two patterns of a condition were unified on a layer of their own. -/
  | branch (yes : Expr) (layer : Env) (no : Expr) (here : Place) : Frame .verdict .value
  /-- The parameter of a function was matched; its body continues the evaluation. -/
  | enter (body : Expr) (layer : Place) : Frame .verdict .value
  /-- The parameter of a function was matched; its body is nested. -/
  | nested (body : Expr) (layer : Place) : Frame .verdict .value
  /-- The behavior of a new actor is known. -/
  | new (env : Env) : Frame .value .value
  /-- The value of a constant pattern is to be compared. -/
  | equals (v : Value) : Frame .value .verdict
  /-- A pattern is to be matched with the value. -/
  | fit (p : Pattern) (here : Place) : Frame .value .verdict
  /-- A pattern is to be matched with the value that the other side stands for. -/
  | resolved (p : Pattern) (here : Place) : Frame .meaning .verdict
  /-- The heads matched; the tails come next. -/
  | fitTail (p : Pattern) (v : Value) (here : Place) : Frame .verdict .verdict
  /-- The heads were unified; the tails come next. -/
  | unifyTail (left right : Pattern) (here : Place) : Frame .verdict .verdict
  /-- The value of a constant pattern; `?` stands for none. -/
  | known : Frame .value .meaning
  /-- The value of a definition is known. -/
  | define (p : Pattern) (here : Place) : Frame .value .outcome
  /-- A definition was matched with its value. -/
  | defined (v : Value) : Frame .verdict .outcome
  /-- Two patterns were unified by a statement. -/
  | equated : Frame .verdict .outcome
  /-- The delay of a send is known. -/
  | delay (message target : Expr) (here : Place) : Frame .value .outcome
  /-- The behavior of an actor with a name is known. -/
  | init (id : ActorId) (name : String) (env : Env) : Frame .value .outcome
  | become : Frame .value .outcome
  | throw : Frame .value .outcome
  /-- The value of an expression statement is known. -/
  | run (here : Place) : Frame .value .outcome
  /-- A behavior has answered a message. -/
  | perform (self : ActorId) (exported : Bool) (here : Place) : Frame .value .outcome
  /-- A block whose variables are offered as definitions has run. -/
  | offer (vars : List String) (env : Env) : Frame .outcome .outcome

/-- What is done with the answers of two parts. -/
inductive Join : Goal → Goal → Type where
  /-- A function and its argument. -/
  | apply (depth : Nat) : Join .value .value
  | pair : Join .value .value
  /-- A target and a message. -/
  | send (delay : Option Millis) : Join .value .outcome
  | meanings : Join .meaning .meaning

/-- An evaluation in progress. -/
inductive Evaluation : Goal → Type where
  | done {g : Goal} (answer : g.Result) : Evaluation g
  | start {g : Goal} (job : Job g) : Evaluation g
  | parked (slot : Nat) : Evaluation .value
  | awaiting {g : Goal} (ticket : Nat) : Evaluation g
  | one {g h : Goal} (part : Evaluation g) (frame : Frame g h) : Evaluation h
  | both {g h : Goal} (left right : Evaluation g) (join : Join g h) : Evaluation h
  | race (left right : Evaluation .outcome) : Evaluation .outcome

/-- The answer of an evaluation that has finished. -/
def Evaluation.answer? {g : Goal} : Evaluation g → Option g.Result
  | .done r => some r
  | _ => none

end Troupe
