import Troupe.ActorId

/-!
Environments: chains of frames.

A chain does not change once it is built. What changes, the bindings of a layer, the slots of a
block, the entries of a dictionary, stands in the heap, under the number that the frame carries.
-/

namespace Troupe

/-- A chain of frames. -/
inductive Env where
  | empty
  /-- A layer of bindings. -/
  | dynamic (layer : Nat) (base : Env)
  /-- The variables of a running block: names are looked up in `captured` next, while `SELF` is the
  one of `caller`, where the block runs. -/
  | block (scope : Nat) (captured caller : Env)
  /-- The actor that `SELF` is. -/
  | actor (stamp : Nat) (id : ActorId) (next : Env)
  /-- A dictionary. -/
  | global (dict : Nat) (next : Env)
deriving Inhabited, Repr

namespace Env

/-- The actor that `SELF` is. -/
def self? : Env → Option ActorId
  | empty => none
  | dynamic _ base => base.self?
  | block _ _ caller => caller.self?
  | actor _ id _ => some id
  | global _ next => next.self?

/-- Whether two environments have one and the same frame in front. -/
def same : Env → Env → Bool
  | empty, empty => true
  | dynamic a _, dynamic b _ => a == b
  | block a .., block b .. => a == b
  | actor a .., actor b .. => a == b
  | global a _, global b _ => a == b
  | _, _ => false

/-- What kind of frame stands in front, as text. -/
def text : Env → String
  | empty => "Env(empty)"
  | dynamic .. => "Env(dynamic)"
  | block .. => "Env(block)"
  | actor .. => "Env(actor)"
  | global .. => "Env(global)"

end Env

end Troupe
