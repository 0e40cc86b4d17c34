/-!
Actor addresses and the counter that hands them out.
-/

namespace Troupe

/-- The address of an actor. -/
structure ActorId where
  raw : Nat
deriving DecidableEq, Repr

/-- An address as text. -/
def ActorId.text (id : ActorId) : String := "actor:" ++ toString id.raw

/-- Hands out the addresses `1`, `2`, `3`, …, each once. -/
structure IdSource where
  /-- How many addresses were handed out. -/
  issued : Nat := 0
deriving DecidableEq, Repr

/-- The next address. -/
def IdSource.next (s : IdSource) : ActorId × IdSource :=
  (⟨s.issued + 1⟩, ⟨s.issued + 1⟩)

/-- Why a request to a configuration was refused; the configuration is then left as it was. -/
inductive Fault where
  | notAnActor (id : ActorId)
  | alreadyRegistered (id : ActorId)
deriving DecidableEq, Repr

/-- The wording of a fault. -/
def Fault.message : Fault → String
  | notAnActor id => "Not an actor: " ++ id.text
  | alreadyRegistered id => "Actor already registered: " ++ id.text

end Troupe
