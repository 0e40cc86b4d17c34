import Troupe.Value

/-!
Functions of the host.

A host may lend its own functions to programs. Such a function computes with values, but addresses
and code are opaque to it: it hands on those that it was given and makes up none
(`HostFunction.closed`), and it cannot see where code stands, only which of it is the same
(`HostFunction.natural`).
-/

namespace Troupe

/-- What is numbered. -/
inductive Kind where
  | layer | scope | slot | dict | closure | block | native
deriving DecidableEq

/-- Which number stands for which. -/
abbrev Likeness := Kind → Nat → Nat → Prop

namespace Likeness

/-- Of two related pairs, both sides are the same or none is. -/
structure Unique (R : Likeness) : Prop where
  iff : ∀ {k : Kind} {i j i' j' : Nat}, R k i j → R k i' j' → (i = i' ↔ j = j')

end Likeness

/-- Two values are like each other. -/
inductive Value.Like (R : Likeness) : Value → Value → Prop where
  | undefined : Like R .undefined .undefined
  | nil : Like R .nil .nil
  | bool (b : Bool) : Like R (.bool b) (.bool b)
  | number (n : Int64) : Like R (.number n) (.number n)
  | symbol (name : String) : Like R (.symbol name) (.symbol name)
  | pair {a b a' b' : Value} (head : Like R a a') (tail : Like R b b') :
      Like R (.pair a b) (.pair a' b')
  | actor (id : ActorId) : Like R (.actor id) (.actor id)
  | closure {i j : Nat} (same : R .closure i j) : Like R (.closure i) (.closure j)
  | native {i j : Nat} (name : String) (same : R .native i j) :
      Like R (.native ⟨i, name⟩) (.native ⟨j, name⟩)
  | block {i j : Nat} (same : R .block i j) : Like R (.block i) (.block j)

/-- The addresses and the code that a value mentions. -/
def Value.mentions : Value → List Value
  | .pair h t => h.mentions ++ t.mentions
  | .actor id => [.actor id]
  | .closure ref => [.closure ref]
  | .native ref => [.native ref]
  | .block ref => [.block ref]
  | _ => []

/-- A function of the host. -/
structure HostFunction where
  name : String
  apply : Value → Value
  closed : ∀ v, (apply v).mentions ⊆ v.mentions
  natural : ∀ {R : Likeness}, R.Unique → ∀ {v w}, v.Like R w → (apply v).Like R (apply w)

end Troupe
