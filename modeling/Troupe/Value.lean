import Troupe.ActorId

/-!
The values of the language.

Numbers, symbols, pairs and the like are data and compare by their structure. Functions, native
functions and blocks carry code: a value names where that code stands in the heap, so they compare
by identity, and the equality of values is equality (`Value.decideEq`, `LawfulBEq Value`).
-/

namespace Troupe

/-- Where the code of a closure stands in the heap. -/
abbrev ClosureRef := Nat

/-- Where the code of a block stands in the heap. -/
abbrev BlockRef := Nat

/-- Where a native function stands in the heap, and its name. -/
structure NativeRef where
  index : Nat
  name : String
deriving DecidableEq, Repr

/-- A value. -/
inductive Value where
  /-- The answer to what has no answer, written `?`. -/
  | undefined
  /-- The end of a list, written `NIL`. -/
  | nil
  | bool (b : Bool)
  | number (n : Int64)
  | symbol (name : String)
  /-- A pair; tuples nest to the right. -/
  | pair (head tail : Value)
  | actor (id : ActorId)
  | closure (ref : ClosureRef)
  | native (ref : NativeRef)
  /-- A block of statements that has not been run. -/
  | block (ref : BlockRef)
deriving Inhabited, Repr

namespace Value

/-! ### Equality -/

/-- Decides equality, head first and along the tails. Parts that are one and the same object are
equal without a look inside, so values with many shared parts are compared in time. -/
def decideEq : (v w : Value) → { r : Bool // r = true ↔ v = w }
  | undefined, w => ⟨w matches undefined, by cases w <;> simp⟩
  | nil, w => ⟨w matches nil, by cases w <;> simp⟩
  | bool a, w => ⟨match w with | bool b => a == b | _ => false, by cases w <;> simp⟩
  | number a, w => ⟨match w with | number b => a == b | _ => false, by cases w <;> simp⟩
  | symbol a, w => ⟨match w with | symbol b => a == b | _ => false, by cases w <;> simp⟩
  | pair a b, w =>
    ⟨match w with
      | pair c d =>
        withPtrEq a c (fun _ => (decideEq a c).1) (decideEq a c).2.2
          && withPtrEq b d (fun _ => (decideEq b d).1) (decideEq b d).2.2
      | _ => false, by cases w <;> simp [withPtrEq, (decideEq a _).2, (decideEq b _).2]⟩
  | actor a, w => ⟨match w with | actor b => a == b | _ => false, by cases w <;> simp⟩
  | closure a, w => ⟨match w with | closure b => a == b | _ => false, by cases w <;> simp⟩
  | native a, w => ⟨match w with | native b => a == b | _ => false, by cases w <;> simp⟩
  | block a, w => ⟨match w with | block b => a == b | _ => false, by cases w <;> simp⟩

instance : BEq Value where
  beq v w := withPtrEq v w (fun _ => (decideEq v w).1) (decideEq v w).2.2

instance : LawfulBEq Value where
  eq_of_beq := (decideEq _ _).2.1
  rfl := (decideEq _ _).2.2 rfl

instance : DecidableEq Value := fun v w =>
  decidable_of_iff (v == w) beq_iff_eq

/-! ### Parts -/

/-- The value is `?`. -/
def isUndefined : Value → Bool
  | undefined => true
  | _ => false

/-- The value is a pair. -/
def isPair : Value → Bool
  | pair .. => true
  | _ => false

/-- The number a value is. -/
def number? : Value → Option Int64
  | number n => some n
  | _ => none

/-- The truth value a value is. -/
def bool? : Value → Option Bool
  | bool b => some b
  | _ => none

/-- The name of a symbol. -/
def symbol? : Value → Option String
  | symbol s => some s
  | _ => none

/-- The address a value is. -/
def actor? : Value → Option ActorId
  | actor id => some id
  | _ => none

/-- The parts of a pair. -/
def pair? : Value → Option (Value × Value)
  | pair h t => some (h, t)
  | _ => none

/-- The length of time a number that is not negative stands for. -/
def natural? : Value → Option Nat
  | number n => if 0 ≤ n.toInt then some n.toInt.toNat else none
  | _ => none

/-! ### Building -/

/-- A tuple: nested pairs that end with the last value. A tuple of nothing is `NIL`. -/
def tuple : List Value → Value
  | [] => nil
  | [v] => v
  | v :: vs => pair v (tuple vs)

/-- A list: nested pairs that end with `NIL`. -/
def list (vs : List Value) : Value := vs.foldr pair nil

/-- The whole number `n` in the 64 bits of a number, if it fits. -/
def int64? (n : Int) : Option Int64 :=
  if Int64.minValue.toInt ≤ n ∧ n ≤ Int64.maxValue.toInt then some (Int64.ofInt n) else none

/-- The whole number `n` as a value, if it fits. -/
def ofInt? (n : Int) : Option Value := (int64? n).map number

/-- An address or `?`. -/
def ofActor? : Option ActorId → Value
  | some id => actor id
  | none => undefined

end Value

end Troupe
