import Troupe.Value

/-!
The native functions that only compute. Each takes one value, most of them a pair, and answers `?`
for an argument that it is not made for.

* Arithmetic is exact: a result beyond the 64 bits of a number is `?` (`Value.int64?`).
* Division rounds down.
-/

namespace Troupe

/-- A native function that only computes. -/
inductive Operation where
  | add | sub | mul | div | neg
  | eq | compare | less | lessEqual | greater | greaterEqual
  | not | and | or
  | tupleToNumber | tupleToSymbol | inRangeSet
  | mapEmpty
deriving DecidableEq, Repr

namespace Operation

/-- The name of a function. -/
def name : Operation → String
  | add => "add"
  | sub => "sub"
  | mul => "mul"
  | div => "div"
  | neg => "neg"
  | eq => "eq"
  | compare => "compare"
  | less => "less"
  | lessEqual => "less_equal"
  | greater => "greater"
  | greaterEqual => "greater_equal"
  | not => "not"
  | and => "and"
  | or => "or"
  | tupleToNumber => "tuple_to_number"
  | tupleToSymbol => "tuple_to_symbol"
  | inRangeSet => "in_range_set"
  | mapEmpty => "map_empty"

/-- All functions, in the order in which they are defined. -/
def all : List Operation :=
  [add, sub, mul, div, neg, eq, compare, less, lessEqual, greater, greaterEqual, not, and, or,
   tupleToNumber, tupleToSymbol, inRangeSet, mapEmpty]

/-! ### Numbers -/

/-- The answer of a function of two numbers. -/
def arithmetic (f : Int64 → Int64 → Option Int64) : Value → Option Value
  | .pair (.number a) (.number b) => (f a b).map .number
  | _ => none

/-- The quotient without its fraction; there is none by zero, nor of the least number by `-1`. -/
def quotient? (a b : Int64) : Option Int64 :=
  if b = 0 then none else Value.int64? (a.toInt.tdiv b.toInt)

/-- The quotient, rounded down: one less than without its fraction, if there is a remainder and the
signs differ. -/
def floorDiv? (a b : Int64) : Option Int64 :=
  (quotient? a b).bind fun q =>
    if a % b ≠ 0 ∧ decide (a < 0) ≠ decide (b < 0) then Value.int64? (q.toInt - 1) else some q

/-- How two values compare: equal values always, other values only if they are numbers. -/
def ordering? : Value → Option Ordering
  | .pair a b =>
    if a == b then some .eq
    else
      match a, b with
      | .number a, .number b => some (Ord.compare a.toInt b.toInt)
      | _, _ => none
  | _ => none

/-- A comparison as a number. -/
def sign : Ordering → Int
  | .lt => -1
  | .eq => 0
  | .gt => 1

/-! ### Digits and characters -/

/-- The value of a digit, given as the code of a character or as a plain number. -/
def digitValue (digit : Int) : Int :=
  if 48 ≤ digit ∧ digit ≤ 57 then digit - 48
  else if 65 ≤ digit ∧ digit ≤ 90 then digit - 55
  else if 97 ≤ digit ∧ digit ≤ 122 then digit - 87
  else digit

/-- The value of a digit of a base. -/
def digit? (base digit : Int) : Option Int :=
  if 2 ≤ base ∧ base ≤ 36 ∧ 0 ≤ digitValue digit ∧ digitValue digit < base then
    some (digitValue digit)
  else none

/-- The number `n` with one more digit; the product and the sum have to fit. -/
def pushDigit? (base n digit : Int64) : Option Int64 :=
  (digit? base.toInt digit.toInt).bind fun d =>
    (Value.int64? (n.toInt * base.toInt)).bind fun m => Value.int64? (m.toInt + d)

/-- Reads digits on from the number `n`; they end with `NIL` or with a last digit. -/
def readDigits? (base : Int64) : Int64 → Value → Option Int64
  | n, .nil => some n
  | n, .number d => pushDigit? base n d
  | n, .pair (.number d) rest => (pushDigit? base n d).bind fun n => readDigits? base n rest
  | _, _ => none

/-- The character of a code. -/
def char? (code : Int64) : Option Char :=
  match code.toInt with
  | .ofNat n => if n.isValidChar then some (Char.ofNat n) else none
  | .negSucc _ => none

/-- Reads the codes of characters behind a text; they end with `NIL` or with a last code. -/
def readChars? : String → Value → Option String
  | acc, .nil => some acc
  | acc, .number c => (char? c).map acc.push
  | acc, .pair (.number c) rest => (char? c).bind fun c => readChars? (acc.push c) rest
  | _, _ => none

/-- Whether a number is an element of a list or lies in one of its ranges, which are pairs. -/
def inRanges? (n : Int64) : Value → Option Bool
  | .nil => some false
  | .pair (.pair (.number lo) (.number hi)) rest =>
    if lo.toInt ≤ n.toInt ∧ n.toInt ≤ hi.toInt then some true else inRanges? n rest
  | .pair element rest => if element == .number n then some true else inRanges? n rest
  | _ => none

/-! ### All of them -/

/-- The answer of a function, if the argument is one it is made for. -/
def answer? : Operation → Value → Option Value
  | add, v => arithmetic (fun a b => Value.int64? (a.toInt + b.toInt)) v
  | sub, v => arithmetic (fun a b => Value.int64? (a.toInt - b.toInt)) v
  | mul, v => arithmetic (fun a b => Value.int64? (a.toInt * b.toInt)) v
  | div, v => arithmetic floorDiv? v
  | neg, .number n => Value.ofInt? (-n.toInt)
  | eq, .pair a b => some (.bool (a == b))
  | compare, v => (ordering? v).bind fun o => Value.ofInt? (sign o)
  | less, v => (ordering? v).map fun o => .bool o.isLT
  | lessEqual, v => (ordering? v).map fun o => .bool o.isLE
  | greater, v => (ordering? v).map fun o => .bool o.isGT
  | greaterEqual, v => (ordering? v).map fun o => .bool o.isGE
  | not, .bool b => some (.bool !b)
  | and, .pair a b =>
    match a.bool?, b.bool? with
    | some false, _ => some (.bool false)
    | _, some false => some (.bool false)
    | some true, some true => some (.bool true)
    | _, _ => none
  | or, .pair a b =>
    match a.bool?, b.bool? with
    | some true, _ => some (.bool true)
    | _, some true => some (.bool true)
    | some false, some false => some (.bool false)
    | _, _ => none
  | tupleToNumber, .pair (.number base) digits => (readDigits? base 0 digits).map .number
  | tupleToSymbol, v => (readChars? "" v).map .symbol
  | inRangeSet, .pair set (.number n) => (inRanges? n set).map .bool
  | _, _ => none

/-- The answer of a function; `?` for an argument it is not made for. -/
def apply (o : Operation) (v : Value) : Value := (o.answer? v).getD .undefined

end Operation

end Troupe
