/-!
The spelling of numbers.

A whole number has an optional sign, an optional base mark `0x`, `0o` or `0b`, digits that may be
divided by `_` but do not start with it, and an optional type such as `u64`, which it has to fit.
Without a type it has to fit 64 bits. Decimal numbers may have a point and an exponent, and ranges
have two points between numbers.

* `Numeral.word?` reads a number of 64 bits.
* `Numeral.isNumber` accepts every spelling.
-/

namespace Troupe.Numeral

/-! ### Whole numbers -/

/-- The value of a digit, of either case. -/
def digit? (base : Nat) (c : Char) : Option Nat :=
  let value :=
    if '0' ≤ c ∧ c ≤ '9' then some (c.toNat - '0'.toNat)
    else if 'a' ≤ c ∧ c ≤ 'f' then some (c.toNat - 'a'.toNat + 10)
    else if 'A' ≤ c ∧ c ≤ 'F' then some (c.toNat - 'A'.toNat + 10)
    else none
  value.bind fun v => if v < base then some v else none

/-- Reads digits on from the value `acc`. -/
def digitsFrom? (base : Nat) (acc : Nat) : List Char → Option Nat
  | [] => some acc
  | '_' :: cs => digitsFrom? base acc cs
  | c :: cs =>
    match digit? base c with
    | some d => digitsFrom? base (acc * base + d) cs
    | none => none

/-- Reads at least one character of digits, the first of them no `_`. -/
def digits? (base : Nat) : List Char → Option Nat
  | [] => none
  | '_' :: _ => none
  | cs => digitsFrom? base 0 cs

/-- Characters that digits of some base, and what divides them, are written with. -/
def isDigitLike (c : Char) : Bool := c == '_' || (digit? 16 c).isSome

/-- Reads digits and what follows them, the type of the number. -/
def typed? (base : Nat) (cs : List Char) : Option (Nat × List Char) :=
  (digits? base (cs.takeWhile isDigitLike)).map fun n => (n, cs.dropWhile isDigitLike)

/-- Reads a number without sign, and its type. -/
def magnitude? : List Char → Option (Nat × List Char)
  | '0' :: 'x' :: cs => typed? 16 cs
  | '0' :: 'o' :: cs => typed? 8 cs
  | '0' :: 'b' :: cs => typed? 2 cs
  | cs => typed? 10 cs

/-- Reads a whole number, and its type. -/
def integer? : List Char → Option (Int × List Char)
  | '+' :: cs => (magnitude? cs).map fun (n, type) => (Int.ofNat n, type)
  | '-' :: cs => (magnitude? cs).map fun (n, type) => (-Int.ofNat n, type)
  | cs => (magnitude? cs).map fun (n, type) => (Int.ofNat n, type)

/-- Reads a number of 64 bits; a number beyond them, or of another type, has no reading. -/
def word? (cs : List Char) : Option UInt64 :=
  match integer? cs with
  | some (.ofNat n, type) =>
    if n < UInt64.size ∧ (type = [] ∨ type = ['u', '6', '4']) then some (UInt64.ofNat n) else none
  | _ => none

/-- The types of whole numbers, with the least and the greatest number of each. -/
def types : List (String × Int × Int) :=
  [("i8", -0x80, 0x7f), ("i16", -0x8000, 0x7fff), ("i32", -0x80000000, 0x7fffffff),
   ("i64", -0x8000000000000000, 0x7fffffffffffffff), ("u8", 0, 0xff), ("u16", 0, 0xffff),
   ("u32", 0, 0xffffffff), ("u64", 0, 0xffffffffffffffff),
   ("", -0x8000000000000000, 0xffffffffffffffff)]

/-- A whole number that fits its type. -/
def isInteger (cs : List Char) : Bool :=
  match integer? cs with
  | some (n, type) =>
    match types.lookup (String.ofList type) with
    | some (least, greatest) => least ≤ n && n ≤ greatest
    | none => false
  | none => false

/-! ### Decimal numbers -/

/-- Characters that a decimal number is written with. -/
def isDecimalLike (c : Char) : Bool :=
  c.isDigit || ['e', 'E', '.', '+', '-', '_'].contains c

/-- The text without what divides its digits, which has to follow a digit or the mark of the
exponent; `free` says whether it may come next. -/
def undivided? (free : Bool) : List Char → Option (List Char)
  | [] => some []
  | c :: cs =>
    if c == '_' then
      if free then undivided? free cs else none
    else
      let free := if c == '.' then false else free || (c != '+' && c != '-')
      (undivided? free cs).map (c :: ·)

/-- Nothing, or an exponent. -/
def isExponent : List Char → Bool
  | [] => true
  | c :: cs =>
    (c == 'e' || c == 'E') &&
      match cs with
      | '+' :: ds | '-' :: ds | ds => !ds.isEmpty && ds.all Char.isDigit

/-- Digits with a point among them or not, and an exponent. -/
def isUnsigned (cs : List Char) : Bool :=
  let whole := cs.takeWhile Char.isDigit
  match cs.dropWhile Char.isDigit with
  | '.' :: rest =>
    let fraction := rest.takeWhile Char.isDigit
    !(whole.isEmpty && fraction.isEmpty) && isExponent (rest.dropWhile Char.isDigit)
  | rest => !whole.isEmpty && isExponent rest

/-- The text without its sign. -/
def unsigned : List Char → List Char
  | '+' :: cs | '-' :: cs | cs => cs

/-- The type of a decimal number, which may be missing. -/
def isDecimalType (cs : List Char) : Bool :=
  cs == [] || cs == "f32".toList || cs == "f64".toList

/-- A decimal number; infinity and what is no number are among them. -/
def isDecimal (cs : List Char) : Bool :=
  match unsigned cs with
  | 'i' :: 'n' :: 'f' :: type | 'N' :: 'a' :: 'N' :: type => isDecimalType type
  | _ =>
    isDecimalType (cs.dropWhile isDecimalLike) &&
      match undivided? false (cs.takeWhile isDecimalLike) with
      | some text => isUnsigned (unsigned text)
      | none => false

/-! ### All spellings -/

/-- One number. -/
def isSingle (cs : List Char) : Bool := isInteger cs || isDecimal cs

/-- What follows the two points of a range. -/
def isRangeEnd : List Char → Bool
  | [] => true
  | '=' :: cs => isSingle cs
  | cs => isSingle cs && cs.head? != some '.'

/-- A range whose start has been read up to `start`, in reverse. -/
def isRangeFrom (start : List Char) : List Char → Bool
  | '.' :: '.' :: cs => (start.isEmpty || isSingle start.reverse) && isRangeEnd cs
  | c :: cs => isRangeFrom (c :: start) cs
  | [] => false

/-- Some number, or a range of numbers. -/
def isNumber (cs : List Char) : Bool := isSingle cs || isRangeFrom [] cs

end Troupe.Numeral
