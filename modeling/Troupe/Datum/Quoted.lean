import Troupe.Datum.Numeral

/-!
Quoted text: what may stand between the marks of a text, of bytes, and of a single character or
byte.

Reading goes character by character. A `Quote` says what has been seen of the content, and
`Quote.step?` takes one more character: it answers the new state, or that the quote has ended
(`Step.closed`), or nothing if the content is malformed.

* An escape `\x` gives a byte. In text and characters the bytes have to spell a character; in text
  a character may take several escapes in a row.
* An escape `\u` gives a character by its code, in one to six hexadecimal digits.
* In text and bytes a backslash at the end of a line joins it with the next.
* Raw content has no escapes and ends with a mark and as many `#` as stood before it.
-/

namespace Troupe.Datum

/-- What stands between the marks. -/
inductive QuoteKind where
  | text
  | bytes
  | char
  | byte
deriving DecidableEq, Repr

/-- Exactly one character stands between the marks. -/
def QuoteKind.isSingle : QuoteKind → Bool
  | char | byte => true
  | text | bytes => false

/-- The content is made of bytes. -/
def QuoteKind.isBinary : QuoteKind → Bool
  | bytes | byte => true
  | text | char => false

/-- What has been seen of quoted content. -/
inductive Quote where
  /-- The next character may come. -/
  | content
  /-- Only the closing mark may come. -/
  | full
  /-- After a backslash. -/
  | escape
  /-- A byte is to come, after those of a character so far. -/
  | high (bytes : List Nat)
  /-- The second digit of a byte is to come. -/
  | low (bytes : List Nat) (digit : Nat)
  /-- One more escaped byte is to come. -/
  | more (bytes : List Nat)
  /-- One more escaped byte is to come, after its backslash. -/
  | moreEscape (bytes : List Nat)
  /-- The opening brace of a code is to come. -/
  | brace
  /-- Inside of the braces of a code. -/
  | code (digits value : Nat)
  /-- After a backslash and a carriage return. -/
  | lineEnd
  /-- Raw content; after a mark, how many `#` have followed it. -/
  | raw (hashes : Nat) (seen : Option Nat)

/-- The value of a hexadecimal digit. -/
def hexDigit? (c : Char) : Option Nat := Numeral.digit? 16 c

/-- A byte that continues a character. -/
def isTail (b : Nat) : Bool := 0x80 ≤ b && b ≤ 0xBF

/-- Whether bytes spell one character in UTF-8. -/
def spellsChar : List Nat → Bool
  | [a] => a < 0x80
  | [a, b] => 0xC2 ≤ a && a ≤ 0xDF && isTail b
  | [a, b, c] =>
    isTail b && isTail c &&
      ((a == 0xE0 && 0xA0 ≤ b) || (a == 0xED && b ≤ 0x9F) ||
        (0xE1 ≤ a && a ≤ 0xEF && a != 0xED))
  | [a, b, c, d] =>
    isTail b && isTail c && isTail d &&
      ((a == 0xF0 && 0x90 ≤ b) || (0xF1 ≤ a && a ≤ 0xF3) || (a == 0xF4 && b ≤ 0x8F))
  | _ => false

namespace Quote

/-- What one more character leads to. -/
inductive Step where
  | opened (q : Quote)
  /-- The quote has ended. -/
  | closed

/-- The state after one character of the content. -/
def afterChar (k : QuoteKind) : Quote := if k.isSingle then full else content

/-- The state after a backslash and a character. -/
def escaped? (k : QuoteKind) (c : Char) : Option Quote :=
  if ['n', 'r', 't', '0', '\\', '"', '\''].contains c then some (afterChar k)
  else if c == 'x' then some (high [])
  else if c == 'u' && k != .byte then some brace
  else if c == '\n' && !k.isSingle then some content
  else if c == '\r' && !k.isSingle then some lineEnd
  else none

/-- The state after an escaped byte, the last of `bytes`. -/
def afterByte? (k : QuoteKind) (bytes : List Nat) : Option Quote :=
  if k.isBinary || spellsChar bytes then some (afterChar k)
  else if k.isSingle || bytes.length == 4 then none
  else some (more bytes)

/-- The state after the next character of content that is not raw, if it does not close it. -/
def plain? (k : QuoteKind) (c : Char) : Option Quote :=
  if c == '\\' then some escape
  else if k == .byte && 128 ≤ c.toNat then none
  else some (afterChar k)

/-- Takes one more character of raw content. -/
def rawStep (hashes : Nat) (seen : Option Nat) (c : Char) : Step :=
  if c == '"' then
    if hashes == 0 then .closed else .opened (raw hashes (some 0))
  else
    match seen with
    | some n =>
      if c == '#' then
        if n + 1 == hashes then .closed else .opened (raw hashes (some (n + 1)))
      else .opened (raw hashes none)
    | none => .opened (raw hashes none)

/-- Takes one more character. -/
def step? (k : QuoteKind) : Quote → Char → Option Step
  | content, c =>
    if c == '"' && !k.isSingle then some .closed else (plain? k c).map .opened
  | full, c => if c == '\'' then some .closed else none
  | escape, c => (escaped? k c).map .opened
  | high bytes, c => (hexDigit? c).map fun d => .opened (low bytes d)
  | low bytes digit, c =>
    (hexDigit? c).bind fun d => (afterByte? k (bytes ++ [16 * digit + d])).map .opened
  | more bytes, c => if c == '\\' then some (.opened (moreEscape bytes)) else none
  | moreEscape bytes, c => if c == 'x' then some (.opened (high bytes)) else none
  | brace, c => if c == '\x7b' then some (.opened (code 0 0)) else none
  | code digits value, c =>
    if c == '\x7d' then
      if digits ≠ 0 ∧ value.isValidChar then some (.opened (afterChar k)) else none
    else if digits < 6 then (hexDigit? c).map fun d => .opened (code (digits + 1) (16 * value + d))
    else none
  | lineEnd, c => if c == '\n' then some (.opened content) else none
  | raw hashes seen, c => some (rawStep hashes seen c)

end Quote

end Troupe.Datum
