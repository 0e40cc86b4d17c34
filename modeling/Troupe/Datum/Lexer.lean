import Troupe.Datum
import Troupe.Datum.Letter

/-!
The tokens of a text: `Datum.lex` reads one character at a time and remembers in a `Mode` what it is
inside of. Comments (`//` to the end of the line, and `/* */`, which nest) and blanks divide tokens.
-/

namespace Troupe.Datum

/-- What the reader of tokens is inside of. -/
inductive Mode where
  | between
  /-- After an opening parenthesis. -/
  | paren
  /-- A word, its letters in reverse. -/
  | word (letters : List Char)
  /-- A raw word, its letters in reverse. -/
  | rawWord (letters : List Char)
  /-- A number, its characters in reverse. -/
  | number (chars : List Char)
  /-- After a `/` that starts a comment. -/
  | slash
  | line
  /-- A comment inside of `depth` others, after the character `last` of it. -/
  | comment (depth : Nat) (last : Char)
  /-- After the letters of raw text or bytes and `count` marks `#`. -/
  | hashes (kind : QuoteKind) (count : Nat)
  | quoted (kind : QuoteKind) (q : Quote)

/-- Blanks between tokens. -/
def isBlank (c : Char) : Bool :=
  [' ', '\t', '\n', '\r', '\x0b', '\x0c', '\u0085', '\u200e', '\u200f', '\u2028',
    '\u2029'].contains c

/-- A character that continues a raw word. -/
def continuesRaw (c : Char) : Bool := continuesName c || c == '.' || c == '+' || c == '-'

/-- A number starts with a digit, a sign or a point. -/
def startsNumber (c : Char) : Bool := c.isDigit || c == '+' || c == '-' || c == '.'

/-- A number goes on with whatever may stand in the spelling of one; `=` only follows two points. -/
def continuesNumber (chars : List Char) (c : Char) : Bool :=
  startsNumber c || c.isAlpha || c == '_' || (c == '=' && chars.take 2 == ['.', '.'])

/-- The characters that are tokens of their own. -/
def isMark (c : Char) : Bool :=
  [')', '[', ']', '\x7b', '\x7d', ':', ',', '#', '!', '='].contains c

/-- The mode after a character between tokens, and the token it is, if it is one. -/
def open? (c : Char) : Option (List Token × Mode) :=
  if isBlank c then some ([], .between)
  else if c == '(' then some ([], .paren)
  else if isMark c then some ([.mark c], .between)
  else if startsName c then some ([], .word [c])
  else if startsNumber c then some ([], .number [c])
  else if c == '/' then some ([], .slash)
  else if c == '"' then some ([], .quoted .text .content)
  else if c == '\'' then some ([], .quoted .char .content)
  else none

/-- The mode after a character that ends a token. -/
def openAfter? (t : Token) (c : Char) : Option (List Token × Mode) :=
  (open? c).map fun (ts, m) => (t :: ts, m)

/-- The mode after a mark that makes the letters before it the start of quoted text. -/
def quoteAfter? (letters : List Char) (c : Char) : Option Mode :=
  if c == '"' then
    if letters == ['r'] then some (.quoted .text (.raw 0 none))
    else if letters == ['r', 'b'] then some (.quoted .bytes (.raw 0 none))
    else if letters == ['b'] then some (.quoted .bytes .content)
    else none
  else if c == '\'' then
    if letters == ['b'] then some (.quoted .byte .content) else none
  else if c == '#' then
    if letters == ['r'] then some (.hashes .text 1)
    else if letters == ['r', 'b'] then some (.hashes .bytes 1)
    else none
  else none

/-- The mode after one more character, and the tokens that it ends. -/
def step? : Mode → Char → Option (List Token × Mode)
  | .between, c => open? c
  | .paren, c => if c == ')' then some ([.unit], .between) else openAfter? (.mark '(') c
  | .word letters, c =>
    if continuesName c then some ([], .word (c :: letters))
    else
      match quoteAfter? letters c with
      | some m => some ([], m)
      | none => openAfter? (.word false (String.ofList letters.reverse)) c
  | .rawWord letters, c =>
    if continuesRaw c then some ([], .rawWord (c :: letters))
    else openAfter? (.word true (String.ofList letters.reverse)) c
  | .number chars, c =>
    if continuesNumber chars c then some ([], .number (c :: chars))
    else openAfter? (.number chars.reverse) c
  | .slash, c =>
    if c == '/' then some ([], .line) else if c == '*' then some ([], .comment 0 ' ') else none
  | .line, c => some ([], if c == '\n' then .between else .line)
  | .comment depth last, c =>
    if last == '*' && c == '/' then
      some ([], match depth with
        | 0 => .between
        | depth + 1 => .comment depth ' ')
    else if last == '/' && c == '*' then some ([], .comment (depth + 1) ' ')
    else some ([], .comment depth c)
  | .hashes kind count, c =>
    if c == '#' then some ([], .hashes kind (count + 1))
    else if c == '"' then some ([], .quoted kind (.raw count none))
    else if kind == .text && count == 1 && continuesRaw c then some ([], .rawWord [c])
    else none
  | .quoted kind q, c =>
    (q.step? kind c).map fun
      | .opened q => ([], .quoted kind q)
      | .closed => ([.quoted kind], .between)

/-- The tokens that the end of the text ends. -/
def close? : Mode → Option (List Token)
  | .between | .line => some []
  | .paren => some [.mark '(']
  | .word letters => some [.word false (String.ofList letters.reverse)]
  | .rawWord letters => some [.word true (String.ofList letters.reverse)]
  | .number chars => some [.number chars.reverse]
  | _ => none

/-- The tokens of a text, read on in a mode. -/
def lexFrom : Mode → List Char → Option (List Token)
  | m, [] => close? m
  | m, c :: cs =>
    match step? m c with
    | none => none
    | some (ts, m) => (lexFrom m cs).map (ts ++ ·)

/-- The tokens of a text. -/
def lex (text : String) : Option (List Token) := lexFrom .between text.toList

end Troupe.Datum
