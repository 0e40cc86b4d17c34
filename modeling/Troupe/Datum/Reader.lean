import Troupe.Datum.Lexer

/-!
Reading a datum: `Datum.read?` accepts a text that is a header and exactly one datum of the shape
looked for. Items are divided by commas, and one more comma may follow the last.

Data are nested to a limited depth. `room` is how many more levels there may be: a list, a table, a
record and a tuple take one, each of their items takes another, and so does the content of an
option.
-/

namespace Troupe.Datum

/-! ### The header -/

/-- What the header of a text asks for. -/
structure Header where
  /-- Records have to have their names. -/
  explicitNames : Bool := false
  /-- The fields or items of a record in an option may do without their own parentheses. -/
  unwraps : Bool := false
  /-- An option may do without parentheses. -/
  implicitOptions : Bool := false

/-- Takes an extension by its name. -/
def Header.enable? (h : Header) (name : String) : Option Header :=
  if name = "explicit_struct_names" then some { h with explicitNames := true }
  else if name = "unwrap_variant_newtypes" then some { h with unwraps := true }
  else if name = "implicit_some" then some { h with implicitOptions := true }
  else if name = "unwrap_newtypes" then some h
  else none

/-- Takes the extensions that are listed up to the closing parenthesis. -/
def Header.enableAll? (h : Header) : List Token → Option (Header × List Token)
  | .word _ name :: .mark ')' :: ts => (h.enable? name).map fun h => (h, ts)
  | .word _ name :: .mark ',' :: .mark ')' :: ts => (h.enable? name).map fun h => (h, ts)
  | .word _ name :: .mark ',' :: ts =>
    match h.enable? name with
    | some h => h.enableAll? ts
    | none => none
  | _ => none

/-- Reads the header: lists of extensions, and notes on the type or the schema of the datum. -/
def header? : Nat → Header → List Token → Option (Header × List Token)
  | fuel + 1, h, .mark '#' :: .mark '!' :: .mark '[' :: .word false "enable" :: .mark '(' :: ts =>
    match h.enableAll? ts with
    | some (h, .mark ']' :: ts) => header? fuel h ts
    | _ => none
  | fuel + 1, h, .mark '#' :: .mark '!' :: .mark '[' :: .word false name :: .mark '=' ::
      .quoted .text :: .mark ']' :: ts =>
    if name = "type" ∨ name = "schema" then header? fuel h ts else none
  | _, _, .mark '#' :: _ => none
  | _, h, ts => some (h, ts)

/-! ### Passing over a datum -/

/-- The words that stand for a constant and are followed by nothing. -/
def constants : List String :=
  ["true", "false", "None", "inf", "inff32", "inff64", "NaN", "NaNf32", "NaNf64"]

/-- Whether more than one item comes before the parenthesis that closes a group, inside of `depth`
brackets of its items. -/
def severalItems (depth : Nat) : List Token → Bool
  | [] => false
  | .mark c :: ts =>
    if c = ',' ∧ depth = 0 then ts.head? != some (.mark ')')
    else if c = '(' ∨ c = '[' ∨ c = '\x7b' then severalItems (depth + 1) ts
    else if c = ')' ∨ c = ']' ∨ c = '\x7d' then
      match depth with
      | 0 => false
      | depth + 1 => severalItems depth ts
    else severalItems depth ts
  | _ :: ts => severalItems depth ts

/-- Whether fields or several items come before the parenthesis that closes a group. -/
def isRecordLike : List Token → Bool
  | .word _ _ :: .mark ':' :: _ => true
  | ts => severalItems 0 ts

/-- The end of an option: a closing parenthesis, and perhaps a comma before it. -/
def endOption? : Option (List Token) → Option (List Token)
  | some (.mark ',' :: .mark ')' :: ts) => some ts
  | some (.mark ')' :: ts) => some ts
  | _ => none

mutual

/-- Passes over one datum. -/
def skip? (h : Header) : Nat → Nat → List Token → Option (List Token)
  | 0, _, _ => none
  | fuel + 1, room, ts =>
    match ts with
    | .word false "Some" :: ts => skipOption? h fuel room ts
    | .word raw name :: ts =>
      if !raw && constants.contains name then some ts
      else
        match ts with
        | .mark '(' :: ts => skipGroup? h fuel room ts
        | .unit :: ts => if room = 0 then none else some ts
        | ts => some ts
    | .unit :: ts => some ts
    | .mark '(' :: ts => skipGroup? h fuel room ts
    | .mark '[' :: ts => skipItems? h fuel ']' room ts
    | .mark '\x7b' :: ts => skipEntries? h fuel '\x7d' room ts
    | .number text :: ts => if Numeral.isNumber text then some ts else none
    | .quoted _ :: ts => some ts
    | _ => none

/-- Passes over what follows the word of an option. -/
def skipOption? (h : Header) : Nat → Nat → List Token → Option (List Token)
  | 0, _, _ => none
  | fuel + 1, room, ts =>
    match ts with
    | .mark '(' :: ts =>
      match room with
      | 0 => none
      | room + 1 =>
        if h.unwraps && ts.head? == some (.mark ')') then some ts.tail
        else if h.unwraps && isRecordLike ts then skipGroup? h fuel room ts
        else endOption? (skip? h fuel room ts)
    | .unit :: ts => if h.unwraps && room != 0 then some ts else none
    | ts => if h.implicitOptions then skip? h fuel room ts else none

/-- Passes over what follows an opening parenthesis: fields, if a word and a colon come first, else
items. -/
def skipGroup? (h : Header) : Nat → Nat → List Token → Option (List Token)
  | fuel + 1, room, .word raw name :: .mark ':' :: ts =>
    skipEntries? h fuel ')' room (.word raw name :: .mark ':' :: ts)
  | fuel + 1, room, ts => skipItems? h fuel ')' room ts
  | 0, _, _ => none

/-- Passes over items up to the mark `close`. -/
def skipItems? (h : Header) : Nat → Char → Nat → List Token → Option (List Token)
  | fuel + 1, close, room + 1, ts =>
    if ts.head? = some (.mark close) then some ts.tail
    else
      match room with
      | 0 => none
      | room + 1 =>
        match skip? h fuel room ts with
        | some (.mark c :: ts) =>
          if c = ',' then skipItems? h fuel close (room + 2) ts
          else if c = close then some ts
          else none
        | _ => none
  | _, _, _, _ => none

/-- Passes over entries, each a key, a colon and a datum, up to the mark `close`. -/
def skipEntries? (h : Header) : Nat → Char → Nat → List Token → Option (List Token)
  | fuel + 1, close, room + 1, ts =>
    if ts.head? = some (.mark close) then some ts.tail
    else
      match room with
      | 0 => none
      | room + 1 =>
        match skip? h fuel room ts with
        | some (.mark ':' :: ts) =>
          match skip? h fuel room ts with
          | some (.mark c :: ts) =>
            if c = ',' then skipEntries? h fuel close (room + 2) ts
            else if c = close then some ts
            else none
          | _ => none
        | _ => none
  | _, _, _, _ => none

end

/-! ### Reading a datum of a shape -/

/-- The tokens behind the name of a record, which may be missing. -/
def afterName? (h : Header) (name : String) : List Token → Option (List Token)
  | .word _ n :: ts => if n = name then some ts else none
  | ts => if h.explicitNames then none else some ts

/-- Reads a datum that may have any shape. -/
def any? (h : Header) (fuel room : Nat) : List Token → Option (Datum × List Token)
  | .number text :: ts => if Numeral.isNumber text then some (.number text, ts) else none
  | .word false "true" :: ts => some (.flag true, ts)
  | .word false "false" :: ts => some (.flag false, ts)
  | ts => (skip? h fuel room ts).map fun ts => (.other, ts)

mutual

/-- Reads a datum of a shape. -/
def value? (h : Header) : Nat → Shape → Nat → List Token → Option (Datum × List Token)
  | fuel + 1, .any, room, ts => any? h fuel room ts
  | fuel + 1, .record name field, room + 1, ts =>
    match afterName? h name ts with
    | some (.unit :: ts) => some (.record [], ts)
    | some (.mark '(' :: ts) =>
      (fields? h fuel field room ts).map fun (xs, ts) => (.record xs, ts)
    | _ => none
  | _, _, _, _ => none

/-- Reads fields up to the closing parenthesis. -/
def fields? (h : Header) :
    Nat → (String → Shape) → Nat → List Token → Option (List (String × Datum) × List Token)
  | _ + 1, _, _, .mark ')' :: ts => some ([], ts)
  | fuel + 1, field, room + 1, .word _ name :: .mark ':' :: ts =>
    match value? h fuel (field name) room ts with
    | some (x, .mark ',' :: ts) =>
      (fields? h fuel field (room + 1) ts).map fun (xs, ts) => ((name, x) :: xs, ts)
    | some (x, .mark ')' :: ts) => some ([(name, x)], ts)
    | _ => none
  | _, _, _, _ => none

end

/-- How many levels data may be nested. -/
def maxDepth : Nat := 128

/-- The datum that a text spells. The number of steps is bounded: reading takes at most three for
every token. -/
def read? (shape : Shape) (text : String) : Option Datum :=
  match lex text with
  | none => none
  | some ts =>
    match header? ts.length {} ts with
    | none => none
    | some (h, ts) =>
      match value? h (3 * ts.length + 3) shape maxDepth ts with
      | some (x, []) => some x
      | _ => none

end Troupe.Datum
