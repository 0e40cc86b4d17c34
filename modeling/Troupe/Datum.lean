import Troupe.Datum.Quoted

/-!
Data in the bracketed notation of settings files: numbers, words, quoted text, lists, tables, and
records and tuples with an optional name.

A reader knows which data it looks for (`Shape`). What it does not look for has to be well formed
and is otherwise passed over (`Datum.other`).
-/

namespace Troupe

/-- What is looked for. -/
inductive Shape where
  /-- A number, a truth value, or something to be passed over. -/
  | any
  /-- A record, which may have this name, and the shapes of its fields. -/
  | record (name : String) (field : String → Shape)

/-- A datum. Numbers keep their spelling. -/
inductive Datum where
  | number (text : List Char)
  | flag (b : Bool)
  | record (fields : List (String × Datum))
  /-- Some other datum. -/
  | other

namespace Datum

/-- A unit of the notation. -/
inductive Token where
  /-- One of `( ) [ ] { } : , # ! =`. -/
  | mark (c : Char)
  /-- Two parentheses with nothing between them. -/
  | unit
  /-- A word. A raw one, written with `r#` before it, is never a keyword. -/
  | word (raw : Bool) (name : String)
  | number (text : List Char)
  | quoted (kind : QuoteKind)
deriving DecidableEq, Repr

end Datum

end Troupe
