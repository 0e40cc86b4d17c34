import Troupe.Value

/-!
Values as text. Pairs are written along their tails, divided by commas; a pair in head position
stands in parentheses.

* `Value.text_pair`: the text of a pair in terms of the texts of its parts.
-/

namespace Troupe.Value

/-- The text of a value that is no pair. -/
def atom : Value → String
  | undefined => "?"
  | nil => "NIL"
  | bool true => "TRUE"
  | bool false => "FALSE"
  | number n => toString n.toInt
  | symbol s => "#" ++ s
  | pair .. => ""
  | actor id => "@" ++ toString id.raw
  | closure _ => "\\closure"
  | native f => "\\" ++ f.name
  | block _ => "[block]"

/-- Writes a value behind a text. -/
def write : Value → String → String
  | pair h t, acc =>
    t.write ((if h.isPair then h.write (acc ++ "(") ++ ")" else h.write acc) ++ ", ")
  | v, acc => acc ++ v.atom

/-- The text of a value. -/
def text (v : Value) : String := v.write ""

/-- Writing adds to a text and does not look at it. -/
theorem write_eq (v : Value) (acc : String) : v.write acc = acc ++ v.text := by
  induction v generalizing acc with
  | pair h t ihh iht =>
    rw [text, write, write, iht, iht]
    split <;> simp only [ihh, String.append_assoc, String.empty_append]
  | _ => simp [text, write]

/-- The text of a pair. -/
theorem text_pair (h t : Value) :
    (pair h t).text = (if h.isPair then "(" ++ h.text ++ ")" else h.text) ++ ", " ++ t.text := by
  rw [text, write, write_eq t]
  split <;> simp only [write_eq, String.empty_append]

end Troupe.Value
