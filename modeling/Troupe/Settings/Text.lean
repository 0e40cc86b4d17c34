import Troupe.Datum.Reader
import Troupe.Settings

/-!
Settings as text. `Settings.render` writes every field on a line of its own; `Settings.parse?` reads
a record that names some of the fields, each at most once and in any order, takes the defaults for
the others and passes over fields that it does not know.
-/

namespace Troupe

/-! ### Writing -/

/-- A field on a line of its own. -/
def fieldLine (indent name value : String) : String := indent ++ name ++ ": " ++ value ++ ",\n"

/-- The text of settings. -/
def Settings.render (s : Settings) : String :=
  "(\n" ++
    fieldLine "    " "batch_limit" (toString s.batchLimit) ++
    fieldLine "    " "period_ms" (toString s.periodMs) ++
    fieldLine "    " "seed" (toString s.seed) ++
    fieldLine "    " "journal"
      ("(\n" ++
        fieldLine "        " "recording_enabled"
          (if s.journal.recording then "true" else "false") ++
        fieldLine "        " "max_entries" (toString s.journal.maxEntries) ++
        "    )") ++
    ")"

/-! ### Reading -/

namespace Datum

/-- A number of 64 bits. -/
def word64? : Datum → Option UInt64
  | .number text => Numeral.word? text
  | _ => none

/-- A truth value. -/
def bool? : Datum → Option Bool
  | .flag b => some b
  | _ => none

/-- The fields of a record. -/
def fieldsOf? : Datum → Option (List (String × Datum))
  | .record fields => some fields
  | _ => none

/-- The reading of a field that may be missing; `none` if it is there and cannot be read, or is
there more than once. -/
def field? {α : Type} (fields : List (String × Datum)) (name : String) (default : α)
    (read : Datum → Option α) : Option α :=
  match fields.filter (·.1 == name) with
  | [] => some default
  | [(_, x)] => read x
  | _ => none

end Datum

/-- The shape of journal settings. -/
def JournalSettings.shape : Shape := .record "JournalConfig" fun _ => .any

/-- The shape of settings. -/
def Settings.shape : Shape :=
  .record "Settings" fun name => if name = "journal" then JournalSettings.shape else .any

/-- Reads journal settings. -/
def JournalSettings.ofDatum? (x : Datum) : Option JournalSettings := do
  let fields ← x.fieldsOf?
  let recording ← Datum.field? fields "recording_enabled" false Datum.bool?
  let maxEntries ← Datum.field? fields "max_entries" 0 Datum.word64?
  return { recording, maxEntries }

/-- Reads settings. -/
def Settings.ofDatum? (x : Datum) : Option Settings := do
  let defaults : Settings := {}
  let fields ← x.fieldsOf?
  let batchLimit ← Datum.field? fields "batch_limit" defaults.batchLimit Datum.word64?
  let periodMs ← Datum.field? fields "period_ms" defaults.periodMs Datum.word64?
  let seed ← Datum.field? fields "seed" defaults.seed Datum.word64?
  let journal ← Datum.field? fields "journal" {} JournalSettings.ofDatum?
  return { batchLimit, periodMs, seed, journal }

/-- The settings that a text gives, if it gives any. -/
def Settings.parse? (text : String) : Option Settings :=
  (Datum.read? Settings.shape text).bind Settings.ofDatum?

end Troupe
