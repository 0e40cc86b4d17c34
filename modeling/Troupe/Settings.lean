import Troupe.Rng

/-!
The settings of a configuration and of the session built on it. Every field has a default.
-/

namespace Troupe

/-- What a journal records. -/
structure JournalSettings where
  /-- Whether entries are recorded at all. -/
  recording : Bool := false
  /-- How many entries are kept; `0` keeps all. -/
  maxEntries : UInt64 := 0
deriving DecidableEq, Repr

/-- The settings of a configuration. -/
structure Settings where
  /-- The most deliveries of one tick. -/
  batchLimit : UInt64 := 144
  /-- The usual tick period in milliseconds. -/
  periodMs : UInt64 := 60
  /-- The seed of the random service. -/
  seed : UInt64 := Rng.defaultSeed
  journal : JournalSettings := {}
deriving DecidableEq, Repr

end Troupe
