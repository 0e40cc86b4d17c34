import Troupe.ActorId
import Troupe.Clock
import Troupe.Settings

/-!
The journal of a configuration: creations, sends and deliveries in the order in which they happened.

Entries are numbered as they are recorded. A bounded journal forgets its oldest entries, and
clearing a journal does not start the numbers anew.
-/

namespace Troupe

/-- What happened. -/
inductive Event where
  /-- An actor was registered. -/
  | created (id : ActorId) (name : String)
  /-- A message was put on the queue. -/
  | sent (target : ActorId)
  /-- A message was put on the timers. -/
  | scheduled (due : Millis) (target : ActorId)
  /-- A message was handed to its target. -/
  | delivered (target : ActorId)
deriving DecidableEq, Repr

/-- A recorded event, with its number and the time it was recorded. -/
structure Record where
  seq : Nat
  time : Millis
  event : Event
deriving DecidableEq, Repr

/-- How many events of each kind a journal holds. -/
structure Tally where
  created : Nat := 0
  sent : Nat := 0
  scheduled : Nat := 0
  delivered : Nat := 0
deriving DecidableEq, Repr

/-- Counts one more event. -/
def Tally.add (t : Tally) : Event → Tally
  | .created .. => { t with created := t.created + 1 }
  | .sent .. => { t with sent := t.sent + 1 }
  | .scheduled .. => { t with scheduled := t.scheduled + 1 }
  | .delivered .. => { t with delivered := t.delivered + 1 }

/-- The journal of a configuration. -/
structure Journal where
  settings : JournalSettings := {}
  entries : Array Record := #[]
  /-- The number of the next entry. -/
  nextSeq : Nat := 0

namespace Journal

/-- The newest entries that a bound of `limit` allows; a bound of `0` allows all. -/
def trim (limit : Nat) (entries : Array Record) : Array Record :=
  if 0 < limit ∧ limit < entries.size then entries.extract (entries.size - limit) else entries

/-- Records an event, if the journal is recording. -/
def record (j : Journal) (time : Millis) (event : Event) : Journal :=
  if j.settings.recording then
    { j with
      entries := trim j.settings.maxEntries.toNat (j.entries.push ⟨j.nextSeq, time, event⟩)
      nextSeq := j.nextSeq + 1 }
  else j

/-- Records from now on. -/
def start (j : Journal) : Journal := { j with settings.recording := true }

/-- Records nothing from now on. -/
def stop (j : Journal) : Journal := { j with settings.recording := false }

/-- Forgets all entries. -/
def clear (j : Journal) : Journal := { j with entries := #[] }

/-- The entries recorded at `time` or later. -/
def since (j : Journal) (time : Millis) : Array Record := j.entries.filter (time ≤ ·.time)

/-- The targets of the deliveries, in order. -/
def deliveries (j : Journal) : Array ActorId :=
  j.entries.filterMap fun r =>
    match r.event with
    | .delivered target => some target
    | _ => none

/-- The number of entries of each kind. -/
def tally (j : Journal) : Tally := j.entries.foldl (fun t r => t.add r.event) {}

end Journal

end Troupe
