import Mathlib.Data.List.DropRight
import Troupe.Journal

/-!
A bounded journal is the tail of the unbounded one.

A bounded journal forgets its oldest entry whenever it records one too many. The same operations on
a journal without a bound leave all entries since the last time it was cleared. The two are compared
operation by operation: they number alike, and the bounded one holds the newest entries of the other
(`Journal.Trails`).

* `Journal.Edit`, `Journal.edit`: the operations on a journal, and a sequence of them.
* `Record.Numbered`: entries that are numbered without gaps, up to the last number that was given.
* `Journal.bounded_eq_tail`
-/

namespace Troupe

open Array List Nat

/-! ### Numbers -/

/-- The entries are numbered without gaps, and the next number is `next`. -/
structure Record.Numbered (entries : List Record) (next : Nat) : Prop where
  length : entries.length ≤ next
  seqs : entries.map (·.seq) = List.range' (next - entries.length) entries.length

namespace Record.Numbered

variable {entries : List Record} {next : Nat}

lemma nil (next : Nat) : Numbered [] next := ⟨zero_le _, rfl⟩

/-- An entry with the next number. -/
lemma concat (h : Numbered entries next) (time : Millis) (event : Event) :
    Numbered (entries ++ [⟨next, time, event⟩]) (next + 1) := by
  have hlength : (entries ++ [(⟨next, time, event⟩ : Record)]).length = entries.length + 1 := by
    simp
  have hnext : next - entries.length + entries.length = next := Nat.sub_add_cancel h.length
  refine ⟨hlength ▸ Nat.succ_le_succ h.length, ?_⟩
  rw [hlength, List.map_append, h.seqs, List.map_singleton, List.range'_concat, Nat.one_mul,
    Nat.add_sub_add_right, hnext]

/-- The oldest entries are forgotten. -/
lemma drop (h : Numbered entries next) (n : Nat) : Numbered (entries.drop n) next := by
  have hlength := h.length
  refine ⟨by rw [length_drop]; omega, ?_⟩
  rw [map_drop, h.seqs, drop_range', length_drop, Nat.mul_one]
  -- without an entry left, the first number does not matter
  rcases Nat.le_total n entries.length with hn | hn
  · congr 1
    omega
  · rw [Nat.sub_eq_zero_of_le hn, List.range'_zero, List.range'_zero]

end Record.Numbered

namespace Journal

/-! ### Operations -/

/-- An operation on a journal. -/
inductive Edit where
  | record (time : Millis) (event : Event)
  | start
  | stop
  | clear

/-- Carries an operation out. -/
def Edit.apply : Edit → Journal → Journal
  | record time event, j => j.record time event
  | start, j => j.start
  | stop, j => j.stop
  | clear, j => j.clear

/-- Carries operations out, one after the other. -/
def edit (j : Journal) (edits : List Edit) : Journal := edits.foldl (fun j e => e.apply j) j

/-- How many numbers the operations give out, if the journal is recording before them or not. -/
def Edit.issued : Bool → List Edit → Nat
  | _, [] => 0
  | recording, record .. :: edits => issued recording edits + if recording then 1 else 0
  | _, start :: edits => issued true edits
  | _, stop :: edits => issued false edits
  | recording, clear :: edits => issued recording edits

/-- A new journal that keeps `limit` entries; `0` keeps all. -/
def withLimit (recording : Bool) (limit : UInt64) : Journal := { settings := ⟨recording, limit⟩ }

lemma trim_zero (entries : Array Record) : trim 0 entries = entries := if_neg (by omega)

/-- What a bound leaves are the newest entries. -/
lemma toList_trim {limit : Nat} (hlimit : 0 < limit) (entries : Array Record) :
    (trim limit entries).toList = entries.toList.rtake limit := by
  unfold trim rtake
  rw [length_toList]
  split
  · rw [toList_extract, extract_eq_take_drop, take_of_length_le]
    simp
  · have hsize : entries.size - limit = 0 := by omega
    rw [hsize, drop_zero]

/-- Whatever the bound is, the oldest entries are forgotten and no others. -/
lemma exists_drop_trim (limit : Nat) (entries : Array Record) :
    ∃ n, (trim limit entries).toList = entries.toList.drop n := by
  rcases Nat.eq_zero_or_pos limit with rfl | hlimit
  · exact ⟨0, by rw [trim_zero, drop_zero]⟩
  · exact ⟨_, toList_trim hlimit entries⟩

variable {j full : Journal} {k : Nat}

/-- No operation leaves a gap in the numbers. -/
lemma Edit.numbered (e : Edit) (h : Record.Numbered j.entries.toList j.nextSeq) :
    Record.Numbered (e.apply j).entries.toList (e.apply j).nextSeq := by
  cases e with
  | record time event =>
    rw [apply, Journal.record]
    split
    · obtain ⟨n, hn⟩ := exists_drop_trim j.settings.maxEntries.toNat
        (j.entries.push ⟨j.nextSeq, time, event⟩)
      dsimp only
      rw [hn, toList_push]
      exact (h.concat time event).drop n
    · exact h
  | start | stop => exact h
  | clear => exact .nil _

lemma numbered_edit (edits : List Edit) (h : Record.Numbered j.entries.toList j.nextSeq) :
    Record.Numbered (j.edit edits).entries.toList (j.edit edits).nextSeq := by
  induction edits generalizing j with
  | nil => exact h
  | cons e edits ih => exact ih (e.numbered h)

/-- The next number is the number of those that were given. -/
lemma nextSeq_edit (j : Journal) (edits : List Edit) :
    (j.edit edits).nextSeq = j.nextSeq + Edit.issued j.settings.recording edits := by
  induction edits generalizing j with
  | nil => rfl
  | cons e edits ih =>
    rw [edit, foldl_cons, ← edit, ih]
    cases e with
    | record time event =>
      rw [Edit.apply, Journal.record, Edit.issued]
      split <;> rename_i hrecording
      · simp only [hrecording]
        omega
      · simp only [hrecording]
        rfl
    | start | stop | clear => rfl

/-! ### With a bound and without -/

/-- The two journals number alike, and one keeps the `k` newest entries of the other. -/
structure Trails (k : Nat) (j full : Journal) : Prop where
  limit : j.settings.maxEntries.toNat = k
  unlimited : full.settings.maxEntries = 0
  recording : j.settings.recording = full.settings.recording
  nextSeq : j.nextSeq = full.nextSeq
  entries : j.entries.toList = full.entries.toList.rtake k

/-- The newest entries, with one more, of which the newest are kept. -/
lemma rtake_rtake_concat (entries : List Record) (r : Record) (hk : 0 < k) :
    (entries.rtake k ++ [r]).rtake k = (entries ++ [r]).rtake k := by
  obtain ⟨k, rfl⟩ := exists_eq_succ_of_ne_zero hk.ne'
  rw [rtake_concat_succ, rtake_concat_succ]
  congr 1
  simp only [rtake, drop_drop, length_drop]
  congr 1
  omega

/-- Every operation does the same to both journals. -/
lemma Trails.apply (h : Trails k j full) (hk : 0 < k) (e : Edit) :
    Trails k (e.apply j) (e.apply full) := by
  cases e with
  | record time event =>
    rw [Edit.apply, Edit.apply, Journal.record, Journal.record, h.recording]
    split
    · refine ⟨h.limit, h.unlimited, h.recording, congrArg (· + 1) h.nextSeq, ?_⟩
      dsimp only
      rw [h.limit, h.unlimited, toList_trim hk, UInt64.toNat_zero, trim_zero, toList_push,
        toList_push, h.entries, h.nextSeq]
      exact rtake_rtake_concat _ _ hk
    · exact h
  | start | stop => exact ⟨h.limit, h.unlimited, rfl, h.nextSeq, h.entries⟩
  | clear =>
    refine ⟨h.limit, h.unlimited, h.recording, h.nextSeq, ?_⟩
    exact (rtake_nil k).symm

lemma Trails.edit (h : Trails k j full) (hk : 0 < k) (edits : List Edit) :
    Trails k (j.edit edits) (full.edit edits) := by
  induction edits generalizing j full with
  | nil => exact h
  | cons e edits ih => exact ih (h.apply hk e)

/-- A bounded journal is the tail of the unbounded one. Whatever is done to both, in whatever order:
the bounded one has the last `min k n` of the `n` entries of the other, so `k` at most, and these
are numbered without gaps, up to the last of the numbers `0`, `1`, `2`, … that were given. -/
theorem bounded_eq_tail (recording : Bool) (k : UInt64) (hk : 0 < k) (edits : List Edit) :
    let j := (withLimit recording k).edit edits
    let full := (withLimit recording 0).edit edits
    j.entries.toList = full.entries.toList.rtake (min k.toNat full.entries.size) ∧
      j.entries.size = min k.toNat full.entries.size ∧ j.entries.size ≤ k.toNat ∧
      j.entries.toList.map (·.seq) =
        List.range' (Edit.issued recording edits - j.entries.size) j.entries.size ∧
      j.entries.size ≤ Edit.issued recording edits := by
  intro j full
  have hpos : 0 < k.toNat := UInt64.lt_iff_toNat_lt.1 hk
  have hnew : Trails k.toNat (withLimit recording k) (withLimit recording 0) :=
    ⟨rfl, rfl, rfl, rfl, (rtake_nil _).symm⟩
  have htrails : Trails k.toNat j full := hnew.edit hpos edits
  have hnumbered : Record.Numbered j.entries.toList j.nextSeq := numbered_edit edits (.nil 0)
  have hnext : j.nextSeq = Edit.issued recording edits :=
    (nextSeq_edit _ edits).trans (Nat.zero_add _)
  have hsize : j.entries.size = min k.toNat full.entries.size := by
    rw [← Array.length_toList, htrails.entries, rtake, length_drop, Array.length_toList]
    omega
  refine ⟨?_, hsize, by omega, ?_, ?_⟩
  · rw [htrails.entries, rtake, rtake, Array.length_toList]
    congr 1
    omega
  · rw [← hnext]
    exact hnumbered.seqs
  · rw [← hnext]
    exact hnumbered.length

/-- A journal that is stopped for one event and cleared in the middle. -/
def interrupted : List Edit :=
  [.start, .record 0 (.created ⟨1⟩ "echo"), .stop, .record 0 (.sent ⟨1⟩), .start, .clear,
    .record 1 (.sent ⟨1⟩), .record 1 (.scheduled 5 ⟨1⟩), .record 2 (.delivered ⟨1⟩)]

theorem interrupted_tail : (0 : UInt64) < 2 ∧
    ((withLimit false 0).edit interrupted).entries.size = 3 ∧
    ((withLimit false 2).edit interrupted).entries.toList.map (·.seq) = [2, 3] ∧
    ((withLimit false 2).edit interrupted).entries.toList =
      ((withLimit false 0).edit interrupted).entries.toList.rtake 2 := by
  obtain ⟨htail, hsize, -, hseqs, -⟩ := bounded_eq_tail false 2 (by decide) interrupted
  have hcount : ((withLimit false 0).edit interrupted).entries.size = 3 := by decide
  have hmin : min (2 : UInt64).toNat ((withLimit false 0).edit interrupted).entries.size = 2 := by
    rw [hcount]
    rfl
  rw [hmin] at htail hsize
  rw [hsize] at hseqs
  exact ⟨by decide, hcount, hseqs, htail⟩

end Journal

end Troupe
