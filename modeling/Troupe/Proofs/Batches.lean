import Troupe.Proofs.Mailbox

/-!
A run can be cut into batches.

Both loops of a configuration repeat a step until it answers that there was nothing to do, up to a
limit (`Configuration.repeatFrom`). Cutting such a loop at a limit is harmless if a step that found
nothing to do finds nothing to do once more and changes nothing. Dispatching is like that because it
leaves an idle configuration alone. Dispatching after jumping ahead is like that because jumping
ends with something pending or without timers, so the next jump stays where it is.

* `Scheduler.skipAhead_skipAhead`: jumping ahead twice is jumping ahead once.
* `Configuration.repeatFrom_add`: a loop with a limit can be cut anywhere.
* `Configuration.run_add`: both loops of a configuration, batch by batch.
-/

namespace Troupe

open List

namespace Scheduler

variable {M B : Type}

lemma timers_advanceTo (s : Scheduler M B) (time : Millis) :
    (s.advanceTo time).timers = s.timers.dropWhile (·.due ≤ max s.clock.now time) :=
  (s.releases_at (s.clock.advanceTo time)).timers

/-- The timers left once the clock has jumped to the first of a row are among those behind it. -/
lemma timers_advanceTo_suffix {s : Scheduler M B} {t : Timer M} {timers : List (Timer M)}
    (left : s.timers <:+ t :: timers) : (s.advanceTo t.due).timers <:+ timers := by
  rw [timers_advanceTo]
  rcases suffix_cons_iff.1 left with hall | hrest
  · rw [hall, dropWhile_cons_of_pos (by simp)]
    exact dropWhile_suffix _
  · exact (dropWhile_suffix _).trans hrest

/-- Once something is pending the clock stands still. -/
lemma foldl_jump_of_pending {s : Scheduler M B} (pending : s.isIdle ≠ true)
    (timers : List (Timer M)) :
    timers.foldl (fun s t => if s.isIdle then s.advanceTo t.due else s) s = s :=
  foldlRecOn timers _ (motive := (· = s)) rfl fun s' hs' t _ => by rw [hs', if_neg pending]

/-- Jumping along all timers that are left, in their order, ends with something pending or without
timers. -/
lemma timers_eq_nil_of_idle {timers : List (Timer M)} {s : Scheduler M B}
    (left : s.timers <:+ timers)
    (idle : (timers.foldl (fun s t => if s.isIdle then s.advanceTo t.due else s) s).isIdle = true) :
    (timers.foldl (fun s t => if s.isIdle then s.advanceTo t.due else s) s).timers = [] := by
  induction timers generalizing s with
  | nil => exact suffix_nil.1 left
  | cons t timers ih =>
    rw [foldl_cons] at idle ⊢
    by_cases hidle : s.isIdle = true
    · rw [if_pos hidle] at idle ⊢
      exact ih (timers_advanceTo_suffix left) idle
    · rw [if_neg hidle, foldl_jump_of_pending hidle] at idle
      exact absurd idle hidle

/-- Jumping ahead ends with something pending or without timers. -/
lemma timers_skipAhead {s : Scheduler M B} (idle : s.skipAhead.isIdle = true) :
    s.skipAhead.timers = [] := by
  unfold skipAhead at idle ⊢
  split at idle <;> rename_i hidle
  · rw [if_pos hidle]
    exact timers_eq_nil_of_idle (suffix_refl _) idle
  · exact absurd idle hidle

/-- Jumping ahead twice is jumping ahead once. -/
theorem skipAhead_skipAhead (s : Scheduler M B) : s.skipAhead.skipAhead = s.skipAhead := by
  by_cases hidle : s.skipAhead.isIdle = true
  · rw [skipAhead, if_pos hidle, timers_skipAhead hidle, foldl_nil]
  · rw [skipAhead, if_neg hidle]

end Scheduler

namespace Configuration

variable {M B W : Type}

/-- Takes a step as long as there is something to do, `limit` times at most, and counts on from
`count`. -/
def repeatFrom {C : Type} (step : C → Bool × C) (count : Nat) : Nat → C → Nat × C
  | 0, c => (count, c)
  | limit + 1, c =>
    match step c with
    | (true, c) => repeatFrom step (count + 1) limit c
    | (false, c) => (count, c)

section

variable {C : Type} {step : C → Bool × C}

/-- A loop counts its own steps on top of those before it. -/
lemma repeatFrom_count (count limit : Nat) (c : C) :
    repeatFrom step count limit c =
      (count + (repeatFrom step 0 limit c).1, (repeatFrom step 0 limit c).2) := by
  induction limit generalizing count c with
  | zero => rfl
  | succ limit ih =>
    rw [repeatFrom, repeatFrom]
    obtain ⟨more, c'⟩ := step c
    cases more with
    | true =>
      dsimp only
      rw [ih (count + 1), ih (0 + 1), Nat.zero_add, Nat.add_assoc]
    | false => rfl

/-- If a step that found nothing to do finds nothing to do once more and changes nothing, then a
loop with a limit can be cut anywhere. -/
theorem repeatFrom_add (rests : ∀ c, (step c).1 = false → step (step c).2 = step c)
    (count a b : Nat) (c : C) :
    repeatFrom step count (a + b) c =
      repeatFrom step (repeatFrom step count a c).1 b (repeatFrom step count a c).2 := by
  induction a generalizing count c with
  | zero => rw [Nat.zero_add, repeatFrom]
  | succ a ih =>
    have hrests := rests c
    rw [Nat.add_right_comm, repeatFrom, repeatFrom]
    generalize step c = r at hrests
    obtain ⟨more, c'⟩ := r
    cases more with
    | true => exact ih (count + 1) c'
    | false =>
      -- the first batch has ended early, so the second one ends at once
      cases b with
      | zero => rfl
      | succ b =>
        have hagain : step c' = (false, c') := hrests rfl
        dsimp only
        rw [repeatFrom, hagain]

/-- The loop as a whole and its two batches end in one state, with one total. -/
lemma repeatFrom_zero_add (rests : ∀ c, (step c).1 = false → step (step c).2 = step c) (a b : Nat)
    (c : C) :
    repeatFrom step 0 (a + b) c =
      ((repeatFrom step 0 a c).1 + (repeatFrom step 0 b (repeatFrom step 0 a c).2).1,
        (repeatFrom step 0 b (repeatFrom step 0 a c).2).2) := by
  rw [repeatFrom_add rests, repeatFrom_count]

end

variable [Behavior M B W]

/-- Dispatching with nothing pending changes nothing. -/
lemma dispatch_snd_of_fst {c : Configuration M B W} (h : c.dispatch.1 = false) :
    c.dispatch.2 = c := by
  unfold dispatch at h ⊢
  split <;> rename_i hwakeups
  · rw [hwakeups] at h
    cases h
  · split <;> rename_i hqueue
    · rw [hwakeups, hqueue] at h
      cases h
    · rfl

/-- Jumps ahead if nothing is pending, and does one unit of work. -/
def skipDispatch (c : Configuration M B W) : Bool × Configuration M B W :=
  (c.modify (·.skipAhead)).dispatch

lemma dispatch_rests (c : Configuration M B W) (h : c.dispatch.1 = false) :
    c.dispatch.2.dispatch = c.dispatch := by
  rw [dispatch_snd_of_fst h]

lemma skipDispatch_rests (c : Configuration M B W) (h : c.skipDispatch.1 = false) :
    c.skipDispatch.2.skipDispatch = c.skipDispatch := by
  have hstay : c.skipDispatch.2 = c.modify (·.skipAhead) := dispatch_snd_of_fst h
  rw [hstay]
  change ((c.modify (·.skipAhead)).modify (·.skipAhead)).dispatch = _
  have htwice : (c.modify (·.skipAhead)).modify (·.skipAhead) = c.modify (·.skipAhead) := by
    obtain ⟨s, world⟩ := c
    exact congrArg (Configuration.mk · world) s.skipAhead_skipAhead
  rw [htwice]
  rfl

lemma dispatchFrom_eq (count limit : Nat) (c : Configuration M B W) :
    dispatchFrom count limit c = repeatFrom dispatch count limit c := by
  induction limit generalizing count c with
  | zero => rfl
  | succ limit ih =>
    rw [dispatchFrom, repeatFrom]
    obtain ⟨more, c'⟩ := c.dispatch
    cases more with
    | true => exact ih _ _
    | false => rfl

lemma runIdleFrom_eq (count limit : Nat) (c : Configuration M B W) :
    runIdleFrom count limit c = repeatFrom skipDispatch count limit c := by
  induction limit generalizing count c with
  | zero => rfl
  | succ limit ih =>
    rw [runIdleFrom, repeatFrom, skipDispatch]
    obtain ⟨more, c'⟩ := (c.modify (·.skipAhead)).dispatch
    cases more with
    | true => exact ih _ _
    | false => rfl

/-- Running until idle and dispatching can be cut into batches: two batches end in the state in
which one batch with the sum of their limits ends, and count as many dispatches. -/
theorem run_add (a b : Nat) (c : Configuration M B W) :
    c.runUntilIdle (a + b) =
      ((c.runUntilIdle a).1 + ((c.runUntilIdle a).2.runUntilIdle b).1,
        ((c.runUntilIdle a).2.runUntilIdle b).2) ∧
    c.dispatchLoop (a + b) =
      ((c.dispatchLoop a).1 + ((c.dispatchLoop a).2.dispatchLoop b).1,
        ((c.dispatchLoop a).2.dispatchLoop b).2) := by
  simp only [runUntilIdle, dispatchLoop, runIdleFrom_eq, dispatchFrom_eq]
  exact ⟨repeatFrom_zero_add skipDispatch_rests a b c, repeatFrom_zero_add dispatch_rests a b c⟩

end Configuration

end Troupe
