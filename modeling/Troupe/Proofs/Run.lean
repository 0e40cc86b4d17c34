import Mathlib.Order.Filter.AtTopBot.Basic
import Mathlib.Tactic.Common
import Troupe.Proofs.Request
import Troupe.Task

/-!
Runs without fuel.

`Evaluation.advance`, `Task.sweep`, `Task.sweepAll` and `Task.rounds` bound their nested steps by
fuel. What they do when the fuel is enough is stated here as relations, one rule for each way a run
can go, so that later proofs are inductions over runs.

* `Evaluation.Run cx who e s log e' s'`: run by `who`, the evaluation `e` gets to `e'` and the store
  from `s` to `s'`, and `log` is what it asks of its transaction on the way, in order.
  `Evaluation.run_of_advance`, `Evaluation.Run.advance`: exactly what `advance` answers, given
  enough fuel. `Evaluation.Run.closed`: what holds of every step (`Evaluation.Closed`) holds of a
  run.
* `Task.Sweep`, `Task.SweepAll`, `Task.Rounds`, and `Task.Poll` for a whole run of a task, with
  `Task.advance_of_poll`, `Task.poll_of_advance` and `Task.Poll.closed`.
-/

namespace Troupe

open Evaluation

variable {g : Goal} {e e' : Evaluation g} {s s' : Store} {who : Waiter} {fuel : Nat} {cx : Context}
  {t t' : Task g} {log : List Request}

open Filter (atTop)

namespace Evaluation

/-- The evaluation has not finished. -/
def Waits {g : Goal} (e : Evaluation g) : Prop := e.answer? = none

@[simp] lemma not_waits_done (r : g.Result) : ¬ (done r).Waits := by
  simp [Waits, answer?]

/-- An evaluation waits or has finished. -/
lemma waits_or_done (e : Evaluation g) : e.Waits ∨ ∃ r, e = .done r := by
  cases e with
  | done r => exact .inr ⟨r, rfl⟩
  | _ => exact .inl rfl

lemma waits_of_ne (h : ∀ r, e ≠ .done r) : e.Waits :=
  e.waits_or_done.resolve_right fun ⟨r, hr⟩ => h r hr

/-- Run by `who`, the evaluation `e` gets to `e'` and the store from `s` to `s'`; the log lists what
is asked of the transaction. -/
inductive Run (cx : Context) (who : Waiter) :
    {g : Goal} → Evaluation g → Store → List Request → Evaluation g → Store → Prop where
  | done {g : Goal} (r : g.Result) (s : Store) : Run cx who (.done r) s [] (.done r) s
  | start {g : Goal} {job : Job g} {e e' : Evaluation g} {s s1 s' : Store} {log : List Request}
      (begun : job.begin cx s = (e, s1)) (rest : Run cx who e s1 log e' s') :
      Run cx who (.start job) s (job.requests s ++ log) e' s'
  | read {slot : Nat} {s : Store} {v : Value} (bound : s.heap.slot? slot = some v) :
      Run cx who (.parked slot) s [] (.done v) s
  | park {slot : Nat} {s : Store} (unbound : s.heap.slot? slot = none) :
      Run cx who (.parked slot) s [] (.parked slot) { s with heap := s.heap.park slot who }
  | answer {g : Goal} {ticket : Nat} {s s' : Store} {a : Answer}
      (given : s.readAnswer cx.task ticket who = (some a, s')) :
      Run cx who (.awaiting ticket) s [] (.done (a.get g)) s'
  | await {g : Goal} {ticket : Nat} {s s' : Store}
      (pending : s.readAnswer cx.task ticket who = (none, s')) :
      Run cx who (.awaiting (g := g) ticket) s [] (.awaiting ticket) s'
  | one {g h : Goal} {part : Evaluation g} {frame : Frame g h} {r : g.Result} {e e' : Evaluation h}
      {s s1 s2 s' : Store} {log log' : List Request}
      (finished : Run cx who part s log (.done r) s1)
      (resumed : frame.resume r cx s1 = (e, s2)) (rest : Run cx who e s2 log' e' s') :
      Run cx who (.one part frame) s (log ++ (frame.requests r s1 ++ log')) e' s'
  | oneWaits {g h : Goal} {part part' : Evaluation g} {frame : Frame g h} {s s' : Store}
      {log : List Request} (run : Run cx who part s log part' s') (waits : part'.Waits) :
      Run cx who (.one part frame) s log (.one part' frame) s'
  | both {g h : Goal} {left right : Evaluation g} {join : Join g h} {a b : g.Result}
      {e e' : Evaluation h} {s s1 s2 s3 s' : Store} {log log' log'' : List Request}
      (first : Run cx who left s log (.done a) s1)
      (second : Run cx who right s1 log' (.done b) s2)
      (resumed : join.resume a b cx s2 = (e, s3)) (rest : Run cx who e s3 log'' e' s') :
      Run cx who (.both left right join) s (log ++ (log' ++ (join.requests a b ++ log''))) e' s'
  | bothWait {g h : Goal} {left left' right right' : Evaluation g} {join : Join g h}
      {s s1 s' : Store} {log log' : List Request} (first : Run cx who left s log left' s1)
      (second : Run cx who right s1 log' right' s') (waits : left'.Waits ∨ right'.Waits) :
      Run cx who (.both left right join) s (log ++ log') (.both left' right' join) s'
  /-- The left statement fails. -/
  | raceLeftFails {left right : Evaluation .outcome} {s s' : Store} {log : List Request}
      (fails : Run cx who left s log (.done .fail) s') :
      Run cx who (.race left right) s log (.done .fail) s'
  /-- The left statement waits and the right one fails. -/
  | raceRightFails {left left' right : Evaluation .outcome} {s s1 s' : Store}
      {log log' : List Request} (first : Run cx who left s log left' s1) (waits : left'.Waits)
      (unfinished : right.Waits) (fails : Run cx who right s1 log' (.done .fail) s') :
      Run cx who (.race left right) s (log ++ log') (.done .fail) s'
  /-- Both statements finish. -/
  | race {left right e : Evaluation .outcome} {a b : Outcome} {s s1 s2 s' : Store}
      {log log' : List Request} (first : Run cx who left s log (.done a) s1) (sound : a ≠ .fail)
      (second : Run cx who right s1 log' (.done b) s2) (joined : a.join b cx s2 = (e, s')) :
      Run cx who (.race left right) s (log ++ (log' ++ a.requests b)) e s'
  /-- The right statement finishes, and then the left one, which had to wait before. -/
  | raceAgain {left left' right e : Evaluation .outcome} {a b : Outcome} {s s1 s2 s3 s' : Store}
      {log log' log'' : List Request} (first : Run cx who left s log left' s1)
      (waits : left'.Waits) (unfinished : right.Waits)
      (second : Run cx who right s1 log' (.done b) s2) (sound : b ≠ .fail)
      (again : Run cx who left' s2 log'' (.done a) s3) (joined : a.join b cx s3 = (e, s')) :
      Run cx who (.race left right) s (log ++ (log' ++ (log'' ++ a.requests b))) e s'
  /-- The right statement waits, and the left one does not fail. -/
  | raceRightWaits {left left' right right' : Evaluation .outcome} {s s1 s' : Store}
      {log log' : List Request} (first : Run cx who left s log left' s1)
      (sound : left' ≠ .done .fail) (second : Run cx who right s1 log' right' s')
      (waits : right'.Waits) :
      Run cx who (.race left right) s (log ++ log') (.race left' right') s'
  /-- The right statement had finished before; the left one waits. -/
  | raceLeftWaits {left left' : Evaluation .outcome} {b : Outcome} {s s' : Store}
      {log : List Request} (first : Run cx who left s log left' s') (waits : left'.Waits) :
      Run cx who (.race left (.done b)) s log (.race left' (.done b)) s'
  /-- The right statement finishes, and the left one waits twice. -/
  | raceWaitsAgain {left left' left'' right : Evaluation .outcome} {b : Outcome}
      {s s1 s2 s' : Store} {log log' log'' : List Request}
      (first : Run cx who left s log left' s1) (waits : left'.Waits) (unfinished : right.Waits)
      (second : Run cx who right s1 log' (.done b) s2) (sound : b ≠ .fail)
      (again : Run cx who left' s2 log'' left'' s') (stillWaits : left''.Waits) :
      Run cx who (.race left right) s (log ++ (log' ++ log'')) (.race left'' (.done b)) s'

/-- A relation that holds of every single step of `who`, in every place of a tree, and of two steps
one after the other. -/
structure Closed (cx : Context) (who : Waiter)
    (S : {g : Goal} → Evaluation g → Store → List Request → Evaluation g → Store →
      Prop) : Prop where
  refl {g : Goal} (e : Evaluation g) (s : Store) : S e s [] e s
  trans {g : Goal} {e e1 e' : Evaluation g} {s s1 s' : Store} {log log' : List Request}
    (first : S e s log e1 s1) (second : S e1 s1 log' e' s') : S e s (log ++ log') e' s'
  start {g : Goal} (job : Job g) (s : Store) :
    S (.start job) s (job.requests s) (job.begin cx s).1 (job.begin cx s).2
  read {slot : Nat} {s : Store} {v : Value} (bound : s.heap.slot? slot = some v) :
    S (.parked slot) s [] (.done v) s
  park {slot : Nat} {s : Store} (unbound : s.heap.slot? slot = none) :
    S (.parked slot) s [] (.parked slot) { s with heap := s.heap.park slot who }
  answer {g : Goal} {ticket : Nat} {s s' : Store} {a : Answer}
    (given : s.readAnswer cx.task ticket who = (some a, s')) :
    S (.awaiting ticket) s [] (.done (a.get g)) s'
  await {g : Goal} {ticket : Nat} {s s' : Store}
    (pending : s.readAnswer cx.task ticket who = (none, s')) :
    S (.awaiting (g := g) ticket) s [] (.awaiting ticket) s'
  resume {g h : Goal} (frame : Frame g h) (r : g.Result) (s : Store) :
    S (.one (.done r) frame) s (frame.requests r s) (frame.resume r cx s).1 (frame.resume r cx s).2
  join {g h : Goal} (join : Join g h) (a b : g.Result) (s : Store) :
    S (.both (.done a) (.done b) join) s (join.requests a b) (join.resume a b cx s).1
      (join.resume a b cx s).2
  merge (a b : Outcome) (s : Store) :
    S (.race (.done a) (.done b)) s (a.requests b) (a.join b cx s).1 (a.join b cx s).2
  failLeft (right : Evaluation .outcome) (s : Store) :
    S (.race (.done .fail) right) s [] (.done .fail) s
  failRight (left : Evaluation .outcome) (s : Store) :
    S (.race left (.done .fail)) s [] (.done .fail) s
  one {g h : Goal} {e e' : Evaluation g} {s s' : Store} {log : List Request} (frame : Frame g h)
    (part : S e s log e' s') : S (.one e frame) s log (.one e' frame) s'
  bothLeft {g h : Goal} {e e' : Evaluation g} {s s' : Store} {log : List Request}
    (right : Evaluation g) (join : Join g h) (left : S e s log e' s') :
    S (.both e right join) s log (.both e' right join) s'
  bothRight {g h : Goal} {e e' : Evaluation g} {s s' : Store} {log : List Request}
    (left : Evaluation g) (join : Join g h) (right : S e s log e' s') :
    S (.both left e join) s log (.both left e' join) s'
  raceLeft {e e' : Evaluation .outcome} {s s' : Store} {log : List Request}
    (right : Evaluation .outcome) (left : S e s log e' s') :
    S (.race e right) s log (.race e' right) s'
  raceRight {e e' : Evaluation .outcome} {s s' : Store} {log : List Request}
    (left : Evaluation .outcome) (right : S e s log e' s') :
    S (.race left e) s log (.race left e') s'

/-- A run takes one step after the other. -/
theorem Run.closed {S : {g : Goal} → Evaluation g → Store → List Request →
    Evaluation g → Store → Prop}
    (h : Run cx who e s log e' s') (hS : Closed cx who S) : S e s log e' s' := by
  induction h with
  | done r s => exact hS.refl _ s
  | @start g job e e' s s1 s' log begun _ ih =>
    have hstart := hS.start job s
    rw [begun] at hstart
    exact hS.trans hstart ih
  | read bound => exact hS.read bound
  | park unbound => exact hS.park unbound
  | answer given => exact hS.answer given
  | await pending => exact hS.await pending
  | @one g h part frame r e e' s s1 s2 s' log log' _ resumed _ ih1 ih2 =>
    have hresume := hS.resume frame r s1
    rw [resumed] at hresume
    exact hS.trans (hS.one frame ih1) (hS.trans hresume ih2)
  | oneWaits _ _ ih => exact hS.one _ ih
  | @both g h left right join a b e e' s s1 s2 s3 s' log log' log'' _ _ resumed _ ih1 ih2 ih3 =>
    have hresume := hS.join join a b s2
    rw [resumed] at hresume
    exact hS.trans (hS.bothLeft _ _ ih1) (hS.trans (hS.bothRight _ _ ih2) (hS.trans hresume ih3))
  | bothWait _ _ _ ih1 ih2 => exact hS.trans (hS.bothLeft _ _ ih1) (hS.bothRight _ _ ih2)
  | @raceLeftFails left right s s' log _ ih =>
    have hfail := hS.trans (hS.raceLeft right ih) (hS.failLeft right s')
    rwa [List.append_nil] at hfail
  | @raceRightFails left left' right s s1 s' log log' _ _ _ _ ih1 ih2 =>
    have hfail := hS.trans (hS.raceRight left' ih2) (hS.failRight left' s')
    rw [List.append_nil] at hfail
    exact hS.trans (hS.raceLeft right ih1) hfail
  | @race left right e a b s s1 s2 s' log log' _ _ _ joined ih1 ih2 =>
    have hmerge := hS.merge a b s2
    rw [joined] at hmerge
    exact hS.trans (hS.raceLeft _ ih1) (hS.trans (hS.raceRight _ ih2) hmerge)
  | @raceAgain left left' right e a b s s1 s2 s3 s' log log' log'' _ _ _ _ _ _ joined ih1 ih2 ih3 =>
    have hmerge := hS.merge a b s3
    rw [joined] at hmerge
    have hagain := hS.trans (hS.raceLeft _ ih3) hmerge
    exact hS.trans (hS.raceLeft _ ih1) (hS.trans (hS.raceRight _ ih2) hagain)
  | raceRightWaits _ _ _ _ ih1 ih2 => exact hS.trans (hS.raceLeft _ ih1) (hS.raceRight _ ih2)
  | raceLeftWaits _ _ ih => exact hS.raceLeft _ ih
  | raceWaitsAgain _ _ _ _ _ _ _ ih1 ih2 ih3 =>
    exact hS.trans (hS.raceLeft _ ih1) (hS.trans (hS.raceRight _ ih2) (hS.raceLeft _ ih3))

/-- What `advance` answers is a run. -/
theorem run_of_advance (fuel : Nat) (h : advance cx who fuel e s = some (e', s')) :
    ∃ log, Run cx who e s log e' s' := by
  fun_induction advance cx who fuel e s generalizing s'
  case case3 begun ih =>
    obtain ⟨_, hrest⟩ := ih h
    exact ⟨_, .start begun hrest⟩
  case case9 resumed ih ih' =>
    obtain ⟨_, hpart⟩ := ih ‹_›
    obtain ⟨_, hrest⟩ := ih' h
    exact ⟨_, .one hpart resumed hrest⟩
  case case13 resumed _ _ ih ih' ih'' =>
    obtain ⟨_, hleft⟩ := ih ‹_›
    obtain ⟨_, hright⟩ := ih' ‹_›
    obtain ⟨_, hrest⟩ := ih'' h
    exact ⟨_, .both hleft hright resumed hrest⟩
  case case18 sound _ _ _ _ ih ih' =>
    obtain ⟨_, hleft⟩ := ih ‹_›
    obtain ⟨_, hright⟩ := ih' ‹_›
    exact ⟨_, .race hleft sound hright (Option.some.inj h)⟩
  case case24 waits _ _ unfinished _ _ sound _ _ _ _ ih ih' ih'' =>
    obtain ⟨_, hleft⟩ := ih ‹_›
    obtain ⟨_, hright⟩ := ih' ‹_›
    obtain ⟨_, hagain⟩ := ih'' ‹_›
    exact ⟨_, .raceAgain hleft (waits_of_ne waits) (waits_of_ne unfinished) hright sound hagain
      (Option.some.inj h)⟩
  all_goals cases h
  case case2 => exact ⟨_, .done ..⟩
  case case4 bound => exact ⟨_, .read bound⟩
  case case5 unbound => exact ⟨_, .park unbound⟩
  case case6 given => exact ⟨_, .answer given⟩
  case case7 pending => exact ⟨_, .await pending⟩
  case case10 waits _ _ ih =>
    obtain ⟨_, hpart⟩ := ih ‹_›
    exact ⟨_, .oneWaits hpart (waits_of_ne waits)⟩
  case case14 l r unfinished _ _ _ ih ih' =>
    obtain ⟨_, hleft⟩ := ih ‹_›
    obtain ⟨_, hright⟩ := ih' ‹_›
    refine ⟨_, .bothWait hleft hright ?_⟩
    rcases l.waits_or_done with hw | ⟨a, rfl⟩
    · exact .inl hw
    · exact .inr (waits_of_ne fun b hb => unfinished a b rfl hb)
  case case16 ih =>
    obtain ⟨_, hleft⟩ := ih ‹_›
    exact ⟨_, .raceLeftFails hleft⟩
  case case19 sound _ _ _ waits _ ih ih' =>
    obtain ⟨_, hleft⟩ := ih ‹_›
    obtain ⟨_, hright⟩ := ih' ‹_›
    exact ⟨_, .raceRightWaits hleft (by simpa using sound) hright (waits_of_ne waits)⟩
  case case20 waits _ _ ih =>
    obtain ⟨_, hleft⟩ := ih ‹_›
    exact ⟨_, .raceLeftWaits hleft (waits_of_ne waits)⟩
  case case22 waits _ _ unfinished _ _ ih ih' =>
    obtain ⟨_, hleft⟩ := ih ‹_›
    obtain ⟨_, hright⟩ := ih' ‹_›
    exact ⟨_, .raceRightFails hleft (waits_of_ne waits) (waits_of_ne unfinished) hright⟩
  case case25 waits _ _ unfinished _ _ sound _ _ _ stillWaits _ ih ih' ih'' =>
    obtain ⟨_, hleft⟩ := ih ‹_›
    obtain ⟨_, hright⟩ := ih' ‹_›
    obtain ⟨_, hagain⟩ := ih'' ‹_›
    exact ⟨_, .raceWaitsAgain hleft (waits_of_ne waits) (waits_of_ne unfinished) hright sound hagain
      (waits_of_ne stillWaits)⟩
  case case26 fails _ _ _ _ _ _ waits _ ih ih' =>
    obtain ⟨_, hleft⟩ := ih ‹_›
    obtain ⟨_, hright⟩ := ih' ‹_›
    exact ⟨_, .raceRightWaits hleft (fails _) hright (waits_of_ne waits)⟩

/-- Once the left statement has finished without failing, the right one decides. -/
lemma advance_race_done {left right : Evaluation .outcome} {a : Outcome} {s1 : Store}
    (sound : a ≠ .fail) (h : advance cx who fuel left s = some (.done a, s1)) :
    advance cx who (fuel + 1) (.race left right) s =
      match advance cx who fuel right s1 with
      | none => none
      | some (.done b, s) => some (a.join b cx s)
      | some (right, s) => some (.race (.done a) right, s) := by
  rw [advance, h]
  cases a with
  | fail => exact absurd rfl sound
  | _ => rfl

/-- While the left statement waits, the right one is run, and may fail or let the left one go on. -/
lemma advance_race_waits {left left' right : Evaluation .outcome} {s1 : Store} (waits : left'.Waits)
    (unfinished : right.Waits) (h : advance cx who fuel left s = some (left', s1)) :
    advance cx who (fuel + 1) (.race left right) s =
      match advance cx who fuel right s1 with
      | none => none
      | some (.done .fail, s) => some (.done .fail, s)
      | some (.done b, s) =>
        match advance cx who fuel left' s with
        | none => none
        | some (.done a, s) => some (a.join b cx s)
        | some (left, s) => some (.race left (.done b), s)
      | some (right, s) => some (.race left' right, s) := by
  rw [advance, h]
  cases left' with
  | done a => exact absurd waits (not_waits_done a)
  | _ =>
    cases right with
    | done b => exact absurd unfinished (not_waits_done b)
    | _ => rfl

/-- What takes one step more than enough fuel for its parts. -/
lemma eventually_of_succ {p : Nat → Prop} (h : ∀ᶠ n in atTop, p (n + 1)) : ∀ᶠ n in atTop, p n := by
  obtain ⟨n, hn⟩ := Filter.eventually_atTop.1 h
  refine Filter.eventually_atTop.2 ⟨n + 1, fun m hm => ?_⟩
  obtain ⟨k, rfl⟩ := Nat.exists_eq_add_of_le' hm
  exact hn (k + n) (Nat.le_add_left n k)

/-- Every run is what `advance` answers, given enough fuel. -/
theorem Run.advance (h : Run cx who e s log e' s') :
    ∀ᶠ fuel in atTop, e.advance cx who fuel s = some (e', s') := by
  induction h with
  | done r s => exact eventually_of_succ (.of_forall fun _ => rfl)
  | start begun _ ih =>
    refine eventually_of_succ (ih.mono fun n hn => ?_)
    rwa [Evaluation.advance, begun]
  | read found | park found | answer found | await found =>
    exact eventually_of_succ (.of_forall fun n => by rw [Evaluation.advance, found])
  | one _ resumed _ ih1 ih2 =>
    refine eventually_of_succ ?_
    filter_upwards [ih1, ih2] with n hn hm
    rw [Evaluation.advance, hn]
    simp only [resumed]
    exact hm
  | @oneWaits g h part part' frame s s' log _ waits ih =>
    refine eventually_of_succ (ih.mono fun n hn => ?_)
    rw [Evaluation.advance, hn]
    cases part' with
    | done r => exact absurd waits (not_waits_done r)
    | _ => rfl
  | both _ _ resumed _ ih1 ih2 ih3 =>
    refine eventually_of_succ ?_
    filter_upwards [ih1, ih2, ih3] with n hn hm hk
    rw [Evaluation.advance, hn]
    simp only [hm, resumed]
    exact hk
  | @bothWait g h left left' right right' join s s1 s' log log' _ _ waits ih1 ih2 =>
    refine eventually_of_succ ?_
    filter_upwards [ih1, ih2] with n hn hm
    rw [Evaluation.advance, hn]
    simp only [hm]
    split
    · simp at waits
    · rfl
  | raceLeftFails _ ih =>
    exact eventually_of_succ (ih.mono fun n hn => by rw [Evaluation.advance, hn])
  | @raceRightFails left left' right s s1 s' log log' _ waits unfinished _ ih1 ih2 =>
    refine eventually_of_succ ?_
    filter_upwards [ih1, ih2] with n hn hm
    rw [advance_race_waits waits unfinished hn, hm]
  | @race left right e a b s s1 s2 s' log log' _ sound _ joined ih1 ih2 =>
    refine eventually_of_succ ?_
    filter_upwards [ih1, ih2] with n hn hm
    rw [advance_race_done sound hn, hm]
    simp only [joined]
  | @raceAgain left left' right e a b s s1 s2 s3 s' log log' log'' _ waits unfinished _ sound _
      joined ih1 ih2 ih3 =>
    refine eventually_of_succ ?_
    filter_upwards [ih1, ih2, ih3] with n hn hm hk
    rw [advance_race_waits waits unfinished hn, hm]
    simp only [hk, joined]
  | @raceRightWaits left left' right right' s s1 s' log log' _ sound hr waits ih1 ih2 =>
    refine eventually_of_succ ?_
    filter_upwards [ih1, ih2] with n hn hm
    rcases left'.waits_or_done with hw | ⟨a, rfl⟩
    · have hunf : right.Waits := waits_of_ne fun b hb => by
        subst hb
        cases hr
        exact not_waits_done b waits
      rw [advance_race_waits hw hunf hn, hm]
      cases right' with
      | done b => exact absurd waits (not_waits_done b)
      | _ => rfl
    · rw [advance_race_done (by simpa using sound) hn, hm]
      cases right' with
      | done b => exact absurd waits (not_waits_done b)
      | _ => rfl
  | @raceLeftWaits left left' b s s' log _ waits ih =>
    refine eventually_of_succ (ih.mono fun n hn => ?_)
    rw [Evaluation.advance, hn]
    cases left' with
    | done a => exact absurd waits (not_waits_done a)
    | _ => rfl
  | @raceWaitsAgain left left' left'' right b s s1 s2 s' log log' log'' _ waits unfinished _ sound _
      stillWaits ih1 ih2 ih3 =>
    refine eventually_of_succ ?_
    filter_upwards [ih1, ih2, ih3] with n hn hm hk
    rw [advance_race_waits waits unfinished hn, hm]
    simp only [hk]
    cases left'' with
    | done a => exact absurd stillWaits (not_waits_done a)
    | _ => rfl

end Evaluation

namespace Task

/-- A pass over the ready queue: `true` if it ends with a piece that finishes. -/
inductive Sweep (cx : Context) (total : Nat) :
    Nat → Nat → Store → List Request → Bool → Store → Prop where
  | empty {ran yielded : Nat} {s s' : Store} (none_ready : s.nextReady cx.task = (none, s')) :
      Sweep cx total ran yielded s [] false s'
  /-- The piece has finished or was dropped. -/
  | skip {ran yielded ticket : Nat} {s s1 s2 s' : Store} {log : List Request} {b : Bool}
      (popped : s.nextReady cx.task = (some ticket, s1))
      (idle : s1.takeWork cx.task ticket = (none, s2))
      (rest : Sweep cx total ran yielded s2 log b s') : Sweep cx total ran yielded s log b s'
  | finish {ran yielded ticket : Nat} {s s1 s2 s3 : Store} {log : List Request} {g : Goal}
      {e : Evaluation g} {r : g.Result} (popped : s.nextReady cx.task = (some ticket, s1))
      (taken : s1.takeWork cx.task ticket = (some ⟨g, e⟩, s2))
      (run : e.Run cx (.piece cx.task ticket) s2 log (.done r) s3) :
      Sweep cx total ran yielded s log true (s3.finish cx.task ticket ⟨g, r⟩)
  /-- The others have to wait for the next round. -/
  | yield {ran yielded ticket : Nat} {s s1 s2 s3 s4 : Store} {log : List Request} {g : Goal}
      {e e' : Evaluation g} {woken : Bool} (popped : s.nextReady cx.task = (some ticket, s1))
      (taken : s1.takeWork cx.task ticket = (some ⟨g, e⟩, s2))
      (run : e.Run cx (.piece cx.task ticket) s2 log e' s3) (waits : e'.Waits)
      (back : s3.putBack cx.task ticket ⟨g, e'⟩ = (woken, s4))
      (enough : 2 ≤ (if woken then yielded + 1 else yielded) ∨ ran + 1 = total) :
      Sweep cx total ran yielded s log false (s4.wakeTask cx.task)
  | next {ran yielded ticket : Nat} {s s1 s2 s3 s4 s' : Store} {log log' : List Request} {g : Goal}
      {e e' : Evaluation g} {woken b : Bool} (popped : s.nextReady cx.task = (some ticket, s1))
      (taken : s1.takeWork cx.task ticket = (some ⟨g, e⟩, s2))
      (run : e.Run cx (.piece cx.task ticket) s2 log e' s3) (waits : e'.Waits)
      (back : s3.putBack cx.task ticket ⟨g, e'⟩ = (woken, s4))
      (more : ¬ (2 ≤ (if woken then yielded + 1 else yielded) ∨ ran + 1 = total))
      (rest : Sweep cx total (ran + 1) (if woken then yielded + 1 else yielded) s4 log' b s') :
      Sweep cx total ran yielded s (log ++ log') b s'

/-- Passes as long as pieces finish. -/
inductive SweepAll (cx : Context) : Store → List Request → Store → Prop where
  | last {total : Nat} {s s1 s' : Store} {log : List Request}
      (armed : s.arm cx.task = (total, s1)) (pass : Sweep cx total 0 0 s1 log false s') :
      SweepAll cx s log s'
  | more {total : Nat} {s s1 s2 s' : Store} {log log' : List Request}
      (armed : s.arm cx.task = (total, s1)) (pass : Sweep cx total 0 0 s1 log true s2)
      (rest : SweepAll cx s2 log' s') : SweepAll cx s (log ++ log') s'

/-- The task was told something, or something was detached. -/
def Astir (cx : Context) (s : Store) : Prop :=
  (s.agenda cx.task).woken = true ∨ (s.agenda cx.task).waiting ≠ 0

/-- Rounds until the main evaluation has finished or nothing moves any more. -/
inductive Rounds (cx : Context) {g : Goal} :
    Evaluation g → Store → List Request → Evaluation g → Store → Prop where
  | finish {e : Evaluation g} {r : g.Result} {s s1 s' : Store} {log log' : List Request}
      (swept : SweepAll cx (s.enlist cx.task) log s1)
      (run : e.Run cx (.task cx.task) s1 log' (.done r) s') :
      Rounds cx e s (log ++ log') (.done r) s'
  | wait {e e' : Evaluation g} {s s1 s' : Store} {log log' : List Request}
      (swept : SweepAll cx (s.enlist cx.task) log s1)
      (run : e.Run cx (.task cx.task) s1 log' e' s') (waits : e'.Waits) (still : ¬ Astir cx s') :
      Rounds cx e s (log ++ log') e' s'
  | again {e e1 e' : Evaluation g} {s s1 s2 s' : Store} {log log' log'' : List Request}
      (swept : SweepAll cx (s.enlist cx.task) log s1)
      (run : e.Run cx (.task cx.task) s1 log' e1 s2) (waits : e1.Waits) (astir : Astir cx s2)
      (rest : Rounds cx e1 s2 log'' e' s') : Rounds cx e s (log ++ (log' ++ log'')) e' s'

/-- A whole run of a task. -/
def Poll {g : Goal} (t : Task g) (s : Store) (log : List Request) (t' : Task g) (s' : Store) :
    Prop :=
  ∃ s1, Rounds t.context t.main (running t.context true s) log t'.main s1 ∧
    t'.context = t.context ∧ s' = running t.context false s1

lemma Poll.context (h : Poll t s log t' s') : t'.context = t.context := by
  obtain ⟨_, _, hcontext, _⟩ := h
  exact hcontext

/-- A relation that holds of every single thing a task does, and of one after the other: of its main
evaluation and the store before and after that, and of what is asked of the transaction. -/
structure Closed (cx : Context)
    (S : Evaluation g → Store → List Request → Evaluation g → Store → Prop) : Prop where
  refl (e : Evaluation g) (s : Store) : S e s [] e s
  trans {e e1 e' : Evaluation g} {s s1 s' : Store} {log log' : List Request}
    (first : S e s log e1 s1) (second : S e1 s1 log' e' s') : S e s (log ++ log') e' s'
  flag (e : Evaluation g) (s : Store) (armed running : Agenda → Bool) :
    S e s [] e (s.modifyAgenda cx.task fun a => { a with armed := armed a, running := running a })
  wake (e : Evaluation g) (s : Store) : S e s [] e (s.wakeTask cx.task)
  enlist (e : Evaluation g) (s : Store) : S e s [] e (s.enlist cx.task)
  skip {main : Evaluation g} {ticket : Nat} {s s1 s2 : Store}
    (popped : s.nextReady cx.task = (some ticket, s1))
    (idle : s1.takeWork cx.task ticket = (none, s2)) : S main s [] main s2
  finish {main : Evaluation g} {ticket : Nat} {s s1 s2 s3 : Store} {log : List Request} {k : Goal}
    {e : Evaluation k} {r : k.Result} (popped : s.nextReady cx.task = (some ticket, s1))
    (taken : s1.takeWork cx.task ticket = (some ⟨k, e⟩, s2))
    (run : e.Run cx (.piece cx.task ticket) s2 log (.done r) s3) :
    S main s log main (s3.finish cx.task ticket ⟨k, r⟩)
  back {main : Evaluation g} {ticket : Nat} {s s1 s2 s3 : Store} {log : List Request} {k : Goal}
    {e e' : Evaluation k} (popped : s.nextReady cx.task = (some ticket, s1))
    (taken : s1.takeWork cx.task ticket = (some ⟨k, e⟩, s2))
    (run : e.Run cx (.piece cx.task ticket) s2 log e' s3) (waits : e'.Waits) :
    S main s log main (s3.putBack cx.task ticket ⟨k, e'⟩).2
  main {e e' : Evaluation g} {s s' : Store} {log : List Request}
    (run : e.Run cx (.task cx.task) s log e' s') : S e s log e' s'

section Closed

variable {S : Evaluation g → Store → List Request → Evaluation g → Store → Prop}

lemma Closed.lead (hS : Closed cx S) {e1 : Evaluation g} {s1 : Store} (first : S e s [] e1 s1)
    (second : S e1 s1 log e' s') : S e s log e' s' :=
  hS.trans first second

lemma Closed.mute (hS : Closed cx S) {e1 : Evaluation g} {s1 : Store} (first : S e s log e1 s1)
    (second : S e1 s1 [] e' s') : S e s log e' s' :=
  List.append_nil log ▸ hS.trans first second

lemma Sweep.closed (hS : Closed cx S) {total ran yielded : Nat} {b : Bool}
    (h : Sweep cx total ran yielded s log b s') (main : Evaluation g) : S main s log main s' := by
  induction h with
  | empty none_ready =>
    obtain ⟨-, rfl⟩ := Store.nextReady_none none_ready
    exact hS.refl main _
  | skip popped idle _ ih => exact hS.lead (hS.skip popped idle) ih
  | finish popped taken run => exact hS.finish popped taken run
  | yield popped taken run waits back _ =>
    cases back
    exact hS.mute (hS.back popped taken run waits) (hS.wake main _)
  | next popped taken run waits back _ _ ih =>
    cases back
    exact hS.trans (hS.back popped taken run waits) ih

lemma SweepAll.closed (hS : Closed cx S) (h : SweepAll cx s log s') (main : Evaluation g) :
    S main s log main s' := by
  induction h with
  | last armed pass =>
    cases armed
    exact hS.lead (hS.flag main _ (fun _ => true) (·.running)) (pass.closed hS main)
  | more armed pass _ ih =>
    cases armed
    exact hS.lead (hS.flag main _ (fun _ => true) (·.running)) (hS.trans (pass.closed hS main) ih)

lemma Rounds.closed (hS : Closed cx S) (h : Rounds cx e s log e' s') : S e s log e' s' := by
  -- one round: the pieces are swept, and then the main evaluation is run
  have hround : ∀ {e e' : Evaluation g} {s s1 s' : Store} {log log' : List Request},
      SweepAll cx (s.enlist cx.task) log s1 → e.Run cx (.task cx.task) s1 log' e' s' →
        S e s (log ++ log') e' s' := fun {e} _ {s} _ _ _ _ swept run =>
    hS.lead (hS.enlist e s) (hS.trans (swept.closed hS e) (hS.main run))
  induction h with
  | finish swept run | wait swept run _ _ => exact hround swept run
  | again swept run _ _ _ ih =>
    rw [← List.append_assoc]
    exact hS.trans (hround swept run) ih

/-- What holds of every single thing a task does holds of its runs. -/
theorem Poll.closed (h : Poll t s log t' s') (hS : Closed t.context S) :
    S t.main s log t'.main s' := by
  obtain ⟨s1, hrounds, _, rfl⟩ := h
  exact hS.lead (hS.flag t.main s (·.armed) fun _ => true)
    (hS.mute (hrounds.closed hS) (hS.flag t'.main s1 (·.armed) fun _ => false))

end Closed

/-! ### From fuel to runs -/

/-- What `sweep` answers is a pass. -/
lemma sweep_sound {total ran yielded : Nat} {b : Bool} (fuel : Nat)
    (h : sweep cx total fuel ran yielded s = some (b, s')) :
    ∃ log, Sweep cx total ran yielded s log b s' := by
  fun_induction sweep cx total fuel ran yielded s
  case case3 popped _ idle ih =>
    obtain ⟨_, hrest⟩ := ih h
    exact ⟨_, .skip popped idle hrest⟩
  case case7 popped _ _ _ taken _ _ waits run _ _ back _ more ih =>
    obtain ⟨_, hrun⟩ := run_of_advance _ run
    obtain ⟨_, hrest⟩ := ih h
    exact ⟨_, .next popped taken hrun (waits_of_ne waits) back more hrest⟩
  all_goals cases h
  case case2 empty => exact ⟨_, .empty empty⟩
  case case5 popped _ _ _ taken _ _ run =>
    obtain ⟨_, hrun⟩ := run_of_advance _ run
    exact ⟨_, .finish popped taken hrun⟩
  case case6 popped _ _ _ taken _ _ waits run _ _ back _ enough =>
    obtain ⟨_, hrun⟩ := run_of_advance _ run
    exact ⟨_, .yield popped taken hrun (waits_of_ne waits) back enough⟩

lemma sweepAll_sound (fuel : Nat) (h : sweepAll cx fuel s = some s') :
    ∃ log, SweepAll cx s log s' := by
  fun_induction sweepAll cx fuel s
  case case3 armed _ pass ih =>
    obtain ⟨_, hpass⟩ := sweep_sound _ pass
    obtain ⟨_, hrest⟩ := ih h
    exact ⟨_, .more armed hpass hrest⟩
  all_goals cases h
  case case4 armed pass =>
    obtain ⟨_, hpass⟩ := sweep_sound _ pass
    exact ⟨_, .last armed hpass⟩

lemma rounds_sound (fuel : Nat) (h : rounds cx fuel e s = some (e', s')) :
    ∃ log, Rounds cx e s log e' s' := by
  fun_induction rounds cx fuel e s
  case case5 swept _ _ waits run astir ih =>
    obtain ⟨_, hswept⟩ := sweepAll_sound _ swept
    obtain ⟨_, hrun⟩ := run_of_advance _ run
    obtain ⟨_, hrest⟩ := ih h
    exact ⟨_, .again hswept hrun (waits_of_ne waits) astir hrest⟩
  all_goals cases h
  case case4 swept _ run =>
    obtain ⟨_, hswept⟩ := sweepAll_sound _ swept
    obtain ⟨_, hrun⟩ := run_of_advance _ run
    exact ⟨_, .finish hswept hrun⟩
  case case6 swept waits still run =>
    obtain ⟨_, hswept⟩ := sweepAll_sound _ swept
    obtain ⟨_, hrun⟩ := run_of_advance _ run
    exact ⟨_, .wait hswept hrun (waits_of_ne waits) still⟩

/-! ### From runs to fuel -/

open Evaluation (eventually_of_succ)

/-- Every pass is what `sweep` answers, given enough fuel. -/
lemma sweep_complete {total ran yielded : Nat} {b : Bool}
    (h : Sweep cx total ran yielded s log b s') :
    ∀ᶠ fuel in atTop, sweep cx total fuel ran yielded s = some (b, s') := by
  induction h with
  | empty none_ready => exact eventually_of_succ (.of_forall fun n => by rw [sweep, none_ready])
  | skip popped idle _ ih =>
    refine eventually_of_succ (ih.mono fun n hn => ?_)
    rw [sweep, popped]
    simp only [idle]
    exact hn
  | finish popped taken run =>
    refine eventually_of_succ (run.advance.mono fun n hn => ?_)
    rw [sweep, popped]
    simp only [taken, hn]
  | @yield ran yielded ticket s s1 s2 s3 s4 log g e e' woken popped taken run waits back enough =>
    refine eventually_of_succ (run.advance.mono fun n hn => ?_)
    rw [sweep, popped]
    simp only [taken, hn]
    cases e' with
    | done r => exact absurd waits (not_waits_done r)
    | _ => simp only [back, if_pos enough]
  | @next ran yielded ticket s s1 s2 s3 s4 s' log log' g e e' woken b popped taken run waits back
      more _ ih =>
    refine eventually_of_succ ?_
    filter_upwards [run.advance, ih] with n hn hm
    rw [sweep, popped]
    simp only [taken, hn]
    cases e' with
    | done r => exact absurd waits (not_waits_done r)
    | _ =>
      simp only [back, if_neg more]
      exact hm

lemma sweepAll_complete (h : SweepAll cx s log s') :
    ∀ᶠ fuel in atTop, sweepAll cx fuel s = some s' := by
  induction h with
  | last armed pass =>
    refine eventually_of_succ ((sweep_complete pass).mono fun n hn => ?_)
    rw [sweepAll, armed]
    simp only [hn]
  | more armed pass _ ih =>
    refine eventually_of_succ ?_
    filter_upwards [sweep_complete pass, ih] with n hn hm
    rw [sweepAll, armed]
    simp only [hn]
    exact hm

lemma rounds_complete (h : Rounds cx e s log e' s') :
    ∀ᶠ fuel in atTop, rounds cx fuel e s = some (e', s') := by
  induction h with
  | finish swept run =>
    refine eventually_of_succ ?_
    filter_upwards [sweepAll_complete swept, run.advance] with n hn hm
    rw [rounds, hn]
    simp only [hm]
  | @wait e e' s s1 s' log log' swept run waits still =>
    refine eventually_of_succ ?_
    filter_upwards [sweepAll_complete swept, run.advance] with n hn hm
    rw [rounds, hn]
    simp only [hm]
    cases e' with
    | done r => exact absurd waits (not_waits_done r)
    | _ => exact if_neg still
  | @again e e1 e' s s1 s2 s' log log' log'' swept run waits astir _ ih =>
    refine eventually_of_succ ?_
    filter_upwards [sweepAll_complete swept, run.advance, ih] with n hn hm hk
    rw [rounds, hn]
    simp only [hm]
    cases e1 with
    | done r => exact absurd waits (not_waits_done r)
    | _ => exact (if_pos astir).trans hk

/-- Every whole run is what `advance` answers, given enough fuel. -/
theorem advance_of_poll (h : Poll t s log t' s') :
    ∃ n, ∀ fuel, n ≤ fuel → t.advance fuel s = some (t', s') := by
  obtain ⟨s1, hr, hcx, rfl⟩ := h
  obtain ⟨n, hn⟩ := Filter.eventually_atTop.1 (rounds_complete hr)
  refine ⟨n, fun fuel hf => ?_⟩
  obtain ⟨cx, main⟩ := t'
  simp only at hcx
  rw [advance, hn fuel hf, hcx]

/-- What `advance` answers is a whole run. -/
theorem poll_of_advance (h : t.advance fuel s = some (t', s')) : ∃ log, Poll t s log t' s' := by
  rw [advance] at h
  cases hr : rounds t.context fuel t.main (running t.context true s) with
  | none => simp [hr] at h
  | some q =>
    obtain ⟨main, s1⟩ := q
    simp only [hr, Option.some.injEq, Prod.mk.injEq] at h
    obtain ⟨rfl, rfl⟩ := h
    obtain ⟨log, hrounds⟩ := rounds_sound fuel hr
    exact ⟨log, s1, hrounds, rfl, rfl⟩

end Task

end Troupe
