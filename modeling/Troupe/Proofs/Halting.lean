import Mathlib.Data.Prod.Lex
import Troupe.Proofs.Quiescence

/-!
Runs that come to an end.

A tree halts if no endless series of small steps starts from it (`Evaluation.Halts`). A task whose
tree halts can be run: `Task.advance` answers, given enough fuel. Parts of the task may be run again
and again without a step, to register that they wait, so the argument is on more than the steps: on
the pieces that have not finished, and then on the ready queue.

* `Evaluation.Halts.of_invariant`: an invariant that descends with every small step.
* `Evaluation.Halts.exists_run`: a part of a tree that halts can be run.
* `Task.exists_poll`: a task whose tree halts can be run.
-/

namespace Troupe

open List Nat

variable {g k : Goal} {F : Evaluation g} {ds trees : List Work} {e : Evaluation k} {ts : Set Nat}
  {cx : Context} {n : Nat} {c c' : Core} {s : Store}

namespace Evaluation

/-- No endless series of small steps starts from the tree, and no step drops anything. -/
inductive Halts (cx : Context) {g : Goal} : Evaluation g → Core → Prop where
  | mk {f : Evaluation g} {c : Core}
      (keeps : ∀ {n : Nat} {f' : Evaluation g} {ds : List Work} {c' : Core},
        Steps cx n f c f' ds c' → ds = [])
      (next : ∀ {n : Nat} {f' : Evaluation g} {ds : List Work} {c' : Core},
        Steps cx (n + 1) f c f' ds c' → Halts cx f' c') : Halts cx f c

/-- No step, no change of the tree. -/
lemma Steps.eq_of_zero {f f' : Evaluation g} (h : Steps cx n f c f' ds c') (hn : n = 0) :
    f' = f ∧ ds = [] := by
  induction h with
  | refl f c => exact ⟨rfl, rfl⟩
  | park slot who _ ih => exact ih hn
  | step => cases hn

namespace Halts

variable {f f' : Evaluation g}

lemma keeps (h : Halts cx f c) (hs : Steps cx n f c f' ds c') : ds = [] := by
  cases h with
  | mk hkeeps _ => exact hkeeps hs

/-- What is reached from a tree that halts halts. -/
lemma steps (h : Halts cx f c) (hs : Steps cx n f c f' ds c') : Halts cx f' c' := by
  cases h with
  | mk hkeeps hnext =>
    cases n with
    | succ n => exact hnext hs
    | zero =>
      obtain ⟨rfl, rfl⟩ := hs.eq_of_zero rfl
      refine .mk (fun hs' => ?_) fun hs' => ?_
      · have := hkeeps (hs.trans hs')
        rwa [nil_append] at this
      · exact hnext (hs.trans hs')

/-- With an invariant that every small step makes smaller, a tree halts. -/
theorem of_invariant {α : Type} [Preorder α] [WellFoundedLT α] (I : α → Evaluation g → Core → Prop)
    (park : ∀ {a f c} (slot : Nat) (who : Waiter), I a f c →
      I a f { c with heap := c.heap.park slot who })
    (step : ∀ {a f c f' ds c'}, I a f c → Micro cx f c f' ds c' → ds = [] ∧ ∃ b < a, I b f' c')
    {a : α} : ∀ {f : Evaluation g} {c : Core}, I a f c → Halts cx f c := by
  -- along several steps the bound is smaller, or there was no step
  have steps : ∀ {n f c f' ds c'}, Steps cx n f c f' ds c' → ∀ {a}, I a f c →
      ds = [] ∧ ∃ b, (n = 0 ∨ b < a) ∧ b ≤ a ∧ I b f' c' := by
    intro n f c f' ds c' hs
    induction hs with
    | refl f c => exact fun h => ⟨rfl, _, .inl rfl, le_rfl, h⟩
    | park slot who _ ih => exact fun h => ih (park slot who h)
    | step first _ ih =>
      intro a h
      obtain ⟨rfl, b, hb, h1⟩ := step h first
      obtain ⟨rfl, b', _, hb', h'⟩ := ih h1
      exact ⟨rfl, b', .inr (hb'.trans_lt hb), hb'.trans hb.le, h'⟩
  induction a using WellFoundedLT.induction with
  | _ a ih =>
    intro f c h
    refine .mk (fun hs => (steps hs h).1) fun hs => ?_
    obtain ⟨_, b, hb, _, h'⟩ := steps hs h
    exact ih b (hb.resolve_left (succ_ne_zero _)) h'

/-- Induction along the steps of a tree that halts. Where no step is taken, something else has to
get smaller. -/
theorem induct {X α : Type} [Preorder α] [WellFoundedLT α] (tree : X → Evaluation g)
    (core : X → Core)
    (size : X → α) {P : X → Prop} (step : ∀ x, Halts cx (tree x) (core x) → (∀ y n,
      Steps cx n (tree x) (core x) (tree y) [] (core y) → (n = 0 → size y < size x) → P y) → P x)
    (x : X) (halts : Halts cx (tree x) (core x)) : P x := by
  suffices h : ∀ {F c}, Halts cx F c → ∀ y, Steps cx 0 F c (tree y) [] (core y) → P y from
    h halts x (.refl _ _)
  intro F c halts
  induction halts with
  | @mk F c keeps next later =>
    intro y
    induction hy : size y using WellFoundedLT.induction generalizing y with
    | _ a ih =>
      subst hy
      intro hs
      refine step y (steps (.mk keeps next) hs) fun z n hz hsize => ?_
      cases n with
      | zero => exact ih _ (hsize rfl) z rfl (hs.trans hz)
      | succ n => exact later (hs.trans hz) z (.refl _ _)

end Halts

/-! ### Parts can be run -/

section Runs

variable {h : Goal} {m : Nat}

lemma Hole.comp {C : Evaluation h → Evaluation g} {D : Evaluation k → Evaluation h} (hC : Hole C)
    (hD : Hole D) : Hole fun f => C (D f) :=
  fun step => hC (hD step)

/-- Steps lead from `F` to the part `f` at the place `C`, or the part is smaller than `m`. -/
def Trails (cx : Context) (F : Evaluation g) (c : Core) (m : Nat) (C : Evaluation k → Evaluation g)
    (f : Evaluation k) (s : Store) : Prop :=
  ∃ n, Steps cx n F c (C f) [] s.core ∧ (n = 0 → sizeOf f < m)

namespace Trails

variable {C : Evaluation k → Evaluation g} {f f' : Evaluation k} {s' : Store}

/-- A part of a part is smaller. -/
lemma inner {D : Evaluation h → Evaluation k} {f : Evaluation h}
    (tr : Trails cx F c (m + 1) C (D f) s) (smaller : sizeOf f < sizeOf (D f)) :
    Trails cx F c m (fun f => C (D f)) f s := by
  obtain ⟨n, hs, hm⟩ := tr
  exact ⟨n, hs, fun hn => by have := hm hn; omega⟩

/-- After a step the size does not matter. -/
lemma step (tr : Trails cx F c m C f s) (hC : Hole C) {s' : Store} {c' : Core}
    (step : Micro cx f s.core f' [] c') (core : s'.core = c') (m' : Nat) :
    Trails cx F c m' C f' s' := by
  subst core
  obtain ⟨n, hs, _⟩ := tr
  exact ⟨1 + n, hs.trans (.single (hC step)), fun hn => by omega⟩

lemma after (tr : Trails cx F c m C f s) (halts : Halts cx F c) (hC : Hole C)
    (sim : Simulates cx s f ts e s') :
    ∃ f' ts', e.Unfolds (s'.agenda cx.task).cell f' ts' ∧ Trails cx F c m C f' s' := by
  obtain ⟨n, f', ts', ds, fs, td, hsteps, hu, _, _, _, _⟩ := sim
  obtain ⟨n0, hs, hm⟩ := tr
  have hall := hs.trans (hsteps.map C hC)
  cases halts.keeps hall
  refine ⟨f', ts', hu, n + n0, hall, fun hn => ?_⟩
  obtain ⟨rfl, _⟩ := hsteps.eq_of_zero (by omega)
  exact hm (by omega)

end Trails

/-- Parts that are smaller than `m`, and those that were stepped to, can be run. -/
def Runnable (cx : Context) (F : Evaluation g) (c : Core) (m : Nat) : Prop :=
  ∀ {k : Goal} {C : Evaluation k → Evaluation g} {f e : Evaluation k} {ts : Set Nat} {s : Store}
    (who : Waiter), Hole C → Trails cx F c m C f s → cx.task < s.agendas.size →
      e.Unfolds (s.agenda cx.task).cell f ts → ∃ log e' s', e.Run cx who s log e' s'

namespace Runnable

variable {who : Waiter} {tl tr : Set Nat}

lemma one {C : Evaluation h → Evaluation g} {part f : Evaluation k} {frame : Frame k h}
    (runs : Runnable cx F c m) (halts : Halts cx F c) (hC : Hole C)
    (trails : Trails cx F c (m + 1) C (.one f frame.flat) s) (size : cx.task < s.agendas.size)
    (hu : part.Unfolds (s.agenda cx.task).cell f ts) :
    ∃ log e' s', (Evaluation.one part frame).Run cx who s log e' s' := by
  obtain ⟨log, part', s1, run⟩ := runs who (hC.comp (.one frame.flat))
    (trails.inner (by simp only [one.sizeOf_spec]; omega)) size hu
  rcases part'.waits_or_done with waits | ⟨r, rfl⟩
  · exact ⟨_, _, _, .oneWaits run waits⟩
  · have hs1 : cx.task < s1.agendas.size := by rwa [run.touches.size_agendas]
    obtain ⟨f1, ts1, hu1, trails1⟩ := trails.after halts hC ((run.simulates size hu).one frame)
    cases hu1 with
    | one _ inner =>
      cases inner
      have hsp := frame.resume_sprouts cx s1 hs1 r
      have trails2 := trails1.step hC (.resume r frame.flat s1.core) hsp.core m
      obtain ⟨log', e', s', rest⟩ := runs who hC trails2 (by rwa [hsp.size]) hsp.unfolds
      exact ⟨_, e', s', .one run rfl rest⟩

lemma both {C : Evaluation h → Evaluation g} {left right fl fr : Evaluation k} {join : Join k h}
    (runs : Runnable cx F c m) (halts : Halts cx F c) (hC : Hole C)
    (trails : Trails cx F c (m + 1) C (.both fl fr join.flat) s) (size : cx.task < s.agendas.size)
    (hl : left.Unfolds (s.agenda cx.task).cell fl tl)
    (hr : right.Unfolds (s.agenda cx.task).cell fr tr) (apart : Disjoint tl tr) :
    ∃ log e' s', (Evaluation.both left right join).Run cx who s log e' s' := by
  obtain ⟨log, left', s1, first⟩ := runs who (hC.comp (.bothLeft fr join.flat))
    (trails.inner (D := (.both · fr join.flat)) (by simp only [both.sizeOf_spec]; omega)) size hl
  have hs1 : cx.task < s1.agendas.size := by rwa [first.touches.size_agendas]
  obtain ⟨f1, ts1, hu1, trails1⟩ := trails.after halts hC
    (.bothLeft join (first.simulates size hl) hr apart)
  cases hu1 with
  | @both _ _ _ _ fl1 fr1 _ _ _ hl1 hr1 apart1 =>
    obtain ⟨log', right', s2, second⟩ := runs who (hC.comp (.bothRight fl1 join.flat))
      (trails1.inner (D := (.both fl1 · join.flat)) (by simp only [both.sizeOf_spec]; omega)) hs1
      hr1
    rcases left'.waits_or_done with waits | ⟨a, rfl⟩
    · exact ⟨_, _, _, .bothWait first second (.inl waits)⟩
    rcases right'.waits_or_done with waits | ⟨b, rfl⟩
    · exact ⟨_, _, _, .bothWait first second (.inr waits)⟩
    have hs2 : cx.task < s2.agendas.size := by rwa [second.touches.size_agendas]
    obtain ⟨f2, ts2, hu2, trails2⟩ := trails1.after halts hC
      (.bothRight join (second.simulates hs1 hr1) hl1 apart1)
    cases hu2 with
    | both _ hl2 hr2 _ =>
      cases hl2
      cases hr2
      have hsp := join.resume_sprouts cx s2 a b
      have trails3 := trails2.step hC (.join a b join.flat s2.core) hsp.core m
      obtain ⟨log'', e', s', rest⟩ := runs who hC trails3 (by rwa [hsp.size]) hsp.unfolds
      exact ⟨_, e', s', .both first second rfl rest⟩

lemma race {C : Evaluation .outcome → Evaluation g} {left right fl fr : Evaluation .outcome}
    (runs : Runnable cx F c m) (halts : Halts cx F c) (hC : Hole C)
    (trails : Trails cx F c (m + 1) C (.race fl fr) s) (size : cx.task < s.agendas.size)
    (hl : left.Unfolds (s.agenda cx.task).cell fl tl)
    (hr : right.Unfolds (s.agenda cx.task).cell fr tr) (apart : Disjoint tl tr) :
    ∃ log e' s', (Evaluation.race left right).Run cx who s log e' s' := by
  obtain ⟨log, left', s1, first⟩ := runs who (hC.comp (.raceLeft fr))
    (trails.inner (D := (.race · fr)) (by simp only [race.sizeOf_spec]; omega)) size hl
  have hs1 : cx.task < s1.agendas.size := by rwa [first.touches.size_agendas]
  by_cases hfail : left' = .done .fail
  · exact ⟨_, _, _, .raceLeftFails (hfail ▸ first)⟩
  obtain ⟨f1, ts1, hu1, trails1⟩ := trails.after halts hC
    (.raceLeft (first.simulates size hl) hr apart)
  cases hu1 with
  | @race _ _ fl1 fr1 _ _ hl1 hr1 apart1 =>
    obtain ⟨log', right', s2, second⟩ := runs who (hC.comp (.raceRight fl1))
      (trails1.inner (D := (.race fl1 ·)) (by simp only [race.sizeOf_spec]; omega)) hs1 hr1
    rcases right'.waits_or_done with waits | ⟨b, rfl⟩
    · exact ⟨_, _, _, .raceRightWaits first hfail second waits⟩
    rcases left'.waits_or_done with waits | ⟨a, rfl⟩
    · rcases right.waits_or_done with unfinished | ⟨b', rfl⟩
      · by_cases hb : b = .fail
        · exact ⟨_, _, _, .raceRightFails first waits unfinished (hb ▸ second)⟩
        -- the left statement is run once more
        have hs2 : cx.task < s2.agendas.size := by rwa [second.touches.size_agendas]
        obtain ⟨f2, ts2, hu2, trails2⟩ := trails1.after halts hC
          (.raceRight (second.simulates hs1 hr1) hl1 apart1)
        cases hu2 with
        | @race _ _ fl2 fr2 _ _ hl2 hr2 apart2 =>
          obtain ⟨log'', left'', s3, again⟩ := runs who (hC.comp (.raceLeft fr2))
            (trails2.inner (D := (.race · fr2)) (by simp only [race.sizeOf_spec]; omega)) hs2 hl2
          rcases left''.waits_or_done with still | ⟨a, rfl⟩
          · exact ⟨_, _, _, .raceWaitsAgain first waits unfinished second hb again still⟩
          · exact ⟨_, _, _, .raceAgain first waits unfinished second hb again rfl⟩
      · exact ⟨_, _, _, .raceLeftWaits first waits⟩
    · exact ⟨_, _, _, .race first (fun h => hfail (h ▸ rfl)) second rfl⟩

end Runnable

/-- A part of a tree that halts can be run. -/
theorem Halts.exists_run {C : Evaluation k → Evaluation g} {f : Evaluation k}
    (halts : Halts cx (C f) s.core) (hC : Hole C) (size : cx.task < s.agendas.size)
    (hu : e.Unfolds (s.agenda cx.task).cell f ts) (who : Waiter) :
    ∃ log e' s', e.Run cx who s log e' s' := by
  -- by induction on the steps, and without a step on the size of the part
  refine Halts.induct (X := (k : Goal) × (Evaluation k → Evaluation g) × Evaluation k × Store)
    (fun x => x.2.1 x.2.2.1) (fun x => x.2.2.2.core) (fun x => sizeOf x.2.2.1)
    (P := fun ⟨k, C, f, s⟩ => ∀ {e : Evaluation k} {ts} who, Hole C → cx.task < s.agendas.size →
      e.Unfolds (s.agenda cx.task).cell f ts → ∃ log e' s', e.Run cx who s log e' s')
    ?_ ⟨k, C, f, s⟩ halts who hC size hu
  rintro ⟨k, C, f, s⟩ halts ih e ts who hC size hu
  have runs : Runnable cx (C f) s.core (sizeOf f) := fun who hC ⟨n, hs, hm⟩ =>
    ih ⟨_, _, _, _⟩ n hs hm who hC
  have trails : Trails cx (C f) s.core (sizeOf f + 1) C f s :=
    ⟨0, .refl _ _, fun _ => lt_succ_self _⟩
  cases hu with
  | done r => exact ⟨_, _, _, .done r s⟩
  | start job =>
    have hsp := job.begin_sprouts cx s size
    obtain ⟨log, e', s', rest⟩ := runs who hC
      (trails.step hC (.start job.flat s.core) hsp.core _) (by rwa [hsp.size]) hsp.unfolds
    exact ⟨_, e', s', .start rfl rest⟩
  | parked slot =>
    cases hslot : s.heap.slot? slot with
    | none => exact ⟨_, _, _, .park hslot⟩
    | some v => exact ⟨_, _, _, .read hslot⟩
  | @working _ ticket e _ ts known inner fresh | @given _ ticket r known =>
    cases hread : s.readAnswer cx.task ticket who with
    | mk answer s' =>
      cases answer with
      | none => exact ⟨_, _, _, .await hread⟩
      | some a => exact ⟨_, _, _, .answer hread⟩
  | one frame inner => exact runs.one halts hC trails size inner
  | both join hl hr apart => exact runs.both halts hC trails size hl hr apart
  | race hl hr apart => exact runs.race halts hC trails size hl hr apart

end Runs

/-- If nothing is dropped, steps on several trees are steps of the only one. -/
lemma Forest.steps_of_halts {trees' : List Work} (h : Forest cx n trees c trees' c') :
    ∀ {F : Evaluation g}, Halts cx F c → trees = [⟨g, F⟩] →
      ∃ F', trees' = [⟨g, F'⟩] ∧ Steps cx n F c F' [] c' := by
  induction h with
  | refl trees c => exact fun _ htrees => ⟨_, htrees, .refl _ _⟩
  | @park n trees trees' c c' slot who _ ih =>
    intro F halts htrees
    obtain ⟨F', htrees', hs⟩ := ih (halts.steps (.park slot who (.refl _ _))) htrees
    exact ⟨F', htrees', .park slot who hs⟩
  | @step n before after trees' k f f' ds c c1 c' first _ ih =>
    intro F halts htrees
    obtain ⟨rfl, hrest⟩ | ⟨_, hnil⟩ := append_eq_singleton_iff.1 htrees
    · cases hrest
      cases halts.keeps (.single first)
      obtain ⟨F', htrees', hs⟩ := ih (halts.steps (.single first)) rfl
      exact ⟨F', htrees', .step first hs⟩
    · cases hnil

lemma UnfoldsAll.length_eq {cell : Nat → Option Cell} {ws : List Work}
    (h : UnfoldsAll cell ws trees ts) : trees.length = ws.length := by
  induction h with
  | nil => rfl
  | cons _ _ _ ih => rw [length_cons, length_cons, ih]

end Evaluation

/-! ### Tasks can be run -/

/-- How much is left to run. -/
def Agenda.rest (a : Agenda) : ℕ ×ₗ ℕ := toLex (a.unfinished, a.ready.toList.length + a.waiting)

namespace Task

open Evaluation

/-- A task whose only tree halts. -/
structure Finite (strict : Prop) (cx : Context) {g : Goal} (main : Evaluation g) (s : Store)
    (F : Evaluation g) : Prop where
  standing : Standing strict cx main s [] [⟨g, F⟩]
  halts : Halts cx F s.core

namespace Finite

variable {strict : Prop} {main main' : Evaluation g} {s' : Store}

/-- The tree of the task after some steps. -/
lemma onward (h : Finite strict cx main s F)
    (standing : Standing strict cx main' s' ([] ++ ds) trees)
    (forest : Forest cx n [⟨g, F⟩] s.core trees s'.core) :
    ∃ F', trees = [⟨g, F'⟩] ∧ Finite strict cx main' s' F' ∧ Steps cx n F s.core F' [] s'.core := by
  obtain ⟨F', rfl, hsteps⟩ := forest.steps_of_halts h.halts rfl
  obtain ⟨ts, hu, _⟩ := standing.laid
  have hds : ds = [] := by simpa using hu.length_eq
  subst hds
  exact ⟨F', rfl, ⟨standing, h.halts.steps hsteps⟩, hsteps⟩

/-- The main evaluation can be run. -/
lemma exists_main (h : Finite strict cx main s F) :
    ∃ log main' s', main.Run cx (.task cx.task) s log main' s' := by
  obtain ⟨ts, hu, _⟩ := h.standing.laid
  cases hu with
  | cons head _ _ =>
    exact Halts.exists_run (C := id) h.halts (fun step => step) h.standing.orderly.size head _

/-- A piece from the ready queue can be run. -/
lemma exists_piece {p : Nat} {s1 s2 : Store} (h : Finite strict cx main s F)
    (popped : s.nextReady cx.task = (some p, s1))
    (taken : s1.takeWork cx.task p = (some ⟨k, e⟩, s2)) :
    ∃ log e' s3, e.Run cx (.piece cx.task p) s2 log e' s3 := by
  obtain ⟨ho, hp, hslip, hcore, _, _⟩ := h.standing.orderly.take popped taken
  obtain ⟨ts, hu, hall⟩ := h.standing.laid.congr fun t => Agenda.cell_congr (hslip t)
  obtain ⟨g', C, f, before, after, _, _, hC, htrees, hinner, _⟩ :=
    hu.focus (hall p (by simp [hp])) hp
  obtain ⟨rfl, hrest⟩ | ⟨_, hnil⟩ := append_eq_singleton_iff.1 htrees.symm
  · cases hrest
    exact Halts.exists_run (hcore ▸ h.halts) hC ho.size hinner _
  · cases hnil

/-- Induction along the steps of the tree. Where no step is taken, something else has to get
smaller. -/
theorem induct {α : Type} [Preorder α] [WellFoundedLT α] (size : Store → α)
    {P : Evaluation g → Store → Prop} (step : ∀ {main s F}, Finite strict cx main s F →
      (∀ {main' s' F' n}, Finite strict cx main' s' F' → Steps cx n F s.core F' [] s'.core →
        (n = 0 → size s' < size s) → P main' s') → P main s)
    (h : Finite strict cx main s F) : P main s :=
  Halts.induct (X := Evaluation g × Evaluation g × Store) (·.1) (·.2.2.core) (size ·.2.2)
    (P := fun x => Finite strict cx x.2.1 x.2.2 x.1 → P x.2.1 x.2.2)
    (fun _ _ ih h => step h fun h' hs hsize => ih (_, _, _) _ hs hsize h') (F, main, s) h.halts h

lemma exists_sweep (h : Finite strict cx main s F) (attends : Attends cx s)
    (total ran yielded : Nat) : ∃ log b s', Sweep cx total ran yielded s log b s' := by
  -- without a step, the ready queue gets shorter
  refine h.induct (fun s => (s.agenda cx.task).ready.toList.length) (P := fun _ s => Attends cx s →
    ∀ ran yielded, ∃ log b s', Sweep cx total ran yielded s log b s') ?_ attends ran yielded
  intro main s F h ih attends ran yielded
  cases popped : s.nextReady cx.task with
  | mk next s1 =>
  cases next with
  | none => exact ⟨_, _, _, .empty popped⟩
  | some p =>
  cases taken : s1.takeWork cx.task p with
  | mk work s2 =>
  cases work with
  | none =>
    obtain ⟨ho, hslip, hcore, harmed, hwoken⟩ := h.standing.orderly.skip popped taken
    have h2 : Finite strict cx main s2 F :=
      ⟨h.standing.flags ho hslip (congrArg Core.heap hcore), hcore ▸ h.halts⟩
    obtain ⟨log, b, s', hrest⟩ := ih h2 (n := 0) (hcore ▸ .refl _ _)
      (fun _ => (Store.shrinks_take h.standing.orderly.size popped taken).ready)
      (by rw [Attends, harmed, hwoken]; exact attends) ran yielded
    exact ⟨_, _, _, .skip popped taken hrest⟩
  | some work =>
  obtain ⟨k, e⟩ := work
  obtain ⟨log, e', s3, run⟩ := h.exists_piece popped taken
  rcases e'.waits_or_done with waits | ⟨r, rfl⟩
  · cases back : s3.putBack cx.task p ⟨k, e'⟩ with
    | mk woken s4 =>
    by_cases enough : 2 ≤ (if woken then yielded + 1 else yielded) ∨ ran + 1 = total
    · exact ⟨_, _, _, .yield popped taken run waits back enough⟩
    · obtain ⟨⟨n, ds, trees, hst, hforest, hshrinks⟩, hattends⟩ :=
        h.standing.turn popped taken run waits back
      obtain ⟨F', _, h', hsteps⟩ := h.onward hst hforest
      obtain ⟨log', b, s', hrest⟩ := ih h' hsteps (fun hn => (hshrinks hn).ready) (hattends attends)
        (ran + 1) (if woken then yielded + 1 else yielded)
      exact ⟨_, _, _, .next popped taken run waits back enough hrest⟩
  · exact ⟨_, _, _, .finish popped taken run⟩

lemma exists_sweepAll (h : Finite strict cx main s F) : ∃ log s', SweepAll cx s log s' := by
  -- without a step, every pass but the last one finishes a piece
  refine h.induct (fun s => (s.agenda cx.task).unfinished)
    (P := fun _ s => ∃ log s', SweepAll cx s log s') ?_
  intro main s F h ih
  obtain ⟨ho, hslip, harmed⟩ := h.standing.orderly.arm
  have h1 : Finite strict cx main (s.arm cx.task).2 F := ⟨h.standing.flags ho hslip rfl, h.halts⟩
  obtain ⟨log, b, s2, pass⟩ := h1.exists_sweep (.inl harmed) (s.arm cx.task).1 0 0
  cases b with
  | false => exact ⟨_, _, .last rfl pass⟩
  | true =>
    obtain ⟨n, ds, trees, hst, hforest, _, hlags⟩ := pass.standing h1.standing (.inl harmed)
    obtain ⟨F', _, h', hsteps⟩ := h1.onward hst hforest
    obtain ⟨log', s', hrest⟩ := ih h' hsteps fun hn =>
      ((hlags hn).2 rfl).trans_le (Store.lags_arm h.standing.orderly.size).unfinished_le
    exact ⟨_, _, .more rfl pass hrest⟩

/-- One round. If the task is still astir, a step was taken or there is less to run. -/
lemma exists_round (h : Finite strict cx main s F) :
    ∃ (log log' : List Request) (s1 : Store) (main' : Evaluation g) (s2 : Store) (n : Nat)
      (F' : Evaluation g), SweepAll cx (s.enlist cx.task) log s1 ∧
      main.Run cx (.task cx.task) s1 log' main' s2 ∧ Finite strict cx main' s2 F' ∧
      Steps cx n F s.core F' [] s2.core ∧
      (n = 0 → Astir cx s2 → (s2.agenda cx.task).rest < (s.agenda cx.task).rest) := by
  obtain ⟨ho, hslip⟩ := h.standing.orderly.enlist
  have h0 : Finite strict cx main (s.enlist cx.task) F := ⟨h.standing.flags ho hslip rfl, h.halts⟩
  obtain ⟨log, s1, swept⟩ := h0.exists_sweepAll
  obtain ⟨n, ds, trees, hst1, hforest1, _, hlags⟩ := swept.standing h0.standing
  obtain ⟨F1, _, h1, hsteps1⟩ := h0.onward hst1 hforest1
  obtain ⟨log', main', s2, run⟩ := h1.exists_main
  obtain ⟨⟨m, ds', trees', hst2, hforest2, hcalm⟩, _⟩ := h1.standing.advance run
  obtain ⟨F2, _, h2, hsteps2⟩ := h1.onward hst2 hforest2
  refine ⟨log, log', s1, main', s2, m + n, F2, swept, run, h2, hsteps1.trans hsteps2, ?_⟩
  intro hmn astir
  have hall := (hlags (by omega)).trans (hcalm (by omega)).even.lags
  obtain ⟨hunfinished, hwaiting, hwoken, hready⟩ := Store.enlist_paces h.standing.orderly.size
  rw [Agenda.Lags, hunfinished, hwaiting, hwoken, hready] at hall
  refine Prod.Lex.toLex_lt_toLex.2 ?_
  rcases hall with hfewer | ⟨hsame, hnone, hshort | ⟨_, hquiet⟩⟩
  · exact .inl hfewer
  · exact .inr ⟨hsame, by omega⟩
  · rcases astir with hwoken' | hwaiting'
    · rw [hquiet] at hwoken'
      cases hwoken'
    · exact absurd hnone hwaiting'

lemma exists_rounds (h : Finite strict cx main s F) :
    ∃ log main' s', Rounds cx main s log main' s' := by
  refine h.induct (fun s => (s.agenda cx.task).rest)
    (P := fun main s => ∃ log main' s', Rounds cx main s log main' s') ?_
  intro main s F h ih
  obtain ⟨log, log', s1, main', s2, n, F', swept, run, h', hsteps, hless⟩ := h.exists_round
  rcases main'.waits_or_done with waits | ⟨x, rfl⟩
  · by_cases astir : Astir cx s2
    · obtain ⟨log'', main'', s', hrest⟩ := ih h' hsteps fun hn => hless hn astir
      exact ⟨_, _, _, .again swept run waits astir hrest⟩
    · exact ⟨_, _, _, .wait swept run waits astir⟩
  · exact ⟨_, _, _, .finish swept run⟩

end Finite

/-- A task whose only tree halts can be run. Either it finishes, or every part of the tree then
waits for a slot. -/
theorem exists_poll {strict : Prop} {t : Task g} (h : Finite strict t.context t.main s F) :
    ∃ (log : List Request) (t' : Task g) (s' : Store) (n : Nat) (F' : Evaluation g),
      Poll t s log t' s' ∧ Finite strict t.context t'.main s' F' ∧
      Steps t.context n F s.core F' [] s'.core ∧
      ((∃ r, t'.main = .done r ∧ F' = .done r) ∨ t'.main.Waits ∧
        F'.Idle (fun _ => False) fun slot => strict → ∃ who, s'.heap.Moored who slot) := by
  obtain ⟨ho, hslip⟩ := h.standing.orderly.running true
  have h0 : Finite strict t.context t.main (running t.context true s) F :=
    ⟨h.standing.flags ho hslip rfl, h.halts⟩
  obtain ⟨log, main', s1, hrounds⟩ := h0.exists_rounds
  have hpoll : Poll t s log ⟨t.context, main'⟩ (running t.context false s1) :=
    ⟨s1, hrounds, rfl, rfl⟩
  obtain ⟨n, ds, trees, hst, hforest, hstuck⟩ := hpoll.standing h.standing
  obtain ⟨F', rfl, h', hsteps⟩ := h.onward hst hforest
  refine ⟨log, _, _, n, F', hpoll, h', hsteps, ?_⟩
  rcases main'.waits_or_done with waits | ⟨r, rfl⟩
  · obtain ⟨f, rest, htrees, hidle⟩ := hstuck waits
    cases htrees
    exact .inr ⟨waits, hidle⟩
  · obtain ⟨ts, hu, _⟩ := h'.standing.laid
    cases hu with
    | cons head _ _ =>
      cases head
      exact .inl ⟨r, rfl, rfl⟩

end Task

end Troupe
