import Troupe.Proofs.Failure
import Troupe.Proofs.Tracking

/-!
What a tree is sure to come to.

`Evaluation.Ensures` states the correctness of a tree, partial or total: if it finishes, or however
it is run, it ends in a state with some property. It is put together along the tree: a part first,
then the frame that goes on with its answer.

Waiters may be entered in between, so what is known about a state must not depend on them
(`Core.Stable`).

* `Evaluation.Steps.one_cases`, `Evaluation.Steps.start_cases`: where a run of a tree stands.
* `Evaluation.Ensures.bind`, `Evaluation.Ensures.start`
* `Evaluation.Tracks.ensures`: a tree on its way to the end of a soup.
* `Task.exists_poll_ensures`: a task with such a tree answers the first time it is run.
* `Task.steps_of_answer`: a task that has not failed has taken small steps of one tree.
-/

namespace Troupe

open Evaluation Multiset Nat

/-- The property does not depend on who waits for what. -/
def Core.Stable (Q : Core → Prop) : Prop :=
  ∀ {c : Core} (slot : Nat) (who : Waiter), Q c → Q { c with heap := c.heap.park slot who }

namespace Evaluation

variable {cx : Context} {g k : Goal} {f f' : Evaluation g} {ds : List Work} {c c' : Core} {n : Nat}
  {Q : Core → Prop}

/-! ### Where a run stands -/

namespace Steps

/-- What is done takes no steps. -/
lemma done_cases {r : g.Result} (hs : Steps cx n (.done r) c f' ds c') (stable : Core.Stable Q)
    (hQ : Q c) : n = 0 ∧ f' = .done r ∧ ds = [] ∧ Q c' := by
  generalize he : done r = e at hs
  induction hs with
  | refl f c => exact ⟨rfl, rfl, rfl, hQ⟩
  | park slot who _ ih => exact ih (stable slot who hQ) he
  | step first _ _ =>
    subst he
    cases first

/-- A job has not begun, or what it began with has taken steps. -/
lemma start_cases {job : Job g} (hs : Steps cx n (.start job) c f' ds c') (stable : Core.Stable Q)
    (hQ : Q c) : (n = 0 ∧ f' = .start job ∧ ds = [] ∧ Q c') ∨ ∃ m c1, n = m + 1 ∧ Q c1 ∧
      Steps cx m (job.begin cx c1.store).1.flat (job.begin cx c1.store).2.core f' ds c' := by
  generalize he : start job = e at hs
  induction hs with
  | refl f c => exact .inl ⟨rfl, rfl, rfl, hQ⟩
  | park slot who _ ih => exact ih (stable slot who hQ) he
  | step first rest _ =>
    subst he
    cases first
    exact .inr ⟨_, _, rfl, hQ, rest⟩

/-- A part has taken steps, or has finished, and then what comes after it has. -/
lemma one_cases {part : Evaluation k} {frame : Frame k g}
    (hs : Steps cx n (.one part frame) c f' ds c') :
    (∃ part', f' = .one part' frame ∧ Steps cx n part c part' ds c') ∨
      ∃ m l r c1 ds1 ds2, ds = ds1 ++ ds2 ∧ Steps cx m part c (.done r) ds1 c1 ∧
        Steps cx l (frame.resume r cx c1.store).1.flat
        (frame.resume r cx c1.store).2.core f' ds2 c' := by
  generalize he : one part frame = e at hs
  induction hs generalizing part with
  | refl f c => exact .inl ⟨part, he.symm, .refl _ _⟩
  | park slot who _ ih =>
    rcases ih he with ⟨part', hf', inner⟩ | ⟨m, l, r, c1, ds1, ds2, hds, inner, rest⟩
    · exact .inl ⟨part', hf', .park slot who inner⟩
    · exact .inr ⟨m, l, r, c1, ds1, ds2, hds, .park slot who inner, rest⟩
  | step first rest ih =>
    subst he
    cases first with
    | resume r _ => exact .inr ⟨_, _, r, _, [], _, rfl, .refl _ _, rest⟩
    | one _ inner =>
      rcases ih rfl with ⟨part', hf', later⟩ | ⟨m, l, r, c1, ds1, ds2, rfl, later, rest⟩
      · exact .inl ⟨part', hf', .step inner later⟩
      · exact .inr ⟨_, l, r, c1, _, ds2, (List.append_assoc ..).symm, .step inner later, rest⟩

end Steps

/-! ### Correctness -/

/-- If the tree finishes, its answer and the state then have the property. If `total`, it does
finish, however it is run, and nothing is dropped. -/
structure Ensures (total : Prop) (cx : Context) (f : Evaluation g) (c : Core)
    (P : g.Result → Core → Prop) : Prop where
  halts : total → Halts cx f c
  live : total → ∀ {n : Nat} {f' : Evaluation g} {ds : List Work} {c' : Core},
    Steps cx n f c f' ds c' → ¬ f'.Idle (fun _ => False) fun slot => c'.heap.slot? slot = none
  ends : ∀ {n : Nat} {r : g.Result} {ds : List Work} {c' : Core},
    Steps cx n f c (.done r) ds c' → P r c'

namespace Ensures

variable {total : Prop} {P : g.Result → Core → Prop}

lemma steps (h : Ensures total cx f c P) (hs : Steps cx n f c f' ds c') :
    Ensures total cx f' c' P :=
  ⟨fun ht => (h.halts ht).steps hs, fun ht _ _ _ _ later => h.live ht (hs.trans later),
    fun later => h.ends (hs.trans later)⟩

lemma mono {P' : g.Result → Core → Prop} (h : Ensures total cx f c P)
    (weaker : ∀ r c, P r c → P' r c) : Ensures total cx f c P' :=
  ⟨h.halts, h.live, fun hs => weaker _ _ (h.ends hs)⟩

/-- What has happened may be counted on. -/
lemma trace (h : Ensures total cx f c P) : Ensures total cx f c fun r c' =>
    P r c' ∧ ∃ n ds, Steps cx n f c (.done r) ds c' :=
  ⟨h.halts, h.live, fun hs => ⟨h.ends hs, _, _, hs⟩⟩

/-- All that is known about the end of a tree is that it was reached. -/
lemma reached (cx : Context) (f : Evaluation g) (c : Core) : Ensures False cx f c fun r c' =>
    ∃ n ds, Steps cx n f c (.done r) ds c' :=
  ⟨False.elim, False.elim, fun hs => ⟨_, _, hs⟩⟩

lemma done {r : g.Result} (stable : Core.Stable (P r)) (hP : P r c) :
    Ensures total cx (.done r) c P where
  halts _ := .mk (fun hs => (hs.done_cases stable hP).2.2.1)
    fun hs => absurd (hs.done_cases stable hP).1 (succ_ne_zero _)
  live _ _ _ _ _ hs := by
    rw [(hs.done_cases stable hP).2.1]
    exact Idle.not_done
  ends hs := by
    obtain ⟨_, heq, _, hP'⟩ := hs.done_cases stable hP
    cases heq
    exact hP'

lemma start {job : Job g} (stable : Core.Stable Q) (hQ : Q c) (next : ∀ c, Q c →
      Ensures total cx (job.begin cx c.store).1.flat (job.begin cx c.store).2.core P) :
    Ensures total cx (.start job) c P where
  halts ht := by
    refine .mk (fun hs => ?_) fun hs => ?_
    · rcases hs.start_cases stable hQ with ⟨_, _, hds, _⟩ | ⟨m, c1, _, hQ1, rest⟩
      · exact hds
      · exact ((next c1 hQ1).halts ht).keeps rest
    · rcases hs.start_cases stable hQ with ⟨hn, _⟩ | ⟨m, c1, _, hQ1, rest⟩
      · exact absurd hn (succ_ne_zero _)
      · exact ((next c1 hQ1).halts ht).steps rest
  live ht _ _ _ _ hs := by
    rcases hs.start_cases stable hQ with ⟨_, rfl, _⟩ | ⟨m, c1, _, hQ1, rest⟩
    · exact nofun
    · exact (next c1 hQ1).live ht rest
  ends hs := by
    rcases hs.start_cases stable hQ with ⟨_, heq, _⟩ | ⟨m, c1, _, hQ1, rest⟩
    · cases heq
    · exact (next c1 hQ1).ends rest

/-- A part comes first; what comes after it may count on what the part ensures. -/
theorem bind {part : Evaluation k} {frame : Frame k g} {Q : k.Result → Core → Prop}
    (first : Ensures total cx part c Q) (next : ∀ r c, Q r c →
      Ensures total cx (frame.resume r cx c.store).1.flat (frame.resume r cx c.store).2.core P) :
    Ensures total cx (.one part frame) c P where
  halts ht := by
    have halts := first.halts ht
    induction halts with
    | mk keeps _ ih =>
      refine .mk (fun hs => ?_) fun hs => ?_
      · rcases hs.one_cases with ⟨_, _, inner⟩ | ⟨_, _, r, c1, ds1, ds2, rfl, inner, rest⟩
        · exact keeps inner
        · rw [keeps inner, ((next r c1 (first.ends inner)).halts ht).keeps rest]
          rfl
      · rcases hs.one_cases with ⟨_, rfl, inner⟩ | ⟨_, _, r, c1, ds1, ds2, rfl, inner, rest⟩
        · exact ih inner (first.steps inner)
        · exact ((next r c1 (first.ends inner)).halts ht).steps rest
  live ht _ _ _ _ hs := by
    rcases hs.one_cases with ⟨_, rfl, inner⟩ | ⟨_, _, r, c1, _, _, _, inner, rest⟩
    · rintro (_ | _ | ⟨_, idle⟩)
      exact first.live ht inner idle
    · exact (next r c1 (first.ends inner)).live ht rest
  ends hs := by
    rcases hs.one_cases with ⟨_, heq, _⟩ | ⟨_, _, r, c1, _, _, _, inner, rest⟩
    · cases heq
    · exact (next r c1 (first.ends inner)).ends rest

end Ensures

/-- A tree on its way to the end of a soup ensures that it ends like it. -/
lemma Tracks.ensures {base : Likeness} {made : Array StagedActor} {F : Soup} {l : Nat}
    (tracks : Tracks cx base made F l f c) (ends : F.Ends) :
    Ensures True cx f c fun r c => c.Gathers cx.transaction made ∧
      ∃ R, base ≤ R ∧ ((Evaluation.done r).soup c cx.transaction).Like R F where
  halts _ := tracks.halts ends
  live _ _ _ _ _ hs := by
    obtain ⟨_, tracks'⟩ := Tracks.steps hs ends tracks
    exact tracks'.not_idle ends
  ends hs := by
    obtain ⟨_, tracks'⟩ := Tracks.steps hs ends tracks
    exact ⟨tracks'.gathers, tracks'.done⟩

lemma ends_done (r : g.Result) (c : Core) (i : Nat) : ((done r).soup c i).Ends where
  final w hw := by
    obtain ⟨r, rfl⟩ := mem_threads_done hw
    exact ⟨r, rfl⟩
  single := by
    cases g with
    | outcome =>
      cases r with
      | ok => exact zero_le _
      | _ => exact (card_singleton _).le
    | _ => exact (card_singleton _).le

/-- Two ends that are like each other have answers that are like each other. -/
lemma answer_like {R : Likeness} {i : Nat} {r r' : g.Result}
    (like : ((done r).soup c i).Like R ((done r').soup c' i)) :
    g.Like R r r' := by
  have hsingle : Rel (Work.Like R) {⟨g, .done r⟩} {⟨g, .done r'⟩} → g.Like R r r' := by
    intro hrel
    obtain ⟨_, _, hdone, _, heq⟩ := rel_cons_left.1 hrel
    obtain ⟨rfl, _⟩ := singleton_eq_cons_iff _ |>.1 heq
    cases hdone with
    | mk done_like =>
      cases done_like with
      | done answer => exact answer
  have hthreads : Rel (Work.Like R) (done r).threads (done r').threads :=
    like.threads
  cases g with
  | outcome =>
    have hcard := card_eq_card_of_rel hthreads
    cases r with
    | ok =>
      cases r' with
      | ok => exact .ok
      | _ => exact absurd hcard zero_ne_one
    | _ =>
      cases r' with
      | ok => exact absurd hcard one_ne_zero
      | _ => exact hsingle hthreads
  | _ => exact hsingle hthreads

/-! ### Tasks -/

/-- A transaction that has failed stays so. -/
lemma Forest.latched {trees trees' : List Work} (h : Forest cx n trees c trees' c') :
    cx.transaction < c.transactions.size → c.Failed cx → c'.Failed cx := by
  induction h with
  | refl trees c => exact fun _ => id
  | park slot who _ ih => exact ih
  | step first _ ih =>
    intro inside failed
    have ht := first.tells inside
    exact ih (ht.size.symm ▸ inside) (ht.latched failed)

/-- If the transaction has not failed in the end, nothing was dropped on the way. -/
lemma Forest.steps_of_sound {trees trees' : List Work} (h : Forest cx n trees c trees' c')
    (sound : ¬ c'.Failed cx) : ∀ {f : Evaluation g}, trees = [⟨g, f⟩] → Agrees cx f [] c →
      ∃ f', trees' = [⟨g, f'⟩] ∧ Steps cx n f c f' [] c' := by
  induction h with
  | refl trees c => exact fun htrees _ => ⟨_, htrees, .refl _ _⟩
  | @park n trees trees' c c' slot who _ ih =>
    intro f htrees agrees
    obtain ⟨f', htrees', hs⟩ := ih sound htrees ⟨agrees.inside, agrees.same, agrees.alone⟩
    exact ⟨f', htrees', .park slot who hs⟩
  | @step n before after trees' k f f' ds c c1 c' first rest ih =>
    intro f0 htrees agrees
    obtain ⟨rfl, hrest⟩ | ⟨_, hnil⟩ := List.append_eq_singleton_iff.1 htrees
    · cases hrest
      have ht := first.tells agrees.inside
      have hds : ds = [] := by
        by_contra hne
        have hfailed := ht.latched (agrees.same.2 (ht.dropped hne))
        exact sound (rest.latched (ht.size.symm ▸ agrees.inside) hfailed)
      subst hds
      have hone : Forest cx 1 ([] ++ [⟨g, f0⟩]) c ([] ++ [⟨g, f'⟩]) c1 := .step first (.refl _ _)
      obtain ⟨_, _, heq, agrees'⟩ := hone.agrees rfl agrees
      cases heq
      obtain ⟨f'', htrees', hs⟩ := ih sound rfl agrees'
      exact ⟨f'', htrees', .step first hs⟩
    · cases hnil

end Evaluation

namespace Task

open Evaluation

/-- A task that has answered, and has not failed, has taken small steps of one tree. -/
lemma steps_of_answer {strict : Prop} {t t' : Task .outcome} {s s' : Store} {log : List Request}
    {f : Evaluation .outcome} {o : Outcome}
    (standing : Standing strict t.context t.main s [] [⟨.outcome, f⟩])
    (agrees : Agrees t.context f [] s.core) (poll : Poll t s log t' s')
    (answer : t'.answer? = some o) (well : o ≠ .fail) :
    ¬ s'.core.Failed t.context ∧ t.context.transaction < s'.core.transactions.size ∧
      ∃ n, Steps t.context n f s.core (.done o) [] s'.core := by
  obtain ⟨n, ds, trees', standing', forest, _⟩ := poll.standing standing
  obtain ⟨f', rest', rfl, agrees'⟩ := forest.agrees rfl agrees
  have hf' : f' = .done o := by
    obtain ⟨ts, hunfold, _⟩ := standing'.laid
    rw [main_eq_done answer] at hunfold
    cases hunfold with
    | cons head _ _ =>
      cases head
      rfl
  subst hf'
  have sound : ¬ s'.core.Failed t.context := fun failed => well (agrees'.same.1 failed)
  obtain ⟨f', heq, steps⟩ := forest.steps_of_sound sound rfl agrees
  cases heq
  exact ⟨sound, agrees'.inside, n, steps⟩

/-- A task answers the first time it is run, with what its tree ensures. -/
theorem exists_poll_ensures {g : Goal} {t : Task g} {s : Store} {f : Evaluation g}
    {P : g.Result → Core → Prop} (standing : Standing True t.context t.main s [] [⟨g, f⟩])
    (ensures : Ensures True t.context f s.core P) :
    ∃ (log : List Request) (t' : Task g) (s' : Store) (r : g.Result), Poll t s log t' s' ∧
      t'.main = .done r ∧ P r s'.core ∧ Standing True t.context t'.main s' [] [⟨g, .done r⟩] := by
  obtain ⟨log, t', s', n, f', hpoll, hfinite, hsteps, hend⟩ :=
    exists_poll ⟨standing, ensures.halts trivial⟩
  rcases hend with ⟨r, hmain, rfl⟩ | ⟨_, hidle⟩
  · exact ⟨log, t', s', r, hpoll, hmain, ensures.ends hsteps, hfinite.standing⟩
  · refine absurd (hidle.mono (fun _ _ h => h) fun slot h => ?_) (ensures.live trivial hsteps)
    obtain ⟨who, ws, hslot, _⟩ := h trivial
    simp [Store.core, Heap.slot?, hslot]

end Task

end Troupe
