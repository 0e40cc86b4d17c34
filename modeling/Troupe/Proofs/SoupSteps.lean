import Troupe.Proofs.DoomedTrees

/-!
Small steps as steps of a soup.

A tree with the core of a store is a soup (`Evaluation.soup`). A small step of a thread carries out
its plan: with a response, together with the reading of the slot if the plan looked a name up, or in
vain (`Evaluation.Mirrored`). Beginning and ending a sequence changes no thread.

* `Evaluation.Micro.echo`: a small step of a tree is nothing, some steps, a step in vain or a
  conflict of behaviors for the soup of the tree. A step in vain, or a conflict, dooms the tree.
-/

namespace Troupe

open Multiset Nat

variable {made : Array StagedActor} {ds : List Work}

variable {i : Nat} {c c' : Core} {R : Likeness} {level inner outer : Level} {g h : Goal} {H : Space}
  {now : Millis} {cx : Context} {n : Nat}

/-! ### Small steps of one thread -/

lemma Job.flat_flat (job : Job g) : job.flat.flat = job.flat := by
  cases job <;> rfl

lemma Frame.flat_flat (frame : Frame g h) : frame.flat.flat = frame.flat := by
  cases frame <;> rfl

lemma Join.flat_flat (join : Join g h) : join.flat.flat = join.flat := by
  cases join <;> rfl

namespace Evaluation

lemma flat_flat (e : Evaluation g) : e.flat.flat = e.flat := by
  induction e with
  | start job => exact congrArg start job.flat_flat
  | one part frame ih => exact congrArg₂ one ih frame.flat_flat
  | both left right join ih1 ih2 => simp only [flat, ih1, ih2, join.flat_flat]
  | race left right ih1 ih2 => exact congrArg₂ race ih1 ih2
  | _ => rfl

/-- Small steps keep depths forgotten. -/
lemma Micro.flat {f f' : Evaluation g} (hm : Micro cx f c f' ds c') (hf : f.flat = f) :
    f'.flat = f' := by
  induction hm with
  | start | resume | join | merge => exact flat_flat _
  | one frame _ ih =>
    simp only [Evaluation.flat, one.injEq, heq_eq_eq, true_and] at hf ⊢
    exact ⟨ih hf.1, hf.2⟩
  | bothLeft right join _ ih =>
    simp only [Evaluation.flat, both.injEq, heq_eq_eq, true_and] at hf ⊢
    exact ⟨ih hf.1, hf.2⟩
  | bothRight left join _ ih =>
    simp only [Evaluation.flat, both.injEq, heq_eq_eq, true_and] at hf ⊢
    exact ⟨hf.1, ih hf.2.1, hf.2.2⟩
  | raceLeft right _ ih =>
    simp only [Evaluation.flat, race.injEq] at hf ⊢
    exact ⟨ih hf.1, hf.2⟩
  | raceRight left _ ih =>
    simp only [Evaluation.flat, race.injEq] at hf ⊢
    exact ⟨hf.1, ih hf.2⟩
  | _ => rfl

/-- The evaluation is not about to begin a sequence. -/
def Single {g : Goal} : Evaluation g → Prop
  | .start job => job.Single
  | _ => True

lemma single_of_ne (hg : g ≠ .outcome) (e : Evaluation g) : e.Single := by
  cases e with
  | start job =>
    cases job with
    | exec => exact absurd rfl hg
    | _ => trivial
  | _ => trivial

/-- What a step in vain leaves is doomed, or has staged an actor after `n` others. Names are bound
where `Evaluation.Guarded` says. -/
def Ruins (level : Level) (i n : Nat) (c : Core) (e f : Evaluation g) (c' : Core) : Prop :=
  ∀ {tidy : Prop} {old : Heap}, e.Guarded tidy old c.heap → f.Doomed level ∨ c'.Staged i (n + 1)

/-- An evaluation carries a plan out, or two if the first one looks a name up, or it tries to in
vain. -/
inductive Mirrored (now : Millis) (level : Level) (i n : Nat) (c : Core) {g : Goal}
    (e : Evaluation g) : Evaluation g → Core → Prop where
  | step {p : Plan g} {c' : Core} (fires : e.Fires now c.heap.space p) (r : Feedback)
      (allowed : p.effect.Allowed c.heap.space r) (grows : c.Grows i p.effect r c') :
      Mirrored now level i n c e (p.next r) c'
  | look {e1 : Evaluation g} {p : Plan g} {c' : Core} (first : e.Fires now c.heap.space (.pure e1))
      (single : e1.threads = {⟨g, e1⟩}) (second : e1.Fires now c.heap.space p) (r : Feedback)
      (allowed : p.effect.Allowed c.heap.space r) (grows : c.Grows i p.effect r c') :
      Mirrored now level i n c e (p.next r) c'
  | hopeless {p : Plan g} {f : Evaluation g} {c' : Core} (fires : e.Fires now c.heap.space p)
      (hopeless : p.effect.Hopeless c.heap.space) (ruins : Ruins level i n c e f c') :
      Mirrored now level i n c e f c'

/-- A part carries its plan out. -/
lemma Mirrored.map {e f : Evaluation g} (C : Evaluation g → Evaluation h)
    (hC : ∀ {e p}, e.Fires now c.heap.space p → (C e).Fires now c.heap.space (p.map C))
    (single : ∀ e, (C e).threads = {⟨h, C e⟩})
    (ruins : Ruins inner i n c e f c' → Ruins outer i n c (C e) (C f) c')
    (hm : Mirrored now inner i n c e f c') : Mirrored now outer i n c (C e) (C f) c' := by
  cases hm with
  | step fires r allowed grows => exact .step (hC fires) r allowed grows
  | look first _ second r allowed grows =>
    exact .look (hC first) (single _) (hC second) r allowed grows
  | hopeless fires hopeless hruins => exact .hopeless (hC fires) hopeless (ruins hruins)

end Evaluation

lemma Plan.Met.mirrored {e f : Evaluation g} {p : Plan g} (fires : e.Fires now c.heap.space p)
    (met : p.Met i c f c')
    (ruins : p.effect.Hopeless c.heap.space → Evaluation.Ruins level i n c e f c') :
    e.Mirrored now level i n c f c' := by
  cases met with
  | met r allowed grows => exact .step fires r allowed grows
  | @look slot v bound =>
    exact .look fires rfl (.read slot) { value := v } (c.heap.space_slot.2 bound) (.idle rfl rfl)
  | hopeless hopeless => exact .hopeless fires hopeless (ruins hopeless)

lemma Frame.Like.ne_outcome {frame frame' : Frame g h} (like : frame.Like R inner outer frame') :
    g ≠ .outcome := by
  cases like <;> decide

lemma Join.ne_outcome (join : Join g h) : g ≠ .outcome := by
  cases join <;> decide

/-- Parts that are joined are not doomed. -/
lemma Join.not_doomed (join : Join g h) {e : Evaluation g} : ¬ e.Doomed level := by
  intro doomed
  have hgoal := doomed.goal
  cases join <;> simp at hgoal

namespace Evaluation

/-- The plan of a part in vain. -/
lemma Ruins.one {e f : Evaluation g} {frame frame' : Frame g h}
    (like : frame.Like R inner outer frame')
    (ruins : Ruins inner i n c e f c') : Ruins outer i n c (.one e frame) (.one f frame) c' := by
  intro tidy old guarded
  refine (ruins (List.forall_mem_append.1 guarded).1).imp_left fun doomed => ?_
  have doomed_goal := doomed.goal
  cases like with
  | fitTail _ _ _ => exact .fitTail _ _ _ doomed
  | unifyTail _ _ _ => exact .unifyTail _ _ _ doomed
  | defined _ => exact .defined _ doomed
  | equated => exact .equated doomed
  | _ => simp at doomed_goal

/-- A small step of a thread carries its plan out. -/
theorem Micro.mirrored {f f' e : Evaluation g} (hm : Micro cx f c f' ds c')
    (gathers : c.Gathers cx.transaction made) (hH : c.heap.space.Like R H) (hf : f.flat = f)
    (he : f.Like R level e) (hsingle : f.Single) :
    ds = [] ∧ f.Mirrored cx.now level cx.transaction made.size c f' c' := by
  induction hm generalizing level with
  | start job c =>
    cases he with
    | start hj =>
      have hflat : job.flat = job := by simpa [Evaluation.flat] using hf
      have hmet := Job.begin_met (i := cx.transaction) cx hH job hsingle (by rw [hflat]; exact hj)
      rw [hflat] at hmet
      exact ⟨rfl, hmet.mirrored (.start job) fun hopeless _ _ guarded =>
        .inl (Job.begin_ruin hsingle hj guarded hopeless)⟩
  | @read slot v c bound =>
    exact ⟨rfl, .step (.read slot) { value := v } (c.heap.space_slot.2 bound) (.idle rfl rfl)⟩
  | resume r frame c =>
    cases he with
    | one hpart hframe =>
      have hflat : frame.flat = frame := by simpa [Evaluation.flat] using hf
      have hmet :=
        frame.resume_met (i := cx.transaction) (c := c) cx (by rw [hflat]; exact hframe) r
      rw [hflat] at hmet
      exact ⟨rfl, hmet.mirrored (.resume r frame) fun hopeless _ _ _ =>
        Frame.resume_ruin hframe gathers.staged r hopeless⟩
  | join a b join c =>
    have hflat : join.flat = join := by simpa [Evaluation.flat] using hf
    have hmet := join.resume_met cx gathers a b
    rw [hflat] at hmet
    exact ⟨rfl, hmet.mirrored (.join a b join) fun hopeless _ _ _ =>
      .inl (join.resume_ruin a b hopeless)⟩
  | one frame _ ih =>
    simp only [Evaluation.flat, one.injEq, heq_eq_eq, true_and] at hf
    cases he with
    | one hpart hframe =>
      obtain ⟨hds, hmirrored⟩ := ih gathers hH hf.1 hpart (single_of_ne hframe.ne_outcome _)
      exact ⟨hds, hmirrored.map (.one · frame) (.one frame) (fun _ => rfl) (.one hframe)⟩
  | bothLeft right join _ ih =>
    simp only [Evaluation.flat, both.injEq, heq_eq_eq, true_and] at hf
    cases he with
    | both first second =>
      obtain ⟨hds, hmirrored⟩ := ih gathers hH hf.1 first (single_of_ne join.ne_outcome _)
      exact ⟨hds, hmirrored.map (.both · right join) (.bothLeft right join) (fun _ => rfl)
        fun ruins _ _ guarded =>
          .inr ((ruins (List.forall_mem_append.1 guarded).1).resolve_left join.not_doomed)⟩
  | bothRight left join _ ih =>
    simp only [Evaluation.flat, both.injEq, heq_eq_eq, true_and] at hf
    cases he with
    | both first second =>
      obtain ⟨hds, hmirrored⟩ := ih gathers hH hf.2.1 second (single_of_ne join.ne_outcome _)
      exact ⟨hds, hmirrored.map (.both left · join) (.bothRight left join) (fun _ => rfl)
        fun ruins _ _ guarded =>
          .inr ((ruins (List.forall_mem_append.1 guarded).2).resolve_left join.not_doomed)⟩
  | _ => cases he

end Evaluation

/-! ### Small steps of a tree -/

namespace Soup

variable {st st' : Soup} {m : Move}

/-- More threads beside. -/
def add (st : Soup) (ws : Multiset Work) : Soup := { st with threads := st.threads + ws }

lemma Moves.add (moves : st.Moves now m) (ws : Multiset Work) :
    (st.add ws).Moves now ⟨m.effect, fun r => m.next r + ws⟩ := by
  obtain ⟨here, fires⟩ := moves
  rename_i g e rest p
  have hmoves : (st.add ws).Moves now ⟨p.effect, fun r => (p.next r).threads + (rest + ws)⟩ := by
    refine .mk ?_ fires
    rw [Soup.add, here, cons_add]
  simpa only [add_assoc] using hmoves

lemma Path.add {k : Nat} (path : Path now k st st') (ws : Multiset Work) :
    Path now k (st.add ws) (st'.add ws) := by
  induction path with
  | refl st => exact .refl _
  | step moves allowed _ ih => exact .step (moves.add ws) allowed ih

end Soup

/-- How many sequences are left to begin or to end. -/
def Stmt.weight : Stmt → Nat
  | .empty => 1
  | .seq first second => first.weight + second.weight + 2
  | _ => 0

namespace Evaluation

/-- How many sequences are left to begin or to end. -/
def weight : {g : Goal} → Evaluation g → Nat
  | _, .race left right => left.weight + right.weight + 1
  | _, .start (.exec stmt _) => stmt.weight
  | _, _ => 0

/-- The soup of a tree. -/
def soup (f : Evaluation g) (c : Core) (i : Nat) : Soup := ⟨f.threads, c.heap.space, c.sends i⟩

/-- What a small step is for the soup of a tree: nothing, some steps, a step in vain, or a conflict
of behaviors. -/
inductive Echo (cx : Context) (n : Nat) {g : Goal} (f : Evaluation g) (c : Core) (f' : Evaluation g)
    (c' : Core) : Prop where
  | quiet (same : f'.threads = f.threads) (core : c' = c) (less : f'.weight < f.weight)
  | path {k : Nat} (gathers : ∀ {made}, c.Gathers cx.transaction made →
      c'.Gathers cx.transaction made)
      (path : Soup.Path cx.now (k + 1) (f.soup c cx.transaction) (f'.soup c' cx.transaction))
  | hopeless {m : Move} (moves : (f.soup c cx.transaction).Moves cx.now m)
      (hopeless : m.effect.Hopeless c.heap.space) (ruins : Ruins .layer cx.transaction n c f f' c')
  | conflict {v w : Value} {rest : Multiset Work} (threads : f.threads =
      ⟨.outcome, .done (.become v)⟩ ::ₘ ⟨.outcome, .done (.become w)⟩ ::ₘ rest)
      (doomed : f'.Doomed .layer)

lemma soup_after {e f : Evaluation g} {p : Plan g} {r : Feedback} (gathers : c.Gathers i made)
    (grows : c.Grows i p.effect r c') (hf : f = p.next r) (m : Move)
    (hm : m = ⟨p.effect, fun r => (p.next r).threads + 0⟩) :
    (e.soup c i).after m r = f.soup c' i := by
  subst hm hf
  simp only [Soup.after, soup, add_zero, grows.space, (grows.gathers gathers).2]

/-- A thread that carries a plan out. -/
lemma Mirrored.echo {f f' : Evaluation g} (gathers : c.Gathers cx.transaction made)
    (single : f.threads = {⟨g, f⟩}) (mirrored : f.Mirrored cx.now .layer cx.transaction n c f' c') :
    Echo cx n f c f' c' := by
  have hmoves : ∀ {e : Evaluation g} {p : Plan g}, e.threads = {⟨g, e⟩} →
      e.Fires cx.now c.heap.space p →
        (e.soup c cx.transaction).Moves cx.now ⟨p.effect, fun r => (p.next r).threads + 0⟩ :=
    fun he hfires => .mk he hfires
  cases mirrored with
  | step fires r allowed grows =>
    refine .path (k := 0) (fun h => (grows.gathers h).1) (.step (hmoves single fires) allowed ?_)
    rw [soup_after gathers grows rfl _ rfl]
    exact .refl _
  | @look e1 p _ first hsingle second r allowed grows =>
    have hidle : c.Grows cx.transaction (Plan.pure e1).effect {} c := .idle rfl rfl
    have hfirst := soup_after (e := f) gathers hidle rfl _ rfl
    refine .path (k := 1) (fun h => (grows.gathers h).1)
      (.step (r := {}) (hmoves single first) trivial ?_)
    rw [hfirst]
    refine .step (hmoves hsingle second) allowed ?_
    rw [soup_after gathers grows rfl _ rfl]
    exact .refl _
  | hopeless fires hopeless ruins => exact .hopeless (hmoves single fires) hopeless ruins

lemma Echo.beside {f f' F F' : Evaluation .outcome} {other : Evaluation .outcome}
    (threads : F.threads = f.threads + other.threads)
    (threads' : F'.threads = f'.threads + other.threads)
    (weight : f'.weight < f.weight → F'.weight < F.weight)
    (guarded : ∀ {tidy old heap}, F.Guarded tidy old heap → f.Guarded tidy old heap)
    (doomed : f'.Doomed .layer → F'.Doomed .layer) (echo : Echo cx n f c f' c') :
    Echo cx n F c F' c' := by
  have hsoup : F.soup c cx.transaction = (f.soup c cx.transaction).add other.threads := by
    simp only [soup, Soup.add, threads]
  have hsoup' : F'.soup c' cx.transaction = (f'.soup c' cx.transaction).add other.threads := by
    simp only [soup, Soup.add, threads']
  cases echo with
  | quiet same core less => exact .quiet (by rw [threads, threads', same]) core (weight less)
  | path gathers path =>
    have hpath := path.add other.threads
    rw [← hsoup, ← hsoup'] at hpath
    exact .path gathers hpath
  | hopeless moves hopeless ruins =>
    have hmoves := moves.add other.threads
    rw [← hsoup] at hmoves
    exact .hopeless hmoves hopeless fun hguarded => (ruins (guarded hguarded)).imp_left doomed
  | conflict hthreads hdoomed =>
    exact .conflict (by rw [threads, hthreads, cons_add, cons_add]) (doomed hdoomed)

lemma Outcome.join_echo (a b : Outcome) (ha : a ≠ .fail) (hb : b ≠ .fail) (c : Core) :
    Echo cx n (.race (.done a) (.done b)) c (a.join b cx c.store).1.flat
      (a.join b cx c.store).2.core := by
  cases a with
  | fail => exact absurd rfl ha
  | ok =>
    cases b with
    | fail => exact absurd rfl hb
    | ok => exact .quiet rfl rfl (zero_lt_one)
    | become w => exact .quiet (zero_add _).symm rfl (zero_lt_one)
  | become v =>
    cases b with
    | fail => exact absurd rfl hb
    | ok => exact .quiet (add_zero _).symm rfl (zero_lt_one)
    | become w =>
      refine .conflict (@rfl _ (_ ::ₘ _ ::ₘ 0)) ?_
      change (c.store.throw cx _).1.flat.Doomed .layer
      rw [Store.throw_fst]
      exact .fail

lemma Micro.echo_single (gathers : c.Gathers cx.transaction made) (hH : c.heap.space.Like R H)
    {f f' : Evaluation g} (threads : f.threads = {⟨g, f⟩}) (single : f.Single)
    (hm : Micro cx f c f' ds c') (hflat : f.flat = f) (hlike : ∀ w ∈ f.threads, ∃ w', w.Like R w') :
    ds = [] ∧ Echo cx made.size f c f' c' := by
  obtain ⟨w', hw'⟩ := hlike ⟨g, f⟩ (by rw [threads]; exact mem_singleton_self _)
  cases hw' with
  | mk he =>
    obtain ⟨hds, hmirrored⟩ := hm.mirrored gathers hH hflat he single
    exact ⟨hds, hmirrored.echo gathers threads⟩

/-- A small step of a tree that is like a soup. -/
theorem Micro.echo (gathers : c.Gathers cx.transaction made) (hH : c.heap.space.Like R H)
    {f : Evaluation g} :
    ∀ {f' : Evaluation g} {ds : List Work} {c' : Core}, Micro cx f c f' ds c' → f.flat = f →
      (∀ w ∈ f.threads, ∃ w', w.Like R w') → ds = [] ∧ Echo cx made.size f c f' c' := by
  induction f with
  | done | awaiting =>
    intro f' ds c' hm
    cases hm
  | start job =>
    intro f' ds c' hm hflat hlike
    cases job with
    | exec stmt here =>
      obtain ⟨env, depth⟩ := here
      have hdepth : 0 = depth := by simpa [Evaluation.flat, Job.flat, Place.flat] using hflat
      subst hdepth
      cases stmt with
      | empty =>
        cases hm
        exact ⟨rfl, .quiet rfl rfl zero_lt_one⟩
      | seq first second =>
        cases hm
        exact ⟨rfl, .quiet (map_add _ _ _).symm rfl (lt_succ_self _)⟩
      | _ => exact hm.echo_single gathers hH rfl trivial hflat hlike
    | _ => exact hm.echo_single gathers hH rfl trivial hflat hlike
  | parked | one | both left right join =>
    exact fun hm hflat hlike => hm.echo_single gathers hH rfl trivial hflat hlike
  | race left right ih1 ih2 =>
    intro f' ds c' hm hflat hlike
    simp only [Evaluation.flat, race.injEq] at hflat
    have hleft : ∀ w ∈ left.threads, ∃ w', w.Like R w' := fun w hw =>
      hlike w (mem_add.2 (.inl hw))
    have hright : ∀ w ∈ right.threads, ∃ w', w.Like R w' := fun w hw =>
      hlike w (mem_add.2 (.inr hw))
    -- a statement that has failed is like nothing
    have hfail : ¬ ∃ w', Work.Like R ⟨.outcome, .done .fail⟩ w' := by
      rintro ⟨_, ⟨⟨⟨⟩⟩⟩⟩
    have hmem : (⟨.outcome, .done .fail⟩ : Work) ∈ (done (g := .outcome) .fail).threads :=
      mem_singleton_self _
    cases hm with
    | merge a b =>
      refine ⟨rfl, Outcome.join_echo a b ?_ ?_ c⟩
      · rintro rfl
        exact hfail (hleft _ hmem)
      · rintro rfl
        exact hfail (hright _ hmem)
    | failLeft => exact absurd (hleft _ hmem) hfail
    | failRight => exact absurd (hright _ hmem) hfail
    | raceLeft _ inner =>
      obtain ⟨hds, echo⟩ := ih1 inner hflat.1 hleft
      exact ⟨hds, echo.beside rfl rfl (fun h => by simp only [weight]; omega)
        (fun h => (List.forall_mem_append.1 h).1) (.raceLeft right)⟩
    | raceRight _ inner =>
      obtain ⟨hds, echo⟩ := ih2 inner hflat.2 hright
      exact ⟨hds, echo.beside (add_comm _ _) (add_comm _ _) (fun h => by simp only [weight]; omega)
        (fun h => (List.forall_mem_append.1 h).2) (.raceRight left)⟩

end Evaluation

end Troupe
