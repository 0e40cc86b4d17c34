import Mathlib.Algebra.BigOperators.Group.List.Basic
import Troupe.Proofs.Enactment

/-!
Statements in another order.

The statements of a block run side by side, and what a name stands for in the frame of the block
does not depend on the order of the names. So a block whose statements are in another order begins
with the same soup, up to numbers, and is led to the same end.

* `Stmt.atoms_perm`, `Stmt.declared_perm`: the statements and the variables of a block.
* `Heap.like_stage`: the frames are like each other.
* `Evaluation.Performed.ensures`: if the statements end well in one order, they do in every other.
-/

namespace Troupe

open Heap List Multiset Prod Space Stmt

variable {i : Nat} {l l' : List Stmt} {c c' c0 : Core} {h h' : Heap} {R : Likeness} {o : Outcome}
  {K : Set Address} {base env : Env} {vars : List String}

/-! ### Statements in another order -/

namespace Stmt

lemma atoms_ofList : ∀ l : List Stmt, (ofList l).atoms = (l.map atoms).sum
  | [] => rfl
  | [s] => by simp [ofList]
  | s :: s' :: l => by
    rw [List.map_cons, List.sum_cons, ← atoms_ofList (s' :: l)]
    rfl

/-- A sequence has the same statements in another order. -/
lemma atoms_perm (perm : l.Perm l') : (ofList l).atoms = (ofList l').atoms := by
  rw [atoms_ofList, atoms_ofList]
  exact (perm.map atoms).sum_eq

lemma mem_declared_ofList {name : String} : ∀ {l : List Stmt},
    name ∈ (ofList l).declared ↔ ∃ s ∈ l, name ∈ s.declared
  | [] => by simp [ofList, declared, collectFrom]
  | [s] => by simp [ofList]
  | s :: s' :: l => by
    rw [show ofList (s :: s' :: l) = seq s (ofList (s' :: l)) from rfl, mem_declared_seq,
      mem_declared_ofList]
    simp

end Stmt

lemma nodup_collect {seen : List String} (h : seen.Nodup) (name : String) :
    (collect seen name).Nodup := by
  unfold collect
  split
  · exact h
  · rename_i hnot
    rw [contains_iff_mem] at hnot
    exact h.append (List.nodup_singleton name) (by simpa using hnot)

lemma Pattern.nodup_collectFrom : ∀ (p : Pattern) {seen : List String}, seen.Nodup →
    (p.collectFrom seen).Nodup
  | .ident name, _, h => nodup_collect h name
  | .pair p q, _, h => q.nodup_collectFrom (p.nodup_collectFrom h)
  | .any, _, h | .const _, _, h | .value _, _, h | .self, _, h => h

lemma Stmt.nodup_collectFrom : ∀ (s : Stmt) {seen : List String}, seen.Nodup →
    (s.collectFrom seen).Nodup
  | .seq a b, _, h => b.nodup_collectFrom (a.nodup_collectFrom h)
  | .define p _, _, h => p.nodup_collectFrom h
  | .equate p q, _, h => q.nodup_collectFrom (p.nodup_collectFrom h)
  | .create name _, _, h => nodup_collect h name
  | .empty, _, h | .send .., _, h | .after .., _, h | .become _, _, h | .throw _, _, h
  | .expr _, _, h => h

/-- A block has each of its variables once. -/
lemma Stmt.nodup_declared (s : Stmt) : s.declared.Nodup := s.nodup_collectFrom nodup_nil

/-- A block has the same variables if its statements are in another order. -/
lemma Stmt.declared_perm (perm : l.Perm l') : (ofList l).declared.Perm (ofList l').declared := by
  rw [perm_ext_iff_of_nodup (nodup_declared _) (nodup_declared _)]
  intro name
  simp only [mem_declared_ofList, perm.mem_iff]

lemma Stmt.tidy_ofList : ∀ {l : List Stmt}, (∀ s ∈ l, s.Tidy) → (ofList l).Tidy
  | [], _ => trivial
  | [s], h => h s (List.mem_singleton_self s)
  | _ :: _ :: _, h => ⟨h _ (mem_cons_self ..),
      tidy_ofList fun s hs => h s (mem_cons_of_mem _ hs)⟩

lemma Stmt.like_ofList : ∀ {l : List Stmt}, (∀ s ∈ l, s.Like R s) → (ofList l).Like R (ofList l)
  | [], _ => .empty
  | [s], h => h s (List.mem_singleton_self s)
  | _ :: _ :: _, h => .seq (h _ (mem_cons_self ..))
      (like_ofList fun s hs => h s (mem_cons_of_mem _ hs))

/-! ### Frames of the same variables -/

/-- What a name stands for does not depend on the order, if each name stands there once. -/
lemma lookup_perm {l l' : List (String × Nat)} (perm : l.Perm l') (nodup : (l.map fst).Nodup)
    (name : String) : l.lookup name = l'.lookup name := by
  induction perm with
  | nil => rfl
  | cons x _ ih =>
    rw [lookup_cons, lookup_cons, ih (nodup_cons.1 nodup).2]
  | swap x y l =>
    obtain ⟨x, i⟩ := x
    obtain ⟨y, j⟩ := y
    have hne : y ≠ x := fun heq => (nodup_cons.1 nodup).1 (by simp [heq])
    simp only [lookup_cons]
    by_cases hx : name = x
    · subst hx
      rw [beq_self_eq_true, beq_eq_false_iff_ne.2 hne.symm]
    · rw [beq_eq_false_iff_ne.2 hx]
  | trans first _ ih1 ih2 => exact (ih1 nodup).trans (ih2 ((first.map fst).nodup_iff.1 nodup))

/-- A frame is what its names stand for, and its slots. -/
lemma Space.write_scope_congr (H : Space) {vars' : List String} {slots slots' : List Nat} (id : Nat)
    (names : ∀ name, (vars.zip slots).lookup name = (vars'.zip slots').lookup name)
    (same : ∀ i, i ∈ slots ↔ i ∈ slots') : H.write ((Effect.scope vars).writes { id, slots }) =
      H.write ((Effect.scope vars').writes { id, slots := slots' }) := by
  funext a
  simp only [write, Effect.writes, lookup_cons, funext names]
  congr 2
  by_cases ha : ∃ i ∈ slots, a = ⟨.slot, i⟩
  · obtain ⟨i, hi, rfl⟩ := ha
    rw [lookup_slots hi, lookup_slots ((same i).1 hi)]
  · simp only [not_exists, not_and] at ha
    rw [lookup_slots_eq_none ha, lookup_slots_eq_none fun i hi => ha i ((same i).2 hi)]

/-- The frame of a block, as one that has its variables in another order. -/
lemma Heap.exists_space_newScope (h : Heap) (captured caller : Env) {vars' : List String}
    (perm : vars.Perm vars') (nodup : vars.Nodup) : ∃ r : Feedback, r.id = h.scopes.size ∧
      (Effect.scope vars').Allowed h.space r ∧
      (h.newScope captured caller vars).2.space = h.space.write
      ((Effect.scope vars').writes r) := by
  set slots := range' h.slots.size vars.length with hslots
  have hfst : (vars.zip slots).map fst = vars := map_fst_zip (by simp [hslots])
  have hsnd : (vars.zip slots).map snd = slots := map_snd_zip (by simp [hslots])
  -- the pairs of names and slots, in the other order of the names
  have hforall : Forall₂ (fun x name => x.1 = name) (vars.zip slots) vars := by
    rw [← forall₂_map_left_iff (f := fst) (R := Eq), hfst]
    exact forall₂_eq_eq_eq ▸ rfl
  obtain ⟨zipped, hzip, hnames⟩ : Relation.Comp Perm (Forall₂ fun x name => x.1 = name)
      (vars.zip slots) vars' := by
    rw [← forall₂_comp_perm_eq_perm_comp_forall₂]
    exact ⟨vars, hforall, perm⟩
  have hvars' : zipped.map fst = vars' := by
    rwa [← forall₂_map_left_iff (f := fst) (R := Eq), forall₂_eq_eq_eq] at hnames
  have hzipped : vars'.zip (zipped.map snd) = zipped := hvars' ▸ (zip_of_prod rfl rfl).symm
  have hslots' : slots.Perm (zipped.map snd) := hsnd ▸ hzip.map snd
  have hfree : ∀ i ∈ slots, h.space ⟨.slot, i⟩ = none := by
    intro i hi
    have hle : h.slots.size ≤ i := (mem_range'_1.1 hi).1
    simp [space, hle]
  refine ⟨{ id := h.scopes.size, slots := zipped.map snd }, rfl, ⟨?_, ?_, ?_, ?_⟩, ?_⟩
  · simp [space]
  · rw [← hvars', length_map, length_map]
  · exact hslots'.nodup_iff.1 nodup_range'
  · exact fun i hi => hfree i (hslots'.mem_iff.2 hi)
  · rw [space_newScope]
    refine write_scope_congr _ _ (fun name => ?_) fun i => hslots'.mem_iff
    rw [hzipped]
    exact lookup_perm hzip (hfst.symm ▸ nodup) name

/-- The frame of a block that an actor runs, as one that has its variables in another order. -/
lemma Heap.exists_space_enact (h : Heap) (b : Block) (self : ActorId) (base : Env)
    (perm : b.vars.Perm vars) (nodup : b.vars.Nodup) : ∃ r : Feedback, r.id = h.scopes.size ∧
      (Effect.scope vars).Allowed h.space r ∧
      (h.enact b self base).2.space = h.space.write ((Effect.scope vars).writes r) :=
  (h.newActor self base).2.exists_space_newScope b.env (h.newActor self base).1 perm nodup

/-- What is written to free addresses is not seen. -/
lemma Space.Like.write_fresh {H H' : Space} (hH : H.Like R H') {ws ws' : List (Address × Content)}
    (fresh : ∀ x ∈ ws, H x.1 = none) (fresh' : ∀ x ∈ ws', H' x.1 = none) :
    (H.write ws).Like R (H'.write ws') :=
  hH.write le_rfl fun _ _ _ hij => .inl ⟨hij, lookup_of_fresh fresh (hH.ne_none hij).1,
    lookup_of_fresh fresh' (hH.ne_none hij).2⟩

/-- New blocks are not seen. -/
lemma Heap.like_newBlock (like : h.space.Like R h'.space) (b b' : Block) :
    (h.newBlock b).2.space.Like R (h'.newBlock b').2.space := by
  rw [space_newBlock, space_newBlock]
  refine like.write_fresh ?_ ?_ <;> simp [space]

/-- New functions are not seen. -/
lemma Heap.like_newClosure (like : h.space.Like R h'.space) (f f' : Closure) :
    (h.newClosure f).2.space.Like R (h'.newClosure f').2.space := by
  rw [space_newClosure, space_newClosure]
  refine like.write_fresh ?_ ?_ <;> simp [space]

/-! ### Nothing dangles -/

/-- The second space has all that the first one has, and nothing in it dangles. -/
structure Space.Widens (H H' : Space) : Prop where
  dom : H.dom ⊆ H'.dom
  closed : H'.Closed H'.dom

/-- Something new that mentions only what is there. -/
lemma Space.Closed.widens {H : Space} {ε : Effect} {r : Feedback} (closed : H.Closed H.dom)
    (inside : ε.Like (.on H.dom) ε) (allowed : ε.Allowed H r) :
    H.Widens (H.write (ε.writes r)) := by
  have hdom := dom_write inside allowed
  exact ⟨hdom ▸ Set.subset_union_left, hdom ▸ closed.effect inside⟩

namespace Heap

variable (closed : h.space.Closed h.space.dom)
include closed

lemma widens_newLayer (base : Env) : h.space.Widens (h.newLayer base).2.space := by
  rw [space_newLayer]
  refine closed.widens (ε := .make (.layer fun _ => none)) (r := { id := h.layers.size })
    (.make (.layer fun _ => .none)) ?_
  simp [Effect.Allowed, Content.kind, space]

lemma widens_newClosure {f : Closure} (inside : f.Like (.on h.space.dom) f) :
    h.space.Widens (h.newClosure f).2.space := by
  rw [space_newClosure]
  refine closed.widens (ε := .make (.closure f)) (r := { id := h.closures.size })
    (.make (.closure inside)) ?_
  simp [Effect.Allowed, Content.kind, space]

lemma widens_newBlock {b : Block} (inside : b.Like (.on h.space.dom) b) :
    h.space.Widens (h.newBlock b).2.space := by
  rw [space_newBlock]
  refine closed.widens (ε := .make (.block b)) (r := { id := h.blocks.size })
    (.make (.block inside)) ?_
  simp [Effect.Allowed, Content.kind, space]

end Heap

/-! ### What stays on the way of a soup -/

namespace Soup.Path

variable {now : Millis} {k : Nat} {st st' : Soup}

lemma dom_subset (path : Path now k st st') : st.space.dom ⊆ st'.space.dom := by
  induction path with
  | refl st => exact subset_rfl
  | @step _ st _ m r _ _ _ ih =>
    refine Set.Subset.trans (fun a ha => ?_) ih
    have ha : st.space a ≠ none := ha
    show (st.space.write (m.effect.writes r)) a ≠ none
    rw [write]
    cases (m.effect.writes r).lookup a with
    | none => exact ha
    | some c => simp

/-- Frames keep their names. -/
lemma keeps_scope (path : Path now k st st') {n : Nat} {content : Content} :
    st.space ⟨.scope, n⟩ = some content → st'.space ⟨.scope, n⟩ = some content := by
  induction path with
  | refl st => exact id
  | @step _ st _ m r _ allowed _ ih =>
    intro h
    refine ih ((write_of_not ?_).trans h)
    exact allowed.lookup_eq_none (by simp [h]) (by simp) (by simp)

end Soup.Path

/-! ### Runs that make no actors -/

lemma Core.gathers_of_not_staged (h : ¬ c.Staged i 1) : c.Gathers i #[] := by
  simp only [Staged, not_forall, Nat.not_le, Nat.lt_one_iff] at h
  obtain ⟨e, he, hsize⟩ := h
  exact ⟨e, he, Array.eq_empty_of_size_eq_zero hsize⟩

/-- If a run ends well, and without a new actor, there was none before. -/
lemma Evaluation.Steps.gathers_of_end {cx : Context} {n : Nat} {g : Goal} {f f' : Evaluation g}
    {ds : List Work} (hs : Steps cx n f c f' ds c') (well : ¬ f'.Doomed .layer)
    (gathers : c'.Gathers cx.transaction #[]) : c.Gathers cx.transaction #[] := by
  refine Core.gathers_of_not_staged fun staged => ?_
  exact (hs.ruined (n := 0) (fun _ _ => Nat.zero_le _) (.inr staged)).elim well gathers.not_staged

/-! ### The block -/

/-- A block of these statements. -/
def Block.ofList (l : List Stmt) (env : Env) : Block := ⟨(Stmt.ofList l).declared, .ofList l, env⟩

/-- Makes a block of these statements, and the frame on which the actor runs it. -/
def Heap.stage (h : Heap) (l : List Stmt) (env : Env) (self : ActorId) (base : Env) : Env × Heap :=
  (h.newBlock (.ofList l env)).2.enact (.ofList l env) self base

/-- The core where the block is about to be run. -/
def Core.stage (c : Core) (l : List Stmt) (env : Env) (self : ActorId) (base : Env) : Core :=
  { c with heap := (c.heap.stage l env self base).2 }

/-- The statements of the block, which are about to begin. -/
def Evaluation.opening (h : Heap) (l : List Stmt) (env : Env) (self : ActorId) (base : Env) :
    Evaluation .outcome :=
  .start (.exec (.ofList l) ⟨(h.stage l env self base).1, 0⟩)

/-- The statements, and the environments that they are run in, mention only addresses of the set,
and each block in them declares what it binds. -/
structure Stmt.Staged (K : Set Address) (l : List Stmt) (env base : Env) : Prop where
  tidy : ∀ s ∈ l, s.Tidy
  inside : ∀ s ∈ l, s.Like (.on K) s
  env : env.Like (.on K) env
  base : base.Like (.on K) base

lemma Stmt.Staged.mono {K' : Set Address} (h : Staged K l env base) (hK : K ⊆ K') :
    Staged K' l env base :=
  have hR := Likeness.on_mono hK
  ⟨h.tidy, fun s hs => (h.inside s hs).mono hR, h.env.mono hR, h.base.mono hR⟩

/-- Nothing in the heap dangles, and each block declares what it binds. -/
structure Heap.Neat (h : Heap) : Prop where
  closed : h.space.Closed h.space.dom
  tidy : h.Tidy

namespace Heap

lemma stage_fst (h : Heap) (l : List Stmt) (env : Env) (self : ActorId) (base : Env) :
    (h.stage l env self base).1 = .block h.scopes.size env (.actor h.stamps self base) := rfl

lemma grows_stage (h : Heap) (l : List Stmt) (env : Env) (self : ActorId) (base : Env) :
    h.Anchors ((h.newBlock (.ofList l env)).2.newActor self base).2 ∧
      h.Anchors (h.stage l env self base).2 := by
  have hbefore : h.Anchors ((h.newBlock (.ofList l env)).2.newActor self base).2 :=
    (Anchors.of_grows (h.grows_newBlock _)).trans (.of_grows (grows_newActor _ self base))
  exact ⟨hbefore, hbefore.trans (.of_grows (grows_newScope ..))⟩

lemma widens_stage (closed : h.space.Closed h.space.dom)
    (staged : Stmt.Staged h.space.dom l env base) (self : ActorId) :
    h.space.Widens (h.stage l env self base).2.space := by
  have hblock := widens_newBlock closed (b := .ofList l env)
    ⟨rfl, like_ofList staged.inside, staged.env⟩
  obtain ⟨r, _, allowed, hspace⟩ :=
    (h.newBlock (.ofList l env)).2.exists_space_enact (.ofList l env)
    self base (.refl _) (Stmt.nodup_declared _)
  have hscope := hblock.closed.widens (.scope _) allowed
  rw [stage, hspace]
  exact ⟨hblock.dom.trans hscope.dom, hscope.closed⟩

lemma scope_mem_stage (h : Heap) (l : List Stmt) (env : Env) (self : ActorId) (base : Env) :
    ⟨.scope, h.scopes.size⟩ ∈ (h.stage l env self base).2.space.dom := by
  simp [dom, space, stage, enact, newScope, newActor, newBlock]

/-- The code of the heap with the frame of a block is tidy, and the frame takes what the statements
bind. -/
lemma guarded_stage (tidy : h.Tidy) (statements : ∀ s ∈ l, s.Tidy) (env : Env) (self : ActorId)
    (base : Env) : (h.stage l env self base).2.Tidy ∧
      (Item.exec (.ofList l) (h.stage l env self base).1).Guarded True h
        (h.stage l env self base).2 := by
  have hbody := Stmt.tidy_ofList statements
  refine ⟨(tidy.newBlock ⟨List.Subset.refl _, hbody⟩).of_eq rfl rfl, trivial, hbody, ?_⟩
  exact fun name hname => takes_newScope (h.grows_stage l env self base).1 _ _ hname

/-- In heaps that are like each other, frames of the same variables are like each other, whatever
the order of the statements. -/
lemma like_stage (unique : R.Unique) (like : h'.space.Like R h.space)
    (frames : h'.frames = h.frames) (perm : l.Perm l') (env : Env) (self : ActorId) (base : Env) :
    ∃ R', R ≤ R' ∧ R'.Unique ∧ R' .scope h.scopes.size h.scopes.size ∧
      (h'.stage l' env self base).2.space.Like R' (h.stage l env self base).2.space := by
  obtain ⟨r, hr, allowed, hspace⟩ :=
    (h.newBlock (.ofList l env)).2.exists_space_enact (.ofList l env)
    self base (.refl _) (Stmt.nodup_declared _)
  obtain ⟨r', hr', allowed', hspace'⟩ := (h'.newBlock (.ofList l' env)).2.exists_space_enact
    (.ofList l' env) self base (Stmt.declared_perm perm.symm) (Stmt.nodup_declared _)
  obtain ⟨R', hR, hunique, ⟨hscope, _⟩, hlike⟩ := Effect.exists_like unique
    (like_newBlock like (.ofList l' env) (.ofList l env)) (.scope _) allowed' allowed
  refine ⟨R', hR, hunique, ?_, ?_⟩
  · have hscopes : h'.scopes = h.scopes := congrArg fst frames
    rw [hr, hr'] at hscope
    rwa [show (h'.newBlock (.ofList l' env)).2.scopes.size = h.scopes.size by
      rw [← hscopes]; rfl] at hscope
  · rwa [stage, stage, hspace, hspace']

end Heap

/-- The second core is like the first one. The addresses of the set stand for themselves, the frames
of variables are the same, and no actors were made. -/
structure Core.Abreast (i : Nat) (K : Set Address) (R : Likeness) (c c' : Core) : Prop where
  keeps : .on K ≤ R
  unique : R.Unique
  space : c'.heap.space.Like R c.heap.space
  sends : Multiset.Rel (PendingSend.Like R) (c'.sends i) (c.sends i)
  frames : c'.heap.frames = c.heap.frames
  gathers : c'.Gathers i #[]

lemma Core.Abreast.subset_dom (abreast : Abreast i K R c c') : K ⊆ c.heap.space.dom := fun _ ha =>
  (abreast.space.ne_none (abreast.keeps _ _ _ ⟨rfl, ha⟩)).2

namespace Evaluation

variable {cx : Context} {self : ActorId}

/-- The statements of a block begin on a sound soup. -/
lemma proper_opening (neat : c.heap.Neat) (staged : Stmt.Staged c.heap.space.dom l env base)
    (gathers : c'.Gathers cx.transaction #[])
    (twin : (c.stage l env self base).Twin cx.transaction c') :
    Proper cx #[] True c.heap (opening c.heap l env self base) c' := by
  have hwidens := widens_stage neat.closed staged self
  have hframe := c.heap.scope_mem_stage l env self base
  have hclosed := hwidens.closed
  obtain ⟨hcode, hguarded⟩ := guarded_stage neat.tidy staged.tidy env self base
  have hspace : c'.heap.space = (c.heap.stage l env self base).2.space := twin.heap.space_eq
  have hstaged := staged.mono hwidens.dom
  have hlike : (opening c.heap l env self base).Like (.on c'.heap.space.dom) .layer
      (opening c.heap l env self base) := by
    rw [hspace]
    exact .start (.exec (like_ofList hstaged.inside)
      ⟨⟨.block ⟨rfl, hframe⟩ hstaged.env (.actor _ _ hstaged.base), rfl⟩, rfl⟩)
  have hover := over_threads hlike
  rw [← hspace] at hclosed
  refine ⟨rfl, gathers, ⟨hclosed, hover, fun w rest hrest => ?_⟩,
    (c.heap.grows_stage l env self base).2.trans twin.heap.anchors, fun _ => ?_, ?_⟩
  · -- the threads have not begun, so they keep clear of everything
    have hmem : ∀ u ∈ w ::ₘ rest, u ∈ (opening c.heap l env self base).threads := fun u hu => by
      rwa [← hrest] at hu
    obtain ⟨a, _, rfl⟩ := mem_map.1 (hmem w (mem_cons_self _ _))
    exact ⟨_, hclosed, fun u hu => hover u (hmem u (mem_cons_of_mem hu)), trivial⟩
  · exact hcode.of_eq twin.heap.closures twin.heap.blocks
  · exact List.forall_mem_singleton.2 (hguarded.mono twin.heap.anchors)

/-- Statements in different orders begin with soups that are like each other. -/
lemma like_opening (abreast : Core.Abreast cx.transaction K R c c')
    (staged : Stmt.Staged K l env base) (perm : l.Perm l') (self : ActorId) :
    ∃ R', R ≤ R' ∧ R' .scope c.heap.scopes.size c.heap.scopes.size ∧
      ((opening c'.heap l' env self base).soup (c'.stage l' env self base) cx.transaction).Like R'
        ((opening c.heap l env self base).soup (c.stage l env self base) cx.transaction) := by
  obtain ⟨R', hR, unique, hscope, hspace⟩ :=
    like_stage abreast.unique abreast.space abreast.frames perm env self base
  have hkeeps : Likeness.on K ≤ R' := abreast.keeps.trans hR
  have hframe : (c'.heap.stage l' env self base).1 = (c.heap.stage l env self base).1 := by
    have hscopes : c'.heap.scopes = c.heap.scopes := congrArg fst abreast.frames
    have hstamps : c'.heap.stamps = c.heap.stamps := congrArg snd abreast.frames
    rw [stage_fst, stage_fst, hscopes, hstamps]
  refine ⟨R', hR, hscope, unique, hspace, ?_, abreast.sends.mono fun _ _ _ _ hx => hx.mono hR⟩
  have hlike : (opening c'.heap l' env self base).Like R' .layer
      (.start (.exec (.ofList l') ⟨(c.heap.stage l env self base).1, 0⟩)) := by
    rw [opening, hframe]
    refine .start (.exec (like_ofList fun s hs => ?_) ⟨⟨?_, rfl⟩, rfl⟩)
    · exact (staged.inside s (perm.mem_iff.2 hs)).mono hkeeps
    · exact .block hscope (staged.env.mono hkeeps) (.actor _ _ (staged.base.mono hkeeps))
  have hthreads := hlike.threads
  rw [threads, atoms_perm perm.symm] at hthreads
  exact hthreads

/-- The statements of the block were run on their frame, and this is how they ended. -/
def Performed (cx : Context) (c : Core) (l : List Stmt) (env : Env) (self : ActorId) (base : Env)
    (o : Outcome) (c0 : Core) : Prop :=
  ∃ n ds c1, (c.stage l env self base).Twin cx.transaction c1 ∧
    Steps cx n (opening c.heap l env self base) c1 (.done o) ds c0

section Performed

variable (performed : Performed cx c l env self base o c0) (well : o ≠ .fail)
  (gathers : c0.Gathers cx.transaction #[])
include performed well gathers

lemma Performed.gathers_before : c.Gathers cx.transaction #[] := by
  obtain ⟨_, _, c1, twin, run⟩ := performed
  exact (twin.gathers #[]).1 (run.gathers_of_end (not_doomed_done well) gathers)

variable (neat : c.heap.Neat) (staged : Stmt.Staged c.heap.space.dom l env base)
include neat staged

/-- Statements that end well, and make no actors, take steps of their soup. -/
lemma Performed.path :
    ((opening c.heap l env self base).soup (c.stage l env self base) cx.transaction).Sound ∧
      ∃ k, Soup.Path cx.now k
        ((opening c.heap l env self base).soup (c.stage l env self base) cx.transaction)
        ((Evaluation.done (g := .outcome) o).soup c0 cx.transaction) := by
  have before := performed.gathers_before well gathers
  obtain ⟨_, _, c1, twin, run⟩ := performed
  have proper := proper_opening neat staged ((twin.gathers #[]).2 before) twin
  rw [← twin.soup_eq]
  exact ⟨proper.sound, (run.path (not_doomed_done well) gathers proper).2⟩

/-- At its end, a block has the variables that it declares. -/
lemma Performed.exists_slot {name : String} (declared : name ∈ (Stmt.ofList l).declared) :
    ∃ slot, (c0.heap.scope c.heap.scopes.size).lookup name = some slot := by
  obtain ⟨_, _, path⟩ := performed.path well gathers neat staged
  obtain ⟨content, hcontent⟩ :=
    Option.ne_none_iff_exists'.1 (c.heap.scope_mem_stage l env self base)
  have hend : c0.heap.space ⟨.scope, c.heap.scopes.size⟩ = some content := path.keeps_scope hcontent
  obtain ⟨slot, hslot, _⟩ :=
    (guarded_stage neat.tidy staged.tidy env self base).2.2.2 name declared
  refine ⟨slot, ?_⟩
  rwa [← space_scope, Space.scope, hend, ← hcontent, ← Space.scope, space_scope]

end Performed

/-- A run has ended like another one. The addresses of the set stand for themselves, and so does the
frame of variables. -/
def EndsLike (i : Nat) (K : Set Address) (frame : Nat) (o : Outcome) (c : Core) (o' : Outcome)
    (c' : Core) : Prop :=
  c'.Gathers i #[] ∧ ∃ R, .on K ≤ R ∧ R .scope frame frame ∧
    ((Evaluation.done (g := .outcome) o').soup c' i).Like R
      ((Evaluation.done (g := .outcome) o).soup c i)

namespace EndsLike

variable {frame : Nat} {o' : Outcome}

lemma twin {c0' : Core} (h : EndsLike i K frame o c0 o' c0') (twin : c0.Twin i c)
    (twin' : c0'.Twin i c') : EndsLike i K frame o c o' c' := by
  obtain ⟨gathers, R, hR, hframe, like⟩ := h
  refine ⟨(twin'.gathers #[]).2 gathers, R, hR, hframe, ?_⟩
  rwa [twin.soup_eq, twin'.soup_eq]

lemma mono {K' : Set Address} (h : EndsLike i K' frame o c o' c') (hK : K ⊆ K') :
    EndsLike i K frame o c o' c' := by
  obtain ⟨gathers, R, hR, hframe, like⟩ := h
  exact ⟨gathers, R, (Likeness.on_mono hK).trans hR, hframe, like⟩

end EndsLike

/-- If the statements of a block end well in one order, and make no actors, then in every other
order they are sure to end in the same way. -/
theorem Performed.ensures (performed : Performed cx c l env self base o c0) (well : o ≠ .fail)
    (gathers : c0.Gathers cx.transaction #[]) (neat : c.heap.Neat)
    (staged : Stmt.Staged K l env base) (perm : l.Perm l')
    (abreast : Core.Abreast cx.transaction K R c c') {c1 : Core}
    (twin : (c'.stage l' env self base).Twin cx.transaction c1) :
    Ensures True cx (opening c'.heap l' env self base) c1
      (EndsLike cx.transaction K c.heap.scopes.size o c0) := by
  obtain ⟨sound, k, path⟩ := performed.path well gathers neat (staged.mono abreast.subset_dom)
  obtain ⟨R', hR, hscope, like⟩ := like_opening abreast staged perm self
  rw [← twin.soup_eq] at like
  have tracks : Tracks cx R' #[] _ k (opening c'.heap l' env self base) c1 :=
    ⟨rfl, (twin.gathers #[]).2 abreast.gathers, R', _, le_rfl, like, sound, path⟩
  refine (tracks.ensures (ends_done (g := .outcome) o c0 cx.transaction)).mono fun o' c0' hend => ?_
  obtain ⟨hgathers, R'', hR', hlike⟩ := hend
  exact ⟨hgathers, R'', (abreast.keeps.trans hR).trans hR', hR' _ _ _ hscope, hlike⟩

end Evaluation

end Troupe
