import Troupe.Proofs.Ledger
import Troupe.Proofs.Parts

/-!
Evaluations stay inside of what they can reach.

An evaluation works on a closed set of parts `R`: what it makes is added to the set, and all that it
binds, answers and asks for mentions parts of the set only. What others know, the parts in `K`, it
leaves alone, since it binds names in frames of its own (`Item.scene?`).

* `Item.Yields.inside`, `Item.Gain.leaves`: what a step makes of what it holds.
* `Evaluation.Forest.enclosed`: small steps on all trees of a task.
-/

namespace Troupe

open Array Item List Nat Set

variable {i : Item} {s s' : Store} {K R : Set Part}

/-! ### What evaluations mention -/

/-- The parts that an item mentions. -/
def Item.parts : Item → Set Part
  | .eval e env => e.parts ∪ env.parts
  | .exec stmt env => stmt.parts ∪ env.parts
  | .bind p env | .resolve p env => p.parts ∪ env.parts
  | .choice arms env => arms.parts ∪ env.parts
  | .opens ps e env => {q | ∃ p ∈ ps, q ∈ p.parts} ∪ (e.parts ∪ env.parts)
  | .block b => b.parts
  | .run env | .keeps env => env.parts
  | .perform id env | .init id env => insert (.actor id) env.parts
  | .value v => v.parts
  | .slot n => {.slot n}

/-- The environment in whose front frame an item binds names. -/
def Item.scene? : Item → Option Env
  | .exec _ env | .bind _ env => some env
  | _ => none

lemma Item.scene?_parts {env : Env} (henv : env ∈ i.scene?) : env.parts ⊆ i.parts := by
  cases i <;> cases henv <;> exact subset_union_right

/-- The parts that items mention. -/
def Item.partsOf (l : List Item) : Set Part := {p | ∃ i ∈ l, p ∈ i.parts}

lemma Item.partsOf_subset_iff {l : List Item} : partsOf l ⊆ R ↔ ∀ i ∈ l, i.parts ⊆ R :=
  ⟨fun h i hi _ hp => h ⟨i, hi, hp⟩, fun h _ ⟨i, hi, hp⟩ => h i hi hp⟩

/-! ### What transactions mention -/

/-- The parts that a new actor mentions. -/
def StagedActor.parts (a : StagedActor) : Set Part :=
  insert (.actor a.id) (a.behavior.parts ∪ a.env.parts)

/-- The parts that effects mention. -/
def Effects.parts (e : Effects) : Set Part :=
  {p | (∃ x ∈ e.sends, p ∈ x.parts) ∨ (∃ a ∈ e.created, p ∈ a.parts) ∨
    ∃ d ∈ e.defines, p ∈ d.2.parts}

/-- The parts that a transaction mentions. -/
def Transaction.parts : Transaction → Set Part
  | .gathering e => e.parts
  | .failed exception => exception.parts

/-- The parts that a request mentions. -/
def Request.parts : Request → Set Part
  | .init a => a.parts
  | .send message target _ => message.parts ∪ target.parts
  | .define _ v => v.parts
  | .throw exception => exception.parts

lemma Request.parts_apply (r : Request) (t : Transaction) :
    (r.apply t).2.parts ⊆ t.parts ∪ r.parts := by
  cases t with
  | failed x =>
    rw [Transaction.apply_failed]
    exact subset_union_left
  | gathering e =>
    cases r with
    | init a =>
      rintro p (hp | ⟨b, hb, hp⟩ | hp)
      · exact .inl (.inl hp)
      · rcases mem_push.1 hb with hb | rfl
        · exact .inl (.inr (.inl ⟨b, hb, hp⟩))
        · exact .inr hp
      · exact .inl (.inr (.inr hp))
    | define name v =>
      rintro p (hp | hp | ⟨d, hd, hp⟩)
      · exact .inl (.inl hp)
      · exact .inl (.inr (.inl hp))
      · rcases mem_push.1 hd with hd | rfl
        · exact .inl (.inr (.inr ⟨d, hd, hp⟩))
        · exact .inr hp
    | throw exception => exact subset_union_right
    | send message target delay =>
      cases target with
      | actor id =>
        rintro p (⟨x, hx, hp⟩ | hp | hp)
        · rcases mem_push.1 hx with hx | rfl
          · exact .inl (.inl ⟨x, hx, hp⟩)
          · exact .inr (Or.symm hp)
        · exact .inl (.inr (.inl hp))
        · exact .inl (.inr (.inr hp))
      | _ =>
        refine Subset.trans ?_ subset_union_right
        refine Subset.trans ?_ subset_union_right
        exact union_subset (empty_subset _) subset_rfl

lemma Request.parts_subset {r : Request} (h : ∀ i ∈ r.items, i.parts ⊆ R) : r.parts ⊆ R := by
  cases r <;> simp_all [Request.items, Request.parts, StagedActor.parts, Item.parts,
    insert_subset_iff]

lemma Effects.parts_empty : ({} : Effects).parts = ∅ := by
  simp [Effects.parts]

/-- A transaction mentions what was asked of it. -/
lemma Transaction.parts_replay {t : Transaction} {log : List Request} (ht : t.parts ⊆ R)
    (hlog : ∀ r ∈ log, r.parts ⊆ R) : (t.replay log).parts ⊆ R := by
  induction log generalizing t with
  | nil => exact ht
  | cons r log ih =>
    refine ih ?_ fun r' hr' => hlog r' (mem_cons_of_mem _ hr')
    exact (r.parts_apply t).trans (union_subset ht (hlog r mem_cons_self))

/-! ### Steps -/

/-- Binding a name in the front frame leaves the parts in `K` alone. -/
def Heap.Clear (h : Heap) (K : Set Part) (env : Env) : Prop := ∀ p ∈ h.targets env, p ∉ K

/-- An item that mentions the parts in `R`, with a frame of its own to bind names in. -/
def Item.Inside (K R : Set Part) (h : Heap) (i : Item) : Prop :=
  i.parts ⊆ R ∧ ∀ env ∈ i.scene?, h.Clear K env

lemma Item.Inside.of_scene {h : Heap} (parts : i.parts ⊆ R) (scene : i.scene? = none) :
    i.Inside K R h :=
  ⟨parts, fun _ henv => by cases scene.symm.trans henv⟩

/-- The parts that are new, and the addresses that were handed out. -/
def Store.fresh (s s' : Store) : Set Part :=
  s.heap.fresh s'.heap ∪ {p | ∃ id, p = .actor id ∧ s.ids.issued < id.raw ∧ id.raw ≤ s'.ids.issued}

lemma Store.fresh_of_has (has : ∀ p, s'.heap.Has p → s.heap.Has p) (ids : s'.ids = s.ids) :
    s.fresh s' = ∅ := by
  refine eq_empty_of_forall_notMem ?_
  rintro p (⟨hp, hn⟩ | ⟨id, rfl, hlt, hle⟩)
  · exact hn (has p hp)
  · rw [ids] at hle
    exact absurd hle (Nat.not_le_of_lt hlt)

namespace Heap

variable {h h' : Heap} {V V' : Set Part}

/-- What is new is not known to others. -/
lemma not_mem_of_fresh (room : ∀ p ∈ K, h.Has p) {p : Part} (hp : p ∈ h.fresh h') : p ∉ K :=
  fun hK => hp.2 (room p hK)

/-- A new layer is in front. -/
lemma newLayer_parts (h : Heap) {base : Env} (hbase : base.parts ⊆ R) :
    (h.newLayer base).1.parts ⊆ R ∪ h.fresh (h.newLayer base).2 := by
  exact insert_subset (.inr ⟨by simp [Has, newLayer], lt_irrefl _⟩) (hbase.trans subset_union_left)

lemma newLayer_clear (room : ∀ p ∈ K, h.Has p) (base : Env) (h' : Heap) :
    h'.Clear K (h.newLayer base).1 := by
  rintro p rfl hK
  exact lt_irrefl _ (room _ hK)

lemma fresh_newScope (h : Heap) (captured caller : Env) (vars : List String) :
    .scope h.scopes.size ∈ h.fresh (h.newScope captured caller vars).2 :=
  ⟨by simp [Has, newScope], lt_irrefl _⟩

/-- The variables of a new block are in front. -/
lemma newScope_parts (h : Heap) {captured caller : Env} (hcaptured : captured.parts ⊆ R)
    (hcaller : caller.parts ⊆ R) (vars : List String) :
    (h.newScope captured caller vars).1.parts ⊆ R ∪ h.fresh (h.newScope captured caller vars).2 :=
  insert_subset (.inr (h.fresh_newScope ..))
  ((union_subset hcaptured hcaller).trans subset_union_left)

lemma newScope_clear (room : ∀ p ∈ K, h.Has p) (captured caller : Env) (vars : List String) :
    (h.newScope captured caller vars).2.Clear K (h.newScope captured caller vars).1 := by
  have hscope := h.fresh_newScope captured caller vars
  rintro p (rfl | hp)
  · exact not_mem_of_fresh room hscope
  · exact not_mem_of_fresh room
      ((h.changes_newScope (K := K) captured caller vars).evolves.new hscope hp)

end Heap

namespace Evaluation

/-- The parts in `K` and all variables are left alone, and what is added mentions parts in `R` and
new ones. -/
structure Leaves (K R : Set Part) (s s' : Store) : Prop where
  evolves : s.heap.Evolves K (R ∪ s.fresh s') s'.heap
  scopes : ∀ i < s.heap.scopes.size, s'.heap.scope i = s.heap.scope i
  ids : s.ids.issued ≤ s'.ids.issued

namespace Leaves

variable {s1 : Store}

lemma scopes_le (h : Leaves K R s s') : s.heap.scopes.size ≤ s'.heap.scopes.size := by
  by_contra hlt
  exact Nat.lt_irrefl _ (h.evolves.has (.scope s'.heap.scopes.size) (Nat.lt_of_not_le hlt))

/-- What is new is new in the first half or in the second one. -/
lemma fresh_union (h1 : Leaves K R s s1) (h2 : Leaves K (R ∪ s.fresh s1) s1 s') :
    s.fresh s1 ∪ s1.fresh s' = s.fresh s' := by
  ext p
  constructor
  · rintro ((hp | ⟨id, rfl, hlt, hle⟩) | (hp | ⟨id, rfl, hlt, hle⟩))
    · exact .inl (h2.evolves.fresh_subset hp)
    · exact .inr ⟨id, rfl, hlt, hle.trans h2.ids⟩
    · exact .inl (h1.evolves.fresh_trans hp)
    · exact .inr ⟨id, rfl, lt_of_le_of_lt h1.ids hlt, hle⟩
  · rintro (hp | ⟨id, rfl, hlt, hle⟩)
    · by_cases hmid : s1.heap.Has p
      · exact .inl (.inl ⟨hmid, hp.2⟩)
      · exact .inr (.inl ⟨hp.1, hmid⟩)
    · by_cases hmid : id.raw ≤ s1.ids.issued
      · exact .inl (.inr ⟨id, rfl, hlt, hmid⟩)
      · exact .inr (.inr ⟨id, rfl, Nat.lt_of_not_le hmid, hle⟩)

lemma trans (h1 : Leaves K R s s1) (h2 : Leaves K (R ∪ s.fresh s1) s1 s') : Leaves K R s s' := by
  have hfresh := fresh_union h1 h2
  have h2' := h2.evolves
  rw [union_assoc, hfresh] at h2'
  refine ⟨.trans (h1.evolves.mono subset_rfl ?_) h2', fun i hi => ?_, h1.ids.trans h2.ids⟩
  · rw [← hfresh, ← union_assoc]
    exact subset_union_left
  · exact (h2.scopes i (hi.trans_le h1.scopes_le)).trans (h1.scopes i hi)

/-- A closed set stays closed with what is new. -/
lemma closed (h : Leaves K R s s') (hR : s.heap.Closed R) : s'.heap.Closed (R ∪ s.fresh s') :=
  hR.grow h.evolves subset_rfl fun _ hp => hp.imp id fun ⟨id, hid, _⟩ => ⟨id, hid⟩

end Leaves

end Evaluation

section Steps

open Evaluation

variable {old h : Heap} {I N : List Item}

lemma Item.Inside.subs (hi : i.Inside K R h) : ∀ j ∈ i.subs, j.Inside K R h := by
  have hself : ∀ env : Env, env.parts ⊆ R → (Value.ofActor? env.self?).parts ⊆ R := fun env henv =>
    env.self?_parts.trans henv
  fun_cases Item.subs i
  case case27 => exact forall_mem_nil _
  all_goals simp only [forall_mem_cons]
  all_goals simp_all [Item.Inside, parts, scene?, Expr.parts, Stmt.parts, Arms.parts,
    Block.parts, Pattern.parts, Value.parts, ofPred_or]

/-- What can be had from items inside is inside. -/
lemma Item.Yields.inside {j : Item} (hj : Yields h I j) (closed : h.Closed R)
    (hI : ∀ i ∈ I, i.Inside K R h) : j.Inside K R h := by
  induction hj with
  | keep hi => exact hI _ hi
  | sub _ hj ih => exact ih.subs _ hj
  | @found name env v _ found ih =>
    have hfound := closed.lookup name (subset_union_right.trans ih.1)
    rw [found] at hfound
    exact .of_scene hfound rfl
  | @missed name env slot _ missed ih =>
    have hmissed := closed.lookup name (subset_union_right.trans ih.1)
    rw [missed] at hmissed
    exact .of_scene hmissed rfl
  | offered _ found ih => exact .of_scene (closed.lookup? ih.1 found) rfl
  | @read slot v _ bound ih =>
    exact .of_scene (fun p hp => closed.parts_subset (ih.1 rfl) ⟨v, bound, hp⟩) rfl
  | closure _ found ih =>
    have hparts := closed.closure (ih.1 rfl) found
    simp_all [Item.Inside, parts, scene?, Closure.parts]
  | block _ found ih => exact .of_scene (closed.block? ih.1 found) rfl
  | pair _ _ ih1 ih2 => exact .of_scene (union_subset ih1.1 ih2.1) rfl
  | _ => exact .of_scene (empty_subset _) rfl

/-- Items stay inside while blocks keep their variables and no one else comes to know the frames
that take names. -/
lemma Item.Inside.keep {K' R' : Set Part} {h' : Heap} (hi : i.Inside K R h) (closed : h.Closed R)
    (grows : R ⊆ R') (apart : ∀ p ∈ R, (∀ id, p ≠ .actor id) → p ∈ K' → p ∈ K)
    (scopes : ∀ i, .scope i ∈ R → .scope i ∉ K → h'.scope i = h.scope i) : i.Inside K' R' h' := by
  refine ⟨hi.1.trans grows, fun env henv p hp hK' => ?_⟩
  have henv' := (scene?_parts henv).trans hi.1
  have hclear := hi.2 env henv
  cases env with
  | dynamic i base =>
    cases hp
    exact hclear _ rfl (apart _ (henv' (mem_insert ..)) (by simp) hK')
  | block i captured caller =>
    have hi : Part.scope i ∈ R := henv' (mem_insert ..)
    rcases hp with rfl | hp
    · exact hclear _ (.inl rfl) (apart _ hi (by simp) hK')
    · simp only [Heap.parts, scopes i hi (hclear _ (.inl rfl))] at hp
      obtain ⟨x, hx, rfl⟩ := hp
      have hslot : Part.slot x.2 ∈ h.parts (.scope i) := ⟨x, hx, rfl⟩
      exact hclear _ (.inr hslot) (apart _ (closed.parts_subset hi hslot) (by simp) hK')
  | _ => cases hp

/-- The statements of a block are inside, on variables of their own. -/
lemma Block.inside_newScope (room : ∀ p ∈ K, h.Has p) {b : Block} (hb : b.parts ⊆ R) {caller : Env}
    (hcaller : caller.parts ⊆ R) :
    (exec b.body (h.newScope b.env caller b.vars).1).Inside K
      (R ∪ h.fresh (h.newScope b.env caller b.vars).2) (h.newScope b.env caller b.vars).2 := by
  obtain ⟨hbody, henv⟩ := union_subset_iff.1 hb
  refine ⟨?_, ?_⟩
  · exact union_subset (hbody.trans subset_union_left) (h.newScope_parts henv hcaller b.vars)
  · rintro _ ⟨⟩
    exact Heap.newScope_clear room b.env caller b.vars

lemma Evaluation.Leaves.of_changes {V : Set Part} (changes : s.heap.Changes univ V s'.heap)
    (hV : V ⊆ R ∪ s.fresh s') (ids : s'.ids = s.ids) : Leaves K R s s' :=
  ⟨changes.evolves.mono (subset_univ K) hV, fun _ => changes.scope_eq, by rw [ids]⟩

lemma Evaluation.Leaves.bind {name : String} {env : Env} {v : Value}
    (guarded : (bind (.ident name) env).Guarded True old s.heap)
    (inside : (bind (.ident name) env).Inside K R s.heap) (hv : v.parts ⊆ R ∪ s.fresh s')
    (heap : s'.heap = (s.heap.bind name v env).2.2) (ids : s.ids.issued ≤ s'.ids.issued) :
    Leaves K R s s' := by
  have takes := guarded.2 name (by simp [Pattern.declared, Pattern.collectFrom, collect])
  refine ⟨?_, fun i _ => ?_, ids⟩
  · rw [heap]
    exact takes.evolves_bind (inside.2 env rfl) hv
  · obtain ⟨layers, slots, heq, _⟩ := s.heap.bind_frame name v env
    rw [heap, heq]
    rfl

/-- What is made from items inside leaves the parts in `K` alone, and mentions the set and new
parts. -/
lemma Item.Gain.leaves (gain : Gain s I s'.heap s'.ids N) (room : ∀ p ∈ K, s.heap.Has p)
    (closed : s.heap.Closed R) (code : s.heap.Tidy) (guarded : ∀ i ∈ I, i.Guarded True old s.heap)
    (inside : ∀ i ∈ I, i.Inside K R s.heap) :
    Leaves K R s s' ∧ ∀ j ∈ N, j.Inside K (R ∪ s.fresh s') s'.heap := by
  have hG : ∀ {j : Item}, Yields s.heap I j → j.Guarded True old s.heap := fun hj =>
    hj.guarded (fun _ => code) guarded
  have hY : ∀ {j : Item}, Yields s.heap I j → j.Inside K R s.heap :=
    fun hj => hj.inside closed inside
  have hR : R ⊆ R ∪ s.fresh s' := subset_union_left
  have hnew : s.heap.fresh s'.heap ⊆ R ∪ s.fresh s' := subset_union_left.trans subset_union_right
  have hfresh : R ∪ s.heap.fresh s'.heap ⊆ R ∪ s.fresh s' := union_subset hR hnew
  cases gain with
  | still heap same => exact ⟨.of_changes (heap ▸ .refl ..) hR same, forall_mem_nil _⟩
  | @layer ps e env hi heap same =>
    have hparts := (hY hi).1
    simp only [parts, union_subset_iff] at hparts
    have henv := s.heap.newLayer_parts hparts.2.2
    rw [← heap] at henv
    refine ⟨.of_changes (heap ▸ s.heap.changes_newLayer env) hR same, forall_mem_cons.2
      ⟨.of_scene ?_ rfl, ?_⟩⟩
    · exact union_subset (hparts.2.1.trans hR) (henv.trans hfresh)
    · intro i hi'
      obtain ⟨p, hp, rfl⟩ := mem_map.1 hi'
      refine ⟨union_subset ?_ (henv.trans hfresh), ?_⟩
      · exact fun q hq => hR (hparts.1 ⟨p, hp, hq⟩)
      · rintro _ ⟨⟩
        exact Heap.newLayer_clear room env _
  | closure hi heap same =>
    have hparts := (hY hi).1
    refine ⟨.of_changes (V := R) (heap ▸ s.heap.changes_newClosure ?_) hR same,
      forall_mem_singleton.2 (.of_scene ?_ rfl)⟩
    · simp_all [parts, Closure.parts]
    · exact singleton_subset_iff.2
        (hfresh (.inr ⟨by simp [heap, Heap.Has, Heap.newClosure], lt_irrefl _⟩))
  | block hi heap same =>
    refine ⟨.of_changes (heap ▸ s.heap.changes_newBlock (hY hi).1) hR same,
      forall_mem_singleton.2 (.of_scene ?_ rfl)⟩
    exact singleton_subset_iff.2 (hfresh (.inr (heap ▸ s.heap.fresh_newBlock _)))
  | native hi found hv heap same =>
    obtain ⟨hchanges, hanswer⟩ := closed.call (closed.native ((hY hi).1 rfl) found) (hY hv).1
    rw [← heap] at hchanges hanswer
    exact ⟨.of_changes hchanges hR same,
      forall_mem_singleton.2 (.of_scene (hanswer.trans hfresh) rfl)⟩
  | bind hi hv heap same =>
    exact ⟨.bind (hG hi) (hY hi) ((hY hv).1.trans hR) heap (by rw [same]),
      forall_mem_nil _⟩
  | @create name env hi heap next =>
    have hid : Part.actor s.reserve.1 ∈ R ∪ s.fresh s' :=
      .inr (.inr ⟨_, rfl, lt_succ_self _, next ▸ le_rfl⟩)
    refine ⟨.bind (v := .actor s.reserve.1) (hG hi) (hY hi) (singleton_subset_iff.2 hid) heap
      (next ▸ le_succ _), forall_mem_singleton.2 (.of_scene ?_ rfl)⟩
    exact insert_subset hid ((subset_union_right.trans (hY hi).1).trans hR)
  | new hi heap next =>
    have hid : Part.actor s.reserve.1 ∈ R ∪ s.fresh s' :=
      .inr (.inr ⟨_, rfl, lt_succ_self _, next ▸ le_rfl⟩)
    refine ⟨⟨heap ▸ .refl .., fun _ _ => heap ▸ rfl, next ▸ le_succ _⟩, forall_mem_cons.2
      ⟨.of_scene (insert_subset hid ((hY hi).1.trans hR)) rfl,
        forall_mem_singleton.2 (.of_scene ?_ rfl)⟩⟩
    exact singleton_subset_iff.2 hid
  | @scope b caller hb hi heap same =>
    have hexec := Block.inside_newScope room (hY hb).1 (hY hi).1
    have hchanges := s.heap.changes_newScope (K := univ) b.env caller b.vars
    rw [← heap] at hexec hchanges
    exact ⟨.of_changes hchanges hnew same, forall_mem_cons.2 ⟨⟨hexec.1.trans hfresh, hexec.2⟩,
      forall_mem_singleton.2 (.of_scene ((subset_union_right.trans hexec.1).trans hfresh) rfl)⟩⟩
  | @actor self env hi heap same =>
    refine ⟨.of_changes (heap ▸ s.heap.changes_newActor self env) hR same,
      forall_mem_singleton.2 (.of_scene ?_ rfl)⟩
    exact (hY hi).1.trans hR
  | @enact b self env hb hi heap same =>
    set caller := (s.heap.newActor self env).1
    set h1 := (s.heap.newActor self env).2
    have heap : s'.heap = (h1.newScope b.env caller b.vars).2 := heap
    have hcaller : caller.parts ⊆ R := (hY hi).1
    have hexec := Block.inside_newScope (h := h1) room (hY hb).1 hcaller
    have hchanges := h1.changes_newScope (K := univ) b.env caller b.vars
    rw [← heap] at hexec hchanges
    have hchanges : s.heap.Changes univ (s.heap.fresh s'.heap) s'.heap := { hchanges with }
    exact ⟨.of_changes hchanges hnew same, forall_mem_singleton.2 ⟨hexec.1.trans hfresh, hexec.2⟩⟩

lemma Item.Turns.leaves {cx : Context} {c c' : Core} {H L : List Item} (turns : Turns cx c H L c')
    (opened : cx.transaction < c.transactions.size) (room : ∀ p ∈ K, c.heap.Has p)
    (closed : c.heap.Closed R) (code : c.heap.Tidy) (guarded : ∀ i ∈ H, i.Guarded True old c.heap)
    (inside : ∀ i ∈ H, i.Inside K R c.heap) (ht : (c.store.transaction cx.transaction).parts ⊆ R) :
    Leaves K R c.store c'.store ∧ (∀ i ∈ L, i.Inside K (R ∪ c.store.fresh c'.store) c'.heap) ∧
      (c'.store.transaction cx.transaction).parts ⊆ R ∪ c.store.fresh c'.store := by
  obtain ⟨I, J, log, hI, ⟨N, gain, hJ⟩, replays, hL⟩ := turns
  have hI' : ∀ i ∈ I, i.Inside K R c.heap := fun i hi => inside i (hI hi)
  obtain ⟨leaves, hN⟩ := gain.leaves room closed code (fun i hi => guarded i (hI hi)) hI'
  have keep : ∀ i : Item, i.Inside K R c.heap → i.Inside K (R ∪ c.store.fresh c'.store) c'.heap :=
    fun i hi => hi.keep closed subset_union_left (fun _ _ _ hp => hp) fun j hj _ =>
      leaves.scopes j (closed _ hj).1
  have made : ∀ j ∈ log.flatMap Request.items ++ J,
      j.Inside K (R ∪ c.store.fresh c'.store) c'.heap :=
    fun j hj => (hJ j hj).elim (fun hj => keep j (hj.inside closed hI')) (hN j)
  refine ⟨leaves, fun i hi => ?_, ?_⟩
  · exact (mem_append.1 (hL hi)).elim (fun hi => keep i (inside i hi)) fun hi =>
      made i (mem_append_right _ hi)
  · rw [Store.transaction_of_replay (s := c.store) replays opened]
    refine Transaction.parts_replay (ht.trans subset_union_left) fun r hr => ?_
    exact Request.parts_subset fun i hi =>
      (made i (mem_append_left _ (mem_flatMap.2 ⟨r, hr, hi⟩))).1

end Steps

/-! ### Small steps -/

namespace Evaluation

variable {old : Heap} {cx : Context} {c c' : Core}

/-- The trees of a task, and its transaction, are inside of a closed set of parts, and have frames
of their own to bind names in. -/
structure Enclosed (K R : Set Part) (cx : Context) (trees : List Work) (c : Core) : Prop where
  opened : cx.transaction < c.transactions.size
  room : ∀ p ∈ K, c.heap.Has p
  closed : c.heap.Closed R
  inside : ∀ i ∈ Work.items trees, i.Inside K R c.heap
  transaction : (c.store.transaction cx.transaction).parts ⊆ R

lemma Enclosed.after {trees : List Work} {c1 : Core} (h1 : Leaves K R c.store c1.store)
    (h2 : Enclosed K (R ∪ c.store.fresh c1.store ∪ c1.store.fresh c'.store) cx trees c' ∧
      Leaves K (R ∪ c.store.fresh c1.store) c1.store c'.store) :
    Enclosed K (R ∪ c.store.fresh c'.store) cx trees c' ∧ Leaves K R c.store c'.store := by
  obtain ⟨he, h2⟩ := h2
  rw [union_assoc, h1.fresh_union h2] at he
  exact ⟨he, h1.trans h2⟩

lemma Enclosed.park {trees : List Work} (he : Enclosed K R cx trees c) (slot : Nat) (who : Waiter) :
    Enclosed K R cx trees { c with heap := c.heap.park slot who } ∧
      Leaves K R c.store { c with heap := c.heap.park slot who : Core }.store := by
  have hevolves : ∀ K V, c.heap.Evolves K V (c.heap.park slot who) := fun K V =>
    Heap.evolves_park K V c.heap slot who
  refine ⟨⟨he.opened, fun p hp => (hevolves K ∅).has p (he.room p hp), ?_, fun i hi => ?_,
    he.transaction⟩, hevolves _ _, fun _ _ => rfl, le_rfl⟩
  · exact he.closed.keep (hevolves R ∅) subset_rfl
  · exact (he.inside i hi).keep he.closed subset_rfl (fun _ _ _ hp => hp) fun _ _ _ => rfl

/-- Small steps on all trees of a task stay inside of what they can reach. -/
theorem Forest.enclosed {n : Nat} {trees trees' : List Work} (h : Forest cx n trees c trees' c') :
    ∀ {R : Set Part}, Sheltered True old trees c.heap → Enclosed K R cx trees c →
      Enclosed K (R ∪ c.store.fresh c'.store) cx trees' c' ∧ Leaves K R c.store c'.store := by
  induction h with
  | refl trees c =>
    intro R _ he
    refine ⟨?_, .refl .., fun _ _ => rfl, le_rfl⟩
    rwa [Store.fresh_of_has (fun _ hp => hp) rfl, union_empty]
  | @park n trees trees' c c' slot who _ ih =>
    intro R hs he
    obtain ⟨he1, h1⟩ := he.park slot who
    have hfresh : c.store.fresh { c with heap := c.heap.park slot who : Core }.store = ∅ :=
      Store.fresh_of_has (fun p => (c.heap.has_park slot who p).1) rfl
    have hs1 := hs.mono (c.heap.anchors_park slot who) fun ht => (hs.code ht).of_eq rfl rfl
    refine Enclosed.after h1 (ih hs1 ?_)
    rwa [hfresh, union_empty]
  | @step n before after trees' k f f' ds c c1 c' first rest ih =>
    intro R hs he
    obtain ⟨h1, hinside, htransaction⟩ :=
      (first.turns_among before after).leaves he.opened he.room he.closed
      (hs.code trivial) hs.guarded he.inside he.transaction
    refine Enclosed.after h1 (ih ((Forest.step first (.refl _ _)).spares hs).1 ⟨?_, fun p hp => ?_,
      h1.closed he.closed, hinside, htransaction⟩)
    · rw [(first.tells he.opened).size]
      exact he.opened
    · exact h1.evolves.has p (he.room p hp)

end Evaluation

end Troupe
