import Troupe.Proofs.Enclosure

/-!
Tasks inside of a closed set of parts.

A task works on a closed set of parts `R` and leaves the parts in `K` alone, whatever happens in
other tasks. The addresses in `R` are registered (`reg`), or the task holds them, for actors that it
has staged or is going to stage: it loses them only when its transaction fails.

* `Evaluation.Forest.fence`: small steps on all trees of a task.
* `Task.fenced_spawn`, `Task.Fenced.run`, `Task.Fenced.elsewhere`: a task is opened, runs, and waits
  while others run.
* `Task.Fenced.usable`: the addresses that a task can use are registered, or reserved by itself.
* `Task.Fenced.staged`: all addresses of a task that has finished without failing are staged.
-/

namespace Troupe

open List Multiset Set

/-! ### What the pieces of a task hold -/

/-- What a piece holds: what is left to do of it, or its answer. -/
def Cell.items : Cell → List Item
  | .working w => w.evaluation.items
  | .given a => Goal.items a.result

/-- The addresses under which a piece will stage actors. -/
def Cell.reserved : Cell → Multiset ActorId
  | .working w => w.evaluation.reserved
  | .given _ => 0

namespace Evaluation

section

variable {cell : Nat → Option Cell} {g : Goal} {e f : Evaluation g} {ts : Set Nat}

/-- A tree holds what its root and its pieces hold. -/
lemma Unfolds.items_subset (h : Unfolds cell e f ts) :
    e.items ⊆ f.items ∧ ∀ t ∈ ts, ∀ x, cell t = some x → x.items ⊆ f.items := by
  induction h with
  | done | parked => exact ⟨List.Subset.refl _, fun _ ht => ht.elim⟩
  | start job =>
    rw [← items_flat (.start job)]
    exact ⟨List.Subset.refl _, fun _ ht => ht.elim⟩
  | working known _ _ ih =>
    refine ⟨nil_subset _, ?_⟩
    rintro t (rfl | ht) x hx
    · rw [known] at hx
      cases hx
      exact ih.1
    · exact ih.2 t ht x hx
  | given known =>
    refine ⟨nil_subset _, ?_⟩
    rintro t rfl x hx
    rw [known] at hx
    cases hx
    exact List.Subset.refl _
  | one frame _ ih =>
    have hframe : frame.flat.items = frame.items := by cases frame <;> rfl
    rw [items, items, hframe]
    exact ⟨append_subset.2 ⟨subset_append_of_subset_left _ ih.1, subset_append_right ..⟩,
      fun t ht x hx => subset_append_of_subset_left _ (ih.2 t ht x hx)⟩
  | both join _ _ _ ih1 ih2 | race _ _ _ ih1 ih2 =>
    refine ⟨append_subset.2 ⟨subset_append_of_subset_left _ ih1.1,
        subset_append_of_subset_right _ ih2.1⟩, ?_⟩
    rintro t (ht | ht) x hx
    · exact subset_append_of_subset_left _ (ih1.2 t ht x hx)
    · exact subset_append_of_subset_right _ (ih2.2 t ht x hx)

/-- What is reserved in a tree is reserved in its root or in a piece. -/
lemma Unfolds.mem_reserved (h : Unfolds cell e f ts) {id : ActorId} (hid : id ∈ f.reserved) :
    id ∈ e.reserved ∨ ∃ t x, cell t = some x ∧ id ∈ x.reserved := by
  induction h with
  | done | start | parked | given => exact .inl hid
  | working known _ _ ih => exact .inr ((ih hid).elim (fun hid => ⟨_, _, known, hid⟩) fun h => h)
  | one frame _ ih =>
    have hframe : frame.flat.reserved = frame.reserved := by cases frame <;> rfl
    rw [reserved, hframe] at hid
    rcases mem_add.1 hid with hid | hid
    · exact .inl (mem_add.2 (.inl hid))
    · exact (ih hid).imp_left fun hid => mem_add.2 (.inr hid)
  | both join _ _ _ ih1 ih2 | race _ _ _ ih1 ih2 =>
    rcases mem_add.1 hid with hid | hid
    · exact (ih1 hid).imp_left fun hid => mem_add.2 (.inl hid)
    · exact (ih2 hid).imp_left fun hid => mem_add.2 (.inr hid)

lemma UnfoldsAll.items_subset {ws fs : List Work} (h : UnfoldsAll cell ws fs ts) :
    (∀ w ∈ ws, w.evaluation.items ⊆ Work.items fs) ∧
      ∀ t ∈ ts, ∀ x, cell t = some x → x.items ⊆ Work.items fs := by
  induction h with
  | nil => exact ⟨fun _ hw => absurd hw not_mem_nil, fun _ ht => ht.elim⟩
  | cons head _ _ ih =>
    obtain ⟨hroot, hpieces⟩ := head.items_subset
    refine ⟨fun w hw => ?_, ?_⟩
    · rcases mem_cons.1 hw with rfl | hw
      · exact subset_append_of_subset_left _ hroot
      · exact subset_append_of_subset_right _ (ih.1 w hw)
    · rintro t (ht | ht) x hx
      · exact subset_append_of_subset_left _ (hpieces t ht x hx)
      · exact subset_append_of_subset_right _ (ih.2 t ht x hx)

end

/-- The trees of a task that works inside of the parts in `R` and leaves those in `K` alone. The
task holds all addresses in `R` that are not registered, unless its transaction has failed. -/
structure Fence (K R : Set Part) (reg : ActorId → Prop) (cx : Context) {g : Goal} (f : Evaluation g)
    (rest : List Work) (c : Core) : Prop where
  agrees : Agrees cx f rest c
  sheltered : ∃ old, Sheltered True old (⟨g, f⟩ :: rest) c.heap
  enclosed : Enclosed K R cx (⟨g, f⟩ :: rest) c
  accounted : ¬ c.Failed cx → ∀ id, .actor id ∈ R → reg id ∨ id ∈ c.held cx (⟨g, f⟩ :: rest)

/-- Small steps stay inside of the fence; what they make, and the addresses that they take, is
added. -/
theorem Forest.fence {K R : Set Part} {reg : ActorId → Prop} {cx : Context} {n : Nat} {g : Goal}
    {f : Evaluation g} {rest trees' : List Work} {c c' : Core}
    (h : Forest cx n (⟨g, f⟩ :: rest) c trees' c') (hf : Fence K R reg cx f rest c) :
    ∃ f' rest', trees' = ⟨g, f'⟩ :: rest' ∧
      Fence K (R ∪ c.store.fresh c'.store) reg cx f' rest' c' ∧ Leaves K R c.store c'.store := by
  obtain ⟨f', rest', rfl, hagrees⟩ := h.agrees rfl hf.agrees
  obtain ⟨old, hs⟩ := hf.sheltered
  obtain ⟨henclosed, hleaves⟩ := h.enclosed hs hf.enclosed
  obtain ⟨hlatched, hkept⟩ := h.keeps hf.agrees.inside
  refine ⟨f', rest', rfl, ⟨hagrees, ⟨old, (h.spares hs).1⟩, henclosed,
      fun hsound id hid => ?_⟩, hleaves⟩
  obtain ⟨hle, hnew⟩ := hkept hsound
  rcases hid with hid | hid | ⟨_, ⟨⟩, hlt, hissued⟩
  · refine (hf.accounted (fun hfailed => hsound (hlatched hfailed)) id hid).imp_right ?_
    exact mem_of_le hle
  · exact absurd trivial hid.2
  · exact .inr (hnew id hlt hissued)

end Evaluation

namespace Task

open Evaluation

variable {K K' R R' : Set Part} {reg reg' : ActorId → Prop} {g : Goal}
  {t t' : Task g} {s s' : Store}

/-- The parts that a task mentions: in its main evaluation, in its pieces and in its transaction. -/
def parts (t : Task g) (s : Store) : Set Part :=
  Item.partsOf t.main.items ∪
    {q | ∃ ticket x, (s.agenda t.context.task).cell ticket = some x ∧ q ∈ Item.partsOf x.items} ∪
    (s.transaction t.context.transaction).parts

/-- A task has reserved an address: an actor is staged under it, or is going to be. -/
def Reserves (t : Task g) (s : Store) (id : ActorId) : Prop :=
  id ∈ (s.transaction t.context.transaction).staged ∨ id ∈ t.main.reserved ∨
    ∃ ticket x, (s.agenda t.context.task).cell ticket = some x ∧ id ∈ x.reserved

/-- A task that works inside of the parts in `R` and leaves those in `K` alone. If its transaction
has failed, it has ended. -/
structure Fenced (K R : Set Part) (reg : ActorId → Prop) (t : Task g) (s : Store) : Prop where
  fence : ∃ dropped f rest, Standing False t.context t.main s dropped (⟨g, f⟩ :: rest) ∧
    Fence K R reg t.context f rest s.core
  ended : (s.transaction t.context.transaction).isFailed = true → t.answer? ≠ none

/-- A task is opened: it binds no name in a frame that is there. -/
lemma fenced_spawn (code : s.heap.Tidy) (room : ∀ p ∈ K, s.heap.Has p) (closed : s.heap.Closed R)
    (registered : ∀ id, .actor id ∈ R → reg id) (actor : ActorId) (muted : Bool) (now : Millis)
    {job : Job g} (inside : ∀ i ∈ job.items, i.parts ⊆ R ∧ i.scene? = none)
    (guarded : job.Guarded True s.heap s.heap) :
    Fenced K R reg (spawn s.newTransaction.2 actor muted s.newTransaction.1 now (.start job)).1
      (spawn s.newTransaction.2 actor muted s.newTransaction.1 now (.start job)).2 := by
  have hagrees := agrees_spawn s actor muted now job
  have hitems := Work.items_start job
  have hinside : ∀ i ∈ job.items, i.Inside K R s.heap := fun i hi =>
    ⟨(inside i hi).1, by simp [(inside i hi).2]⟩
  refine ⟨⟨[], .start job.flat, [], standing_spawn False.elim actor muted _ now job, hagrees,
    ⟨s.heap, .refl _, fun _ => code, hitems ▸ guarded⟩,
    ⟨hagrees.inside, room, closed, hitems ▸ hinside, ?_⟩,
    fun _ id hid => .inl (registered id hid)⟩, fun hfailed => (hagrees.same.1 hfailed).elim⟩
  · have hnew : (spawn s.newTransaction.2 actor muted s.newTransaction.1 now
        (.start job)).2.core.store.transaction s.newTransaction.1 = .empty := by
      simp [spawn, Store.newTransaction, Store.newAgenda, Store.core, Core.store, Store.transaction]
    rw [show (spawn s.newTransaction.2 actor muted s.newTransaction.1 now
      (.start job)).1.context.transaction = s.newTransaction.1 from rfl, hnew]
    exact Effects.parts_empty.trans_subset (empty_subset R)

namespace Fenced

lemma closed (h : t.Fenced K R reg s) : s.heap.Closed R := by
  obtain ⟨_, _, _, _, hf⟩ := h.fence
  exact hf.enclosed.closed

lemma code (h : t.Fenced K R reg s) : s.heap.Tidy := by
  obtain ⟨_, _, _, _, hf⟩ := h.fence
  obtain ⟨_, hs⟩ := hf.sheltered
  exact hs.code trivial

lemma opened (h : t.Fenced K R reg s) : t.context.transaction < s.transactions.size := by
  obtain ⟨_, _, _, _, hf⟩ := h.fence
  exact hf.agrees.inside

/-- The transaction of a task mentions parts in `R`. -/
lemma transaction (h : t.Fenced K R reg s) : (s.transaction t.context.transaction).parts ⊆ R := by
  obtain ⟨_, _, _, _, hf⟩ := h.fence
  exact hf.enclosed.transaction

/-- A task runs. What it makes, and the addresses that it takes, is added to its set. -/
theorem run {fuel : Nat} (h : t.Fenced K R reg s) (run : t.advance fuel s = some (t', s')) :
    t'.Fenced K (R ∪ s.fresh s') reg s' ∧ Leaves K R s s' := by
  obtain ⟨dropped, f, rest, hst, hf⟩ := h.fence
  obtain ⟨log, hpoll⟩ := poll_of_advance run
  obtain ⟨n, ds, trees', hst', hforest, hstuck⟩ := hpoll.standing hst
  obtain ⟨f', rest', rfl, hf', hleaves⟩ := hforest.fence hf
  rw [← hpoll.context] at hst' hf'
  refine ⟨⟨⟨_, f', rest', hst', hf'⟩, fun hfailed hnone => ?_⟩, hleaves.evolves,
    hleaves.scopes, hleaves.ids⟩
  obtain ⟨_, _, heq, hidle⟩ := hstuck hnone
  cases heq
  exact hidle.not_fails (hf'.agrees.same.1 hfailed)

/-- A task waits while something happens elsewhere. It may come to know more, and so may others, but
no one comes to know the frames in which it binds names. -/
theorem elsewhere (h : t.Fenced K R reg s) (other : s.Elsewhere t.context s')
    (anchors : s.heap.Anchors s'.heap) (code : s'.heap.Tidy) (room : ∀ p ∈ K', s'.heap.Has p)
    (closed : s'.heap.Closed R') (grows : R ⊆ R')
    (apart : ∀ p ∈ R, (∀ id, p ≠ .actor id) → p ∈ K' → p ∈ K)
    (scopes : ∀ i, .scope i ∈ R → .scope i ∉ K → s'.heap.scope i = s.heap.scope i)
    (registered : ∀ id, .actor id ∈ R' → .actor id ∈ R ∨ reg' id) (stays : ∀ id, reg id → reg' id) :
    t.Fenced K' R' reg' s' := by
  obtain ⟨dropped, f, rest, hst, hf⟩ := h.fence
  have htx : s'.core.store.transaction t.context.transaction =
      s.core.store.transaction t.context.transaction :=
    congrArg (·.getD default) other.transaction
  have hfailed : s'.core.Failed t.context ↔ s.core.Failed t.context := by
    rw [Core.Failed, Core.Failed, htx]
  have hheld : ∀ trees, s'.core.held t.context trees = s.core.held t.context trees := by
    intro trees
    rw [Core.held, Core.held, htx]
  obtain ⟨old, hs⟩ := hf.sheltered
  refine ⟨⟨dropped, f, rest, hst.elsewhere other,
      ⟨?_, ⟨old, hs.mono anchors fun _ => code⟩, ?_, ?_⟩⟩,
    fun hfailed' => h.ended (hfailed.1 hfailed')⟩
  · exact ⟨other.inside hf.agrees.inside, hfailed.trans hf.agrees.same, fun hrest =>
      hfailed.2 (hf.agrees.alone hrest)⟩
  · refine ⟨other.inside hf.enclosed.opened, room, closed, fun i hi => ?_, ?_⟩
    · exact (hf.enclosed.inside i hi).keep hf.enclosed.closed grows apart scopes
    · rw [htx]
      exact hf.enclosed.transaction.trans grows
  · intro hsound id hid
    rw [hheld]
    rcases registered id hid with hid | hid
    · exact (hf.accounted (fun hf => hsound (hfailed.2 hf)) id hid).imp_left (stays id)
    · exact .inl hid

/-- Something happens elsewhere that does not concern the heap. -/
lemma congr (h : t.Fenced K R reg s) (other : s.Elsewhere t.context s') (heap : s'.heap = s.heap) :
    t.Fenced K R reg s' := by
  refine h.elsewhere other ?_ ?_ ?_ ?_ subset_rfl (fun _ _ _ hp => hp) ?_
    (fun _ => .inl) fun _ => id
  · rw [heap]
    exact .refl _
  · rw [heap]
    exact h.code
  · obtain ⟨_, _, _, _, hf⟩ := h.fence
    rw [heap]
    exact hf.enclosed.room
  · rw [heap]
    exact h.closed
  · intro i _ _
    rw [heap]

/-- Only statements fail. -/
lemma sound (h : t.Fenced K R reg s) (hg : g ≠ .outcome) :
    (s.transaction t.context.transaction).isFailed = false := by
  obtain ⟨_, _, _, _, hf⟩ := h.fence
  rw [← Bool.not_eq_true]
  exact fun hfailed => (modest_of_ne hg _).sound (hf.agrees.same.1 hfailed)

/-- What a task mentions is inside. -/
lemma parts_subset (h : t.Fenced K R reg s) : t.parts s ⊆ R := by
  obtain ⟨_, _, _, hst, hf⟩ := h.fence
  obtain ⟨ts, hunfold, hall⟩ := hst.laid
  obtain ⟨hroots, hpieces⟩ := hunfold.items_subset
  have hinside := fun i hi => (hf.enclosed.inside i hi).1
  refine union_subset (union_subset ?_ ?_) h.transaction
  · exact Item.partsOf_subset_iff.2 fun i hi => hinside i (hroots _ (mem_cons_self ..) hi)
  · rintro q ⟨ticket, x, hx, i, hi, hq⟩
    exact hinside i (hpieces ticket (hall ticket (by rw [hx]; exact Option.some_ne_none x)) x hx hi)
      hq

/-- The answer of a task mentions parts that are inside. -/
lemma parts_answer {r : g.Result} (h : t.Fenced K R reg s) (answer : t.answer? = some r) :
    ∀ i ∈ Goal.items r, i.parts ⊆ R := by
  have hmain : Item.partsOf t.main.items ⊆ R :=
    (subset_union_left.trans subset_union_left).trans h.parts_subset
  rw [main_eq_done answer] at hmain
  exact Item.partsOf_subset_iff.1 hmain

/-- A task whose transaction has not failed is one tree. The addresses in `R` are registered, or the
transaction has staged an actor, or the tree is going to. -/
lemma tree (h : t.Fenced K R reg s)
    (sound : (s.transaction t.context.transaction).isFailed = false) :
    ∃ (f : Evaluation g) (ts : Set Nat), Unfolds (s.agenda t.context.task).cell t.main f ts ∧
      ∀ id, .actor id ∈ R →
        reg id ∨ id ∈ (s.transaction t.context.transaction).staged ∨ id ∈ f.reserved := by
  obtain ⟨dropped, f, rest, hst, hf⟩ := h.fence
  have hsound : ¬ s.core.Failed t.context := by
    rw [Core.Failed, show s.core.store.transaction t.context.transaction =
      s.transaction t.context.transaction from rfl, sound]
    exact Bool.false_ne_true
  have hrest : rest = [] := by
    by_contra hne
    exact hsound (hf.agrees.alone hne)
  subst hrest
  obtain ⟨ts, hunfold, _⟩ := hst.laid
  cases hunfold with
  | cons head _ _ =>
    refine ⟨f, _, head, fun id hid => (hf.accounted hsound id hid).imp_right fun hheld => ?_⟩
    simp only [Core.held, List.map_cons, List.map_nil, List.sum_cons, List.sum_nil,
      add_zero] at hheld
    exact Multiset.mem_add.1 hheld

/-- A task whose transaction has failed has answered so. -/
lemma failure (h : t.Fenced K R reg s)
    (failed : (s.transaction t.context.transaction).isFailed = true) :
    ∃ r, t.answer? = some r ∧ Goal.Failure r := by
  obtain ⟨r, hr⟩ := Option.ne_none_iff_exists'.1 (h.ended failed)
  obtain ⟨_, f, _, hst, hf⟩ := h.fence
  obtain ⟨ts, hunfold, _⟩ := hst.laid
  refine ⟨r, hr, ?_⟩
  rw [main_eq_done hr] at hunfold
  cases hunfold with
  | cons head _ _ =>
    cases head
    exact hf.agrees.same.1 failed

/-- The addresses that a task can use are registered, or reserved by the task, unless it has
answered that it failed. -/
theorem usable (h : t.Fenced K R reg s) (running : ∀ r, t.answer? = some r → ¬ Goal.Failure r)
    {id : ActorId} (hid : .actor id ∈ s.heap.reach (t.parts s)) : reg id ∨ t.Reserves s id := by
  have hsound : (s.transaction t.context.transaction).isFailed = false := by
    rw [← Bool.not_eq_true]
    intro hfailed
    obtain ⟨r, hr, hfailure⟩ := h.failure hfailed
    exact running r hr hfailure
  obtain ⟨f, ts, hunfold, haccounted⟩ := h.tree hsound
  refine (haccounted id (h.closed.reach_subset h.parts_subset hid)).imp_right ?_
  exact Or.imp_right hunfold.mem_reserved

/-- All addresses of a task that has finished without failing are registered, or its transaction has
staged actors under them. -/
theorem staged {r : g.Result} (h : t.Fenced K R reg s) (answer : t.answer? = some r)
    (sound : (s.transaction t.context.transaction).isFailed = false) {id : ActorId}
    (hid : .actor id ∈ R) : reg id ∨ id ∈ (s.transaction t.context.transaction).staged := by
  obtain ⟨f, ts, hunfold, haccounted⟩ := h.tree sound
  rw [main_eq_done answer] at hunfold
  cases hunfold
  refine (haccounted id hid).imp_right fun hheld => hheld.elim (fun h => h) fun hnone => ?_
  exact absurd hnone (notMem_zero id)

end Fenced

end Task

end Troupe
