import Troupe.Proofs.Ensures
import Troupe.Proofs.Frames

/-!
Deliveries that run a block.

The delivery of a message takes a fixed course if the behavior is a function whose body is a block,
or the identity and the message is a block. The parameter is matched on a new layer and the block is
made there; then its statements are run on a new frame of its variables, which are offered as
definitions after that. In between only waiters can be entered.

So cores are compared up to waiters and definitions (`Core.Twin`), which no statement sees.

* `Heap.enact`: the frame on which the statements are run.
* `Evaluation.Ensures.deliver_function`, `Evaluation.Ensures.deliver_identity`: what is ensured by
  the match of the parameter and by the statements is ensured by the delivery.
-/

namespace Troupe

open Array

/-! ### Heaps that differ in waiters only -/

/-- The heaps are the same, except for those who wait. -/
structure Heap.Twin (h h' : Heap) : Prop where
  layers : h'.layers = h.layers
  scopes : h'.scopes = h.scopes
  slots : h'.slots.map Slot.content = h.slots.map Slot.content
  dicts : h'.dicts = h.dicts
  closures : h'.closures = h.closures
  blocks : h'.blocks = h.blocks
  natives : h'.natives = h.natives
  stamps : h'.stamps = h.stamps

namespace Heap

namespace Twin

variable {h h1 h' : Heap}

lemma refl (h : Heap) : h.Twin h := ⟨rfl, rfl, rfl, rfl, rfl, rfl, rfl, rfl⟩

lemma trans (h12 : h.Twin h1) (h23 : h1.Twin h') : h.Twin h' :=
  ⟨h23.layers.trans h12.layers, h23.scopes.trans h12.scopes, h23.slots.trans h12.slots,
    h23.dicts.trans h12.dicts, h23.closures.trans h12.closures, h23.blocks.trans h12.blocks,
    h23.natives.trans h12.natives, h23.stamps.trans h12.stamps⟩

lemma park (h : Heap) (slot : Nat) (who : Waiter) : h.Twin (h.park slot who) := by
  refine ⟨rfl, rfl, ?_, rfl, rfl, rfl, rfl, rfl⟩
  refine ext_getElem? fun i => ?_
  simp only [Heap.park, getElem?_map, getElem?_modify]
  split
  · cases h.slots[i]? with
    | none => rfl
    | some x => cases x <;> rfl
  · rfl

lemma size_slots (twin : h.Twin h') : h'.slots.size = h.slots.size := by
  have := congrArg size twin.slots
  rwa [size_map, size_map] at this

lemma newLayer (twin : h.Twin h') (base : Env) :
    (h'.newLayer base).1 = (h.newLayer base).1 ∧ (h.newLayer base).2.Twin (h'.newLayer base).2 := by
  refine ⟨by simp only [Heap.newLayer, twin.layers], ?_⟩
  exact { twin with layers := by simp only [Heap.newLayer, twin.layers] }

lemma newBlock (twin : h.Twin h') (b : Block) :
    (h'.newBlock b).1 = (h.newBlock b).1 ∧ (h.newBlock b).2.Twin (h'.newBlock b).2 := by
  refine ⟨by simp only [Heap.newBlock, twin.blocks], ?_⟩
  exact { twin with blocks := by simp only [Heap.newBlock, twin.blocks] }

lemma newActor (twin : h.Twin h') (self : ActorId) (base : Env) :
    (h'.newActor self base).1 = (h.newActor self base).1 ∧
      (h.newActor self base).2.Twin (h'.newActor self base).2 := by
  refine ⟨by simp only [Heap.newActor, twin.stamps], ?_⟩
  exact { twin with stamps := by simp only [Heap.newActor, twin.stamps] }

lemma newScope (twin : h.Twin h') (captured caller : Env) (vars : List String) :
    (h'.newScope captured caller vars).1 = (h.newScope captured caller vars).1 ∧
      (h.newScope captured caller vars).2.Twin (h'.newScope captured caller vars).2 := by
  refine ⟨by simp only [Heap.newScope, twin.scopes], ?_⟩
  exact
    { twin with
      scopes := by simp only [Heap.newScope, twin.scopes, twin.size_slots]
      slots := by simp only [Heap.newScope, map_append, twin.slots] }

/-- Waiters cannot be seen. -/
lemma space_eq (twin : h.Twin h') : h'.space = h.space := by
  funext ⟨k, i⟩
  cases k with
  | slot => simpa only [space, getElem?_map] using congrArg (·[i]?) twin.slots
  | layer => simp only [space, twin.layers]
  | scope => simp only [space, twin.scopes]
  | dict => simp only [space, twin.dicts]
  | closure => simp only [space, twin.closures]
  | block => simp only [space, twin.blocks]
  | native => simp only [space, twin.natives]

lemma anchors (twin : h.Twin h') : h.Anchors h' :=
  .of_shape (congrArg size twin.layers) twin.size_slots twin.scopes

lemma frames_eq (twin : h.Twin h') : h'.frames = h.frames := by
  rw [frames, frames, twin.scopes, twin.stamps]

lemma enact (twin : h.Twin h') (b : Block) (self : ActorId) (base : Env) :
    (h'.enact b self base).1 = (h.enact b self base).1 ∧
      (h.enact b self base).2.Twin (h'.enact b self base).2 := by
  obtain ⟨hcaller, htwin⟩ := twin.newActor self base
  have hscope := htwin.newScope b.env (h.newActor self base).1 b.vars
  rw [← hcaller] at hscope
  refine ⟨hscope.1.trans ?_, hscope.2⟩
  rw [hcaller]
  rfl

lemma block?_eq (twin : h.Twin h') (v : Value) : h'.block? v = h.block? v := by
  cases v with
  | block ref => simp only [block?, twin.blocks]
  | _ => rfl

end Twin

end Heap

/-! ### Cores that differ in waiters and definitions -/

/-- The cores are the same, except for those who wait and for the definitions of the transaction. -/
structure Core.Twin (i : Nat) (c c' : Core) : Prop where
  heap : c.heap.Twin c'.heap
  gathers : ∀ made, c'.Gathers i made ↔ c.Gathers i made
  sends : c'.sends i = c.sends i

namespace Core

variable {i : Nat} {c c1 c' : Core}

lemma Twin.refl (i : Nat) (c : Core) : c.Twin i c := ⟨.refl _, fun _ => Iff.rfl, rfl⟩

lemma Twin.trans (h12 : c.Twin i c1) (h23 : c1.Twin i c') : c.Twin i c' :=
  ⟨h12.heap.trans h23.heap, fun made => (h23.gathers made).trans (h12.gathers made),
    h23.sends.trans h12.sends⟩

lemma Twin.onHeap (twin : c.Twin i c') {h h' : Heap} (heap : h.Twin h') :
    Twin i { c with heap := h } { c' with heap := h' } :=
  ⟨heap, twin.gathers, twin.sends⟩

lemma Twin.soup_eq (twin : c.Twin i c') {g : Goal} (f : Evaluation g) : f.soup c' i =
    f.soup c i := by
  rw [Evaluation.soup, Evaluation.soup, twin.heap.space_eq, twin.sends]

lemma stable_twin (i : Nat) (c : Core) : Stable (c.Twin i) := fun slot who twin =>
  twin.trans ⟨.park _ slot who, fun _ => Iff.rfl, rfl⟩

/-- Definitions are not seen. -/
lemma twin_define (cx : Context) (c : Core) (name : String) (v : Value) :
    c.Twin cx.transaction (c.store.onTransaction cx.transaction (·.define name v)).2.core := by
  set i := cx.transaction with hi
  have htransactions : (c.store.onTransaction i (·.define name v)).2.core.transactions =
      c.transactions.setIfInBounds i ((c.store.transaction i).define name v).2 := by
    simp [Store.onTransaction, Store.core, store]
  have hget : (c.store.onTransaction i (·.define name v)).2.core.transactions[i]? =
      c.transactions[i]?.map fun t => (t.define name v).2 := by
    rw [htransactions, getElem?_setIfInBounds_self]
    by_cases hsize : i < c.transactions.size
    · simp [hsize, Store.transaction, store]
    · simp [hsize]
  refine ⟨.refl _, fun made => ?_, ?_⟩
  · simp only [Gathers, hget]
    cases c.transactions[i]? with
    | none => simp
    | some t => cases t <;> simp [Transaction.define, Transaction.gather]
  · simp only [sends, hget]
    cases c.transactions[i]? with
    | none => rfl
    | some t => cases t <;> rfl

lemma twin_offer (cx : Context) (env : Env) (vars : List String) (c : Core) :
    c.Twin cx.transaction (c.store.offer cx env vars).core := by
  induction vars generalizing c with
  | nil => exact .refl _ _
  | cons name vars ih =>
    rw [Store.offer, List.foldl_cons]
    split
    · exact (c.twin_define cx name _).trans (ih _)
    · exact ih c

end Core

/-! ### The course of a delivery -/

namespace Evaluation.Ensures

variable {cx : Context} {c : Core} {total : Prop} {P : Outcome → Core → Prop} {self : ActorId}
  {exported : Bool} {base : Env}

/-- Up to waiters and definitions, the state has the property. -/
def Nearly (cx : Context) (P : Outcome → Core → Prop) (o : Outcome) (c : Core) : Prop :=
  ∃ c0, P o c0 ∧ c0.Twin cx.transaction c

lemma stable_nearly (P : Outcome → Core → Prop) (o : Outcome) : Core.Stable (Nearly cx P o) :=
  fun slot who ⟨c0, hP, twin⟩ => ⟨c0, hP, Core.stable_twin _ _ slot who twin⟩

lemma begin {g : Goal} {job : Job g} {P : g.Result → Core → Prop}
    (next : ∀ c', c.Twin cx.transaction c' →
      Ensures total cx (job.begin cx c'.store).1.flat (job.begin cx c'.store).2.core P) :
    Ensures total cx (.start job) c P :=
  start (Core.stable_twin cx.transaction c) (.refl _ c) next

lemma perform {v : Value} {b : Block} (found : c.heap.block? v = some b)
    (runs : ∀ c', ({ c with heap := (c.heap.enact b self base).2 } : Core).Twin cx.transaction c' →
      Ensures total cx (.start (.exec b.body ⟨(c.heap.enact b self base).1, 0⟩)) c' P) :
    Ensures total cx ((Frame.perform self exported ⟨base, 0⟩).resume v cx c.store).1.flat
      ((Frame.perform self exported ⟨base, 0⟩).resume v cx c.store).2.core (Nearly cx P) := by
  have hfound : c.store.heap.block? v = some b := found
  cases exported with
  | false =>
    simp only [Frame.resume, hfound, Bool.false_eq_true, if_false]
    exact (runs _ (.refl _ _)).mono fun o c hP => ⟨c, hP, .refl _ _⟩
  | true =>
    simp only [Frame.resume, hfound, if_true]
    set caller := (c.heap.newActor self base).1 with hcaller
    refine begin fun c1 twin => ?_
    have hscope := twin.heap.newScope b.env caller b.vars
    refine bind (Q := P) ?_ fun o c2 hP => ?_
    · have hframe : (c1.heap.newScope b.env caller b.vars).1 = (c.heap.enact b self base).1 :=
        hscope.1
      have hruns := runs _ (twin.onHeap hscope.2)
      rw [← hframe] at hruns
      exact hruns
    · cases o with
      | fail => exact done (stable_nearly P .fail) ⟨c2, hP, .refl _ _⟩
      | ok => exact done (stable_nearly P .ok) ⟨c2, hP, c2.twin_offer cx _ _⟩
      | become v => exact done (stable_nearly P (.become v)) ⟨c2, hP, c2.twin_offer cx _ _⟩

/-- A block is delivered to the identity. -/
theorem deliver_identity {f : NativeRef} {message : Value} {b : Block}
    (native : c.heap.natives[f.index]? = some .identity) (found : c.heap.block? message = some b)
    (runs : ∀ c', ({ c with heap := (c.heap.enact b self base).2 } : Core).Twin cx.transaction c' →
      Ensures total cx (.start (.exec b.body ⟨(c.heap.enact b self base).1, 0⟩)) c' P) :
    Ensures total cx (.start (.deliver (.native f) message self exported ⟨base, 0⟩)) c
      (Nearly cx P) := by
  refine begin fun c1 twin1 => ?_
  refine bind (Q := fun v c2 => v = message ∧ c.Twin cx.transaction c2) ?_ ?_
  · refine begin fun c2 twin2 => ?_
    have twin := twin1.trans twin2
    have hnative : c2.store.heap.natives[f.index]? = some .identity :=
      (congrArg (·[f.index]?) twin.heap.natives).trans native
    simp only [Job.flat, Job.begin, Value.enter, hnative]
    exact done (fun slot who h => ⟨h.1, Core.stable_twin _ _ slot who h.2⟩) ⟨rfl, twin⟩
  · rintro _ c2 ⟨rfl, twin⟩
    obtain ⟨hframe, hheap⟩ := twin.heap.enact b self base
    refine perform ((twin.heap.block?_eq _).trans found) fun c3 twin3 => ?_
    rw [hframe]
    exact runs c3 ((twin.onHeap hheap).trans twin3)

/-- The function has answered with the block, or with `?` if the parameter does not match. -/
def Answered (cx : Context) (V : Bool → Core → Prop) (b : Block) (v : Value) (c : Core) : Prop :=
  (v = .undefined ∧ ∃ c1, V false c1) ∨ ∃ c1, V true c1 ∧ v = .block c1.heap.blocks.size ∧
    ({ c1 with heap := (c1.heap.newBlock b).2 } : Core).Twin cx.transaction c

lemma stable_answered (V : Bool → Core → Prop) (b : Block) (v : Value) :
    Core.Stable (Answered cx V b v) := by
  rintro c slot who (h | ⟨c1, hV, hv, twin⟩)
  · exact .inl h
  · exact .inr ⟨c1, hV, hv, Core.stable_twin _ _ slot who twin⟩

section Function

variable {ref : ClosureRef} {param : Pattern} {vars : List String} {body : Stmt} {env : Env}
  {message : Value} {V : Bool → Core → Prop}

/-- A function whose body is a block is applied. -/
lemma apply_function (found : c.heap.closures[ref]? = some ⟨param, .block vars body, env⟩)
    (fits : ∀ c', ({ c with heap := (c.heap.newLayer env).2 } : Core).Twin cx.transaction c' →
      Ensures total cx (.start (.fit param message ⟨(c.heap.newLayer env).1, 0⟩)) c' V) :
    Ensures total cx (.start (.apply (.closure ref) message 0)) c
      (Answered cx V ⟨vars, body, (c.heap.newLayer env).1⟩) := by
  refine begin fun c1 twin => ?_
  obtain ⟨hlayer, hheap⟩ := twin.heap.newLayer env
  have hfound : c1.store.heap.closures[ref]? = some ⟨param, .block vars body, env⟩ :=
    (congrArg (·[ref]?) twin.heap.closures).trans found
  simp only [Job.begin, Value.enter, hfound]
  rw [← hlayer] at fits ⊢
  refine bind (Q := V) (fits _ (twin.onHeap hheap)) fun ok c2 hV => ?_
  cases ok with
  | false => exact done (stable_answered V _ _) (.inl ⟨rfl, c2, hV⟩)
  | true =>
    refine begin fun c3 twin3 => ?_
    obtain ⟨hblock, hheap3⟩ := twin3.heap.newBlock ⟨vars, body, (c1.heap.newLayer env).1⟩
    exact done (stable_answered V _ _) (.inr ⟨c2, hV, hblock, twin3.onHeap hheap3⟩)

/-- A message is delivered to a function whose body is a block. -/
theorem deliver_function (found : c.heap.closures[ref]? = some ⟨param, .block vars body, env⟩)
    (fits : ∀ c', ({ c with heap := (c.heap.newLayer env).2 } : Core).Twin cx.transaction c' →
      Ensures total cx (.start (.fit param message ⟨(c.heap.newLayer env).1, 0⟩)) c' V)
    (fails : ∀ c1 c', V false c1 → P .fail c')
    (runs : ∀ c1 b h c', V true c1 → b = ⟨vars, body, (c.heap.newLayer env).1⟩ →
      h = (c1.heap.newBlock b).2 →
      ({ c1 with heap := (h.enact b self base).2 } : Core).Twin cx.transaction c' →
        Ensures total cx (.start (.exec body ⟨(h.enact b self base).1, 0⟩)) c' P) :
    Ensures total cx (.start (.deliver (.closure ref) message self exported ⟨base, 0⟩)) c
      (Nearly cx P) := by
  refine begin fun c1 twin => ?_
  obtain ⟨hlayer, hheap⟩ := twin.heap.newLayer env
  have hfound : c1.heap.closures[ref]? = some ⟨param, .block vars body, env⟩ :=
    (congrArg (·[ref]?) twin.heap.closures).trans found
  rw [← hlayer] at fits runs
  have happly := apply_function hfound fun c' twin' => fits c' ((twin.onHeap hheap).trans twin')
  refine bind happly fun v c2 answered => ?_
  rcases answered with ⟨rfl, c', hV⟩ | ⟨c', hV, rfl, twin2⟩
  · rw [show ((Frame.perform self exported ⟨base, 0⟩).flat.resume Value.undefined cx c2.store).1 =
      .done .fail from Store.throw_fst ..]
    exact done (stable_nearly P .fail) ⟨_, fails c' _ hV, .refl _ _⟩
  · obtain ⟨hframe, hheap2⟩ := twin2.heap.enact ⟨vars, body, (c1.heap.newLayer env).1⟩ self base
    refine perform (b := ⟨vars, body, (c1.heap.newLayer env).1⟩) ?_ fun c3 twin3 => ?_
    · rw [twin2.heap.block?_eq]
      exact getElem?_push_size
    · rw [hframe]
      exact runs c' _ _ c3 hV rfl rfl ((twin2.onHeap hheap2).trans twin3)

end Function

end Evaluation.Ensures

end Troupe
