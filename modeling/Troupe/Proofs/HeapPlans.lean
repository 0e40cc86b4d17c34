import Troupe.Proofs.SmallStep
import Troupe.Proofs.Soup

/-!
Heaps as spaces, and steps on heaps as plans that are carried out.

A heap is a space (`Heap.space`). A step of the language carries out its plan: with a response,
together with the reading of the slot if the plan looked a name up, or in vain (`Plan.Met`).

* `Job.begin_met`, `Frame.resume_met`, `Join.resume_met`
-/

namespace Troupe

open Array Troupe.Frame Option Slot Space

/-! ### Heaps as spaces -/

/-- What stands in a slot, whoever waits for it. -/
def Slot.content : Slot → Content
  | .unbound _ => .slot none
  | .bound v => .slot (some v)

namespace Heap

/-- A heap as a space. -/
def space (h : Heap) : Space
  | ⟨.layer, i⟩ => h.layers[i]?.map fun b => .layer (b.lookup ·)
  | ⟨.scope, i⟩ => h.scopes[i]?.map fun b => .scope (b.lookup ·)
  | ⟨.slot, i⟩ => h.slots[i]?.map content
  | ⟨.dict, i⟩ => h.dicts[i]?.map fun b => .dict (b.lookup ·)
  | ⟨.closure, i⟩ => h.closures[i]?.map .closure
  | ⟨.block, i⟩ => h.blocks[i]?.map .block
  | ⟨.native, i⟩ => h.natives[i]?.map .native

variable (h : Heap)

lemma space_layer (i : Nat) (name : String) : h.space.layer i name = (h.layer i).lookup name := by
  simp only [Space.layer, space, layer]
  cases h.layers[i]? <;> rfl

lemma space_scope (i : Nat) (name : String) : h.space.scope i name = (h.scope i).lookup name := by
  simp only [Space.scope, space, scope]
  cases h.scopes[i]? <;> rfl

lemma space_dict (i : Nat) (name : String) : h.space.dict i name = (h.dict i).lookup name := by
  simp only [Space.dict, space, dict]
  cases h.dicts[i]? <;> rfl

lemma space_closure? (i : Nat) : h.space.closure? i = h.closures[i]? := by
  simp only [closure?, space]
  cases h.closures[i]? <;> rfl

lemma space_native? (i : Nat) : h.space.native? i = h.natives[i]? := by
  simp only [native?, space]
  cases h.natives[i]? <;> rfl

lemma space_block? (v : Value) : h.space.block? v = h.block? v := by
  cases v with
  | block i =>
    simp only [Space.block?, space, block?]
    cases h.blocks[i]? <;> rfl
  | _ => rfl

lemma space_slot {i : Nat} {v : Value} :
    h.space ⟨.slot, i⟩ = some (.slot (some v)) ↔ h.slot? i = some v := by
  simp only [space, slot?]
  cases h.slots[i]? with
  | none => simp
  | some s => cases s <;> simp [content]

/-- Looking a name up ends where it ends in the space; then the slot is read. -/
lemma lookup_eq (name : String) (env : Env) : h.lookup name env = match h.space.find name env with
    | .value v => .value v
    | .slot i => match h.slot? i with
      | some v => .value v
      | none => .unbound i := by
  induction env with
  | empty => rfl
  | dynamic layer base ih =>
    rw [lookup, find, space_layer]
    cases (h.layer layer).lookup name with
    | some v => rfl
    | none => exact ih
  | block scope captured caller ih _ =>
    rw [lookup, find, space_scope]
    cases (h.scope scope).lookup name with
    | some slot => rfl
    | none => exact ih
  | actor stamp id next ih => exact ih
  | global dict next ih =>
    rw [lookup, find, space_dict]
    cases (h.dict dict).lookup name with
    | some v => rfl
    | none => exact ih

/-- Applying a native function gives its answer, or a new native function. -/
lemma call_eq (f : Native) (v : Value) : h.call f v = match h.space.call f v with
    | .inl w => (w, h)
    | .inr f => h.newNative f := by
  induction f with
  | operation | identity | host =>
    rw [call, Space.call]
  | mapBind =>
    rw [call]
    fun_cases mapBind h v with
    | case1 f key value rest heq | case2 f key value heq =>
      simp only [Space.call, space_native?, heq]
    | case3 x hx =>
      rwa [Space.call]
  | map key value rest ih =>
    rw [call, Space.call]
    split
    · rfl
    · exact ih

/-! ### Writing to heaps -/

end Heap

lemma lookup_slots_eq_none {slots : List Nat} {a : Address} (ha : ∀ i ∈ slots, a ≠ ⟨.slot, i⟩)
    (c : Content) : (slots.map fun i => ((⟨.slot, i⟩ : Address), c)).lookup a = none := by
  rw [List.lookup_eq_none_iff]
  intro x hx
  obtain ⟨i, hi, rfl⟩ := List.mem_map.1 hx
  rw [bne_iff_ne]
  exact ha i hi

lemma Space.eq_write {H H' : Space} {a : Address} {c : Content} (written : H' a = some c)
    (kept : ∀ b, b ≠ a → H' b = H b) : H' = H.write [(a, c)] := by
  funext b
  by_cases hb : b = a
  · subst hb
    rw [write_of_lookup List.lookup_cons_self, written]
  · rw [write_of_not (lookup_cons_of_ne hb _ _), kept b hb]

namespace Heap

variable (h : Heap)

lemma space_newLayer (base : Env) : (h.newLayer base).2.space =
    h.space.write [(⟨.layer, h.layers.size⟩, .layer fun _ => none)] := by
  refine eq_write (by simp [space, newLayer]) ?_
  rintro ⟨k, i⟩ hne
  cases k with
  | layer => simp [space, newLayer, getElem?_push, show i ≠ h.layers.size by simpa using hne]
  | _ => rfl

lemma space_newClosure (c : Closure) : (h.newClosure c).2.space =
    h.space.write [(⟨.closure, h.closures.size⟩, .closure c)] := by
  refine eq_write (by simp [space, newClosure]) ?_
  rintro ⟨k, i⟩ hne
  cases k with
  | closure =>
    simp [space, newClosure, getElem?_push, show i ≠ h.closures.size by simpa using hne]
  | _ => rfl

lemma space_newBlock (b : Block) : (h.newBlock b).2.space =
    h.space.write [(⟨.block, h.blocks.size⟩, .block b)] := by
  refine eq_write (by simp [space, newBlock]) ?_
  rintro ⟨k, i⟩ hne
  cases k with
  | block => simp [space, newBlock, getElem?_push, show i ≠ h.blocks.size by simpa using hne]
  | _ => rfl

lemma space_newNative (f : Native) : (h.newNative f).2.space =
    h.space.write [(⟨.native, h.natives.size⟩, .native f)] := by
  refine eq_write (by simp [space, newNative]) ?_
  rintro ⟨k, i⟩ hne
  cases k with
  | native =>
    simp [space, newNative, getElem?_push, show i ≠ h.natives.size by simpa using hne]
  | _ => rfl

lemma space_newScope (captured caller : Env) (vars : List String) :
    (h.newScope captured caller vars).2.space =
      h.space.write ((Effect.scope vars).writes
        { id := h.scopes.size, slots := List.range' h.slots.size vars.length }) := by
  funext ⟨k, i⟩
  simp only [Effect.writes]
  by_cases hscope : (⟨k, i⟩ : Address) = ⟨.scope, h.scopes.size⟩
  · cases hscope
    rw [write_of_lookup List.lookup_cons_self]
    simp [space, newScope, List.zipIdx_eq_zip_range']
  · by_cases hslot : ∃ j ∈ List.range' h.slots.size vars.length, (⟨k, i⟩ : Address) = ⟨.slot, j⟩
    · obtain ⟨j, hj, heq⟩ := hslot
      cases heq
      rw [write_of_lookup ((lookup_cons_of_ne hscope _ _).trans (lookup_slots hj _))]
      rw [List.mem_range'_1] at hj
      have hlt : i - h.slots.size < vars.length := by omega
      simp [space, newScope, getElem?_append, Nat.not_lt.2 hj.1, content, hlt]
    · simp only [not_exists, not_and] at hslot
      rw [write_of_not ((lookup_cons_of_ne hscope _ _).trans
        (lookup_slots_eq_none hslot _))]
      cases k with
      | scope =>
        simp [space, newScope, getElem?_push, show i ≠ h.scopes.size by simpa using hscope]
      | slot =>
        have hi : ¬ (h.slots.size ≤ i ∧ i < h.slots.size + vars.length) := fun hi =>
          hslot i (List.mem_range'_1.2 hi) rfl
        by_cases hlt : i < h.slots.size
        · simp [space, newScope, getElem?_append, hlt]
        · have hge : ¬ i - h.slots.size < vars.length := by omega
          simp [space, newScope, getElem?_append, hlt, hge]
      | _ => rfl

lemma space_put {layer : Nat} (there : h.space ⟨.layer, layer⟩ ≠ none) (name : String) (v : Value) :
    space { h with layers := h.layers.modify layer ((name, v) :: ·) } =
      h.space.write [(⟨.layer, layer⟩, .layer fun x =>
        if x = name then some v else h.space.layer layer x)] := by
  refine eq_write ?_ ?_
  · cases hl : h.layers[layer]? with
    | none => simp [space, hl] at there
    | some b =>
      simp only [space, getElem?_modify, if_true, hl, map_some, some.injEq,
        Content.layer.injEq, List.lookup_cons, space_layer, Heap.layer, getD_some]
      funext x
      by_cases hx : x = name
      · simp [hx]
      · simp [hx, beq_eq_false_iff_ne.2 hx]
  · rintro ⟨k, i⟩ hne
    cases k with
    | layer =>
      have hi : layer ≠ i := fun h => hne (by rw [h])
      simp [space, getElem?_modify, hi]
    | _ => rfl

lemma space_set {slot : Nat} (there : h.space ⟨.slot, slot⟩ ≠ none) (v : Value) :
    space { h with slots := h.slots.setIfInBounds slot (.bound v) } =
      h.space.write [(⟨.slot, slot⟩, .slot (some v))] := by
  refine eq_write ?_ ?_
  · have hlt : slot < h.slots.size := by
      by_contra hge
      simp [space, getElem?_eq_none (Nat.le_of_not_lt hge)] at there
    simp [space, hlt, content]
  · rintro ⟨k, i⟩ hne
    cases k with
    | slot =>
      have hi : slot ≠ i := fun h => hne (by rw [h])
      simp [space, hi]
    | _ => rfl

/-- Waiting for a slot changes nothing that can be seen. -/
@[simp] lemma space_park (slot : Nat) (who : Waiter) : (h.park slot who).space = h.space := by
  funext ⟨k, i⟩
  cases k with
  | slot =>
    simp only [space, park, getElem?_modify]
    split
    · rw [Option.map_map]
      congr 1
      funext s
      cases s <;> rfl
    · rfl
  | _ => rfl

end Heap

/-! ### Plans are carried out -/

namespace Core

/-- The transaction gathers, and has gathered these new actors. -/
def Gathers (c : Core) (i : Nat) (made : Array StagedActor) : Prop :=
  ∃ e, c.transactions[i]? = some (.gathering e) ∧ e.created = made

/-- The sends that a transaction has gathered, in no order. -/
def sends (c : Core) (i : Nat) : Multiset PendingSend :=
  match c.transactions[i]? with
  | some (.gathering e) => e.sends.toList
  | _ => 0

/-- The core after an effect. -/
structure Grows (i : Nat) (ε : Effect) (r : Feedback) (c c' : Core) : Prop where
  space : c'.heap.space = c.heap.space.write (ε.writes r)
  gathers : ∀ {made}, c.Gathers i made → c'.Gathers i made ∧ c'.sends i = c.sends i + ε.sends

variable {i : Nat} {c : Core}

lemma Grows.heap {ε : Effect} {r : Feedback} {h : Heap} (quiet : ε.sends = 0)
    (space : h.space = c.heap.space.write (ε.writes r)) : c.Grows i ε r { c with heap := h } :=
  ⟨space, fun hg => ⟨hg, by rw [quiet, add_zero]; rfl⟩⟩

lemma Grows.idle {ε : Effect} {r : Feedback} (quiet : ε.sends = 0) (idle : ε.writes r = []) :
    c.Grows i ε r c :=
  .heap quiet (by rw [idle, write_nil])

end Core

/-- A plan is carried out: with a response; a look-up together with the reading of the slot; or in
vain. -/
inductive Plan.Met (i : Nat) (c : Core) : {g : Goal} → Plan g → Evaluation g → Core → Prop where
  | met {g : Goal} {p : Plan g} {c' : Core} (r : Feedback)
      (allowed : p.effect.Allowed c.heap.space r) (grows : c.Grows i p.effect r c') :
      Met i c p (p.next r) c'
  | look {slot : Nat} {v : Value} (bound : c.heap.slot? slot = some v) :
      Met i c (.pure (.parked slot)) (.done v) c
  | hopeless {g : Goal} {p : Plan g} {f : Evaluation g} {c' : Core}
      (hopeless : p.effect.Hopeless c.heap.space) : Met i c p f c'

variable {i : Nat} {c c' : Core} {R : Likeness} {level inner outer : Level} {g h : Goal} {H : Space}

namespace Plan.Met

lemma pure (e : Evaluation g) : Plan.Met i c (.pure e) e c :=
  .met (p := .pure e) {} trivial (.idle rfl rfl)

lemma lost {f : Evaluation g} : Plan.Met i c .lost f c' := .hopeless trivial

end Plan.Met

lemma Space.planBind_met (hH : c.heap.space.Like R H) (name : String) (v : Value) {env env' : Env}
    (henv : env.Like R env') :
    (c.heap.space.planBind name v env).Met i c (.done (c.heap.bind name v env).1)
      { c with heap := (c.heap.bind name v env).2.2 } := by
  cases henv with
  | @dynamic layer _ base _ same _ =>
    rw [planBind, Heap.bind]
    have hlayer := c.heap.space_layer layer name
    cases hlookup : (c.heap.layer layer).lookup name with
    | some w =>
      rw [hlookup] at hlayer
      simp only [hlayer]
      exact .pure _
    | none =>
      rw [hlookup] at hlayer
      simp only [hlayer]
      exact .met {} trivial
        (.heap rfl (c.heap.space_put (hH.ne_none same).1 name v))
  | @block scope _ captured _ caller _ same _ _ =>
    rw [planBind, Heap.bind]
    have hscope := c.heap.space_scope scope name
    have hthere := scope_like hH.sees same name
    cases hlookup : (c.heap.scope scope).lookup name with
    | none =>
      rw [hlookup] at hscope
      simp only [hscope]
      exact .lost
    | some slot =>
      rw [hlookup] at hscope
      rw [hscope] at hthere
      simp only [hscope]
      have hslot : c.heap.space ⟨.slot, slot⟩ ≠ none := by
        generalize H.scope _ name = y at hthere
        cases hthere with
        | some hij => exact (hH.ne_none hij).1
      simp only [Heap.fill]
      have hspace : c.heap.space ⟨.slot, slot⟩ = c.heap.slots[slot]?.map content := rfl
      cases hs : c.heap.slots[slot]? with
      | none =>
        rw [hs] at hspace
        exact absurd hspace hslot
      | some x =>
        rw [hs] at hspace
        cases x with
        | unbound waiting =>
          exact .met {} (.inl hspace)
            (.heap rfl (c.heap.space_set hslot v))
        | bound w =>
          by_cases hw : w = v
          · subst hw
            simp only [beq_self_eq_true]
            refine .met {} (.inr hspace) (.heap rfl ?_)
            exact eq_write hspace fun _ _ => rfl
          · refine .hopeless ⟨_, hspace, ?_, ?_⟩
            · simp [content]
            · simpa [content] using hw
  | empty | actor | global => exact .lost

variable {now : Millis} (cx : Context)

lemma Pattern.withConstant_met (p : Pattern) (here : Place) (frame : Frame .value g)
    (flat : frame.flat = frame) (otherwise : g.Result) :
    (p.planConstant here.flat frame otherwise).Met i c
      (p.withConstant cx here.flat c.store frame otherwise).1.flat
      (p.withConstant cx here.flat c.store frame otherwise).2.core := by
  have hone : ∀ e : Evaluation .value, (Plan.pure (.one e frame)).Met i c
      (.one e frame.flat) c := by
    intro e
    rw [flat]
    exact .pure _
  cases p with
  | const | value | self => exact hone _
  | any | ident | pair => exact .pure _

lemma Pattern.fit_met (hH : c.heap.space.Like R H) (p : Pattern) (v : Value) {here here' : Place}
    (place : here.flat.Like R here') :
    (p.planFit v here.flat c.heap.space).Met i c (p.fit v cx here.flat c.store).1.flat
      (p.fit v cx here.flat c.store).2.core := by
  have hconstant := p.withConstant_met (i := i) (c := c) cx here (.equals v) rfl false
  cases p with
  | any => exact .pure _
  | ident name =>
    have hbind := planBind_met (i := i) hH name v place.env
    have hcore := c.store.core_bind name v here.flat.env
    simp only [fit, hcore]
    exact hbind
  | pair head tail =>
    cases v with
    | _ => exact .pure _
  | const | value | self => exact hconstant

lemma map_size {α β : Type} (xs : Array α) (f : α → β) : xs[xs.size]?.map f = none := by simp

lemma Env.layer_met (base : Env) (next : Env → Evaluation g) :
    (base.planLayer next).Met i c (next (c.heap.newLayer base).1)
      { c with heap := (c.heap.newLayer base).2 } :=
  .met { id := c.heap.layers.size } (map_size ..) (.heap rfl (c.heap.space_newLayer base))

lemma Value.enter_met (f a : Value) {frame : Expr → Place → Frame .verdict .value}
    (flat : ∀ body here, (frame body here).flat = frame body here.flat) :
    (f.planEnter a 0 c.heap.space frame).Met i c (f.enter a 0 c.store frame).1.flat
      (f.enter a 0 c.store frame).2.core := by
  cases f with
  | closure ref =>
    have hclosure := c.heap.space_closure? ref
    have hstore : c.store.heap = c.heap := rfl
    simp only [planEnter, enter, hclosure, hstore]
    cases c.heap.closures[ref]? with
    | none => exact .pure _
    | some x =>
      have h := x.env.layer_met (i := i) (c := c) fun env =>
        .one (.start (.fit x.param a ⟨env, 0⟩)) (frame x.body ⟨env, 0⟩)
      have hflat : (x.open a 0 c.store (frame x.body)).1.flat =
          .one (.start (.fit x.param a ⟨(c.heap.newLayer x.env).1, 0⟩))
            (frame x.body ⟨(c.heap.newLayer x.env).1, 0⟩) :=
        congrArg (Evaluation.one _) (flat _ _)
      rw [← hflat] at h
      exact h
  | native f =>
    have hnative := c.heap.space_native? f.index
    have hstore : c.store.heap = c.heap := rfl
    simp only [planEnter, enter, hnative, hstore]
    cases c.heap.natives[f.index]? with
    | none => exact .pure _
    | some x =>
      have hcall := c.heap.call_eq x a
      simp only [Store.onHeap, hstore, hcall]
      cases c.heap.space.call x a with
      | inl w => exact .pure _
      | inr y =>
        exact .met { id := c.heap.natives.size } (map_size ..)
          (.heap rfl (c.heap.space_newNative y))
  | _ => exact .pure _

lemma Arms.try_met (arms : Arms) (v : Value) (here : Place) :
    (arms.planTry v here.flat).Met i c (arms.try v here.flat c.store).1.flat
      (arms.try v here.flat c.store).2.core := by
  cases arms with
  | nil => exact .pure _
  | cons p body rest =>
    exact here.env.layer_met fun layer =>
      .one (.start (.fit p v ⟨layer, 0⟩)) (.arm body layer rest v here.flat)

lemma Expr.begin_met (e : Expr) (here : Place) :
    (e.plan cx.now here.flat c.heap.space).Met i c (e.begin cx here.flat c.store).1.flat
      (e.begin cx here.flat c.store).2.core := by
  cases e with
  | const | apply | pair | choose | now | self | new => exact .pure _
  | ident name =>
    have hlookup := c.heap.lookup_eq name here.env
    have hstore : c.store.heap = c.heap := rfl
    have hflat : here.flat.env = here.env := rfl
    simp only [plan, begin, Env.find, hstore, hflat, hlookup]
    cases c.heap.space.find name here.env with
    | value v => exact .pure _
    | slot j =>
      cases hslot : c.heap.slot? j with
      | some v =>
        simp only [hslot]
        exact .look hslot
      | none =>
        simp only [hslot]
        exact .pure _
  | lambda param body =>
    exact .met { id := c.heap.closures.size } (map_size ..)
      (.heap rfl (c.heap.space_newClosure _))
  | cond left right yes no =>
    exact here.env.layer_met fun layer =>
      .one (.start (.unify left right ⟨layer, 0⟩)) (.branch yes layer no here.flat)
  | block vars body =>
    exact .met { id := c.heap.blocks.size } (map_size ..)
      (.heap rfl (c.heap.space_newBlock _))

/-- The statement is no sequence. -/
def Stmt.Single : Stmt → Prop
  | .empty | .seq .. => False
  | _ => True

lemma Stmt.begin_met {stmt : Stmt} (single : stmt.Single) (here : Place) :
    (stmt.plan here.flat).Met i c (stmt.begin cx here.flat c.store).1.flat
      (stmt.begin cx here.flat c.store).2.core := by
  cases stmt with
  | empty | seq => exact single.elim
  | create name behavior => exact .lost
  | define | equate | send | after | become | throw | expr => exact .pure _

/-- A job that begins with a plan: no sequence. -/
def Job.Single {g : Goal} : Job g → Prop
  | .exec stmt _ => stmt.Single
  | _ => True

lemma Job.begin_met (hH : c.heap.space.Like R H) (job : Job g) (single : job.Single) {job' : Job g}
    (like : job.flat.Like R level job') :
    (job.flat.plan cx.now c.heap.space).Met i c (job.flat.begin cx c.store).1.flat
      (job.flat.begin cx c.store).2.core := by
  cases job with
  | eval e here => exact e.begin_met cx here
  | apply f a depth => exact f.enter_met a fun _ _ => rfl
  | exec stmt here => exact Stmt.begin_met cx single here
  | publish | deliver => cases like
  | fit p v here =>
    cases like with
    | fit _ _ place => exact p.fit_met cx hH v place.toLike
  | unify p q here | unifyName p q here =>
    have hconstant := p.withConstant_met (i := i) (c := c) cx here (.fit q here.flat) rfl false
    cases p with
    | any | ident | pair => exact .pure _
    | const | value | self => exact hconstant
  | unifyPair p q here =>
    have hconstant := p.withConstant_met (i := i) (c := c) cx here (.fit q here.flat) rfl false
    cases p with
    | any | ident => exact .pure _
    | pair head tail => cases q <;> exact .pure _
    | const | value | self => exact hconstant
  | resolve p here =>
    have hconstant := p.withConstant_met (i := i) (c := c) cx here .known rfl none
    cases p with
    | any | ident | pair => exact .pure _
    | const | value | self => exact hconstant

lemma Block.nest_met (b : Block) (here : Place) :
    (b.plan here.flat).Met i c (b.nest cx here.flat c.store).2.1.flat
      (b.nest cx here.flat c.store).2.2.core := by
  refine .met { id := c.heap.scopes.size, slots := List.range' c.heap.slots.size b.vars.length } ?_
    (.heap rfl (c.heap.space_newScope b.env here.env b.vars))
  refine ⟨by simp [Heap.space], List.length_range', List.nodup_range', ?_⟩
  intro j hj
  rw [List.mem_range'_1] at hj
  simp [Heap.space, hj.1]

lemma Frame.resume_met (frame : Frame g h) {frame' : Frame g h}
    (like : frame.flat.Like R inner outer frame') (r : g.Result) :
    (frame.flat.plan r c.heap.space).Met i c (frame.flat.resume r cx c.store).1.flat
      (frame.flat.resume r cx c.store).2.core := by
  cases frame with
  | choose arms here => exact arms.try_met r here
  | arm body layer rest subject here =>
    cases r with
    | true => exact .pure _
    | false => exact rest.try_met subject here
  | branch | enter | nested | resolved | fitTail | unifyTail => cases r <;> exact .pure _
  | new | throw => exact .lost
  | equals | fit | known | define | become => exact .pure _
  | defined | equated =>
    cases r with
    | true => exact .pure _
    | false => exact .lost
  | delay message target here =>
    simp only [flat, plan, resume]
    cases r.natural? with
    | some ms => exact .pure _
    | none => exact .lost
  | init | perform | offer => cases like
  | run here =>
    have hblock := c.heap.space_block? r
    have hstore : c.store.heap = c.heap := rfl
    simp only [flat, plan, resume, hblock, hstore]
    cases c.heap.block? r with
    | some b => exact b.nest_met cx here
    | none => exact .pure _

lemma Join.resume_met {made : Array StagedActor} (gathers : c.Gathers cx.transaction made)
    (join : Join g h) (a b : g.Result) :
    (join.flat.plan a b c.heap.space).Met cx.transaction c (join.flat.resume a b cx c.store).1.flat
      (join.flat.resume a b cx c.store).2.core := by
  cases join with
  | apply depth => exact Value.enter_met a b fun _ _ => rfl
  | pair => exact .pure _
  | meanings =>
    cases a with
    | none => exact .pure _
    | some a => cases b <;> exact .pure _
  | send delay =>
    cases a with
    | actor id =>
      obtain ⟨e, he, hmade⟩ := gathers
      have ht : c.store.transaction cx.transaction = .gathering e := by
        simp [Store.transaction, Core.store, he]
      have htx := c.store.transactions_onTransaction cx.transaction
        (·.send b (.actor id) delay)
      have hflat : ((Join.send delay).flat.resume (.actor id) b cx c.store).1.flat = .done .ok := by
        simp only [Join.flat, Join.resume, Store.settle, Store.onTransaction, ht]
        rfl
      rw [hflat]
      refine .met {} trivial ⟨(write_nil _).symm, ?_⟩
      rintro made' ⟨e', he', hmade'⟩
      have hnew : ((Join.send delay).flat.resume (.actor id) b cx c.store).2.core.transactions =
          c.transactions.modify cx.transaction fun t => (t.send b (.actor id) delay).2 := htx
      rw [he] at he'
      cases he'
      refine ⟨⟨{ e with sends := e.sends.push ⟨b, id, delay⟩ }, ?_, hmade'⟩, ?_⟩
      · rw [hnew, getElem?_modify, if_pos rfl, he]
        rfl
      · simp only [Core.sends, hnew, getElem?_modify, if_true, he]
        simp only [Transaction.send, Transaction.gather, map_some, toList_push]
        rfl
    | _ => exact .lost

end Troupe
