import Troupe.Proofs.WaitingDeliveries

/-!
What binds names.

A name is bound by a layer or by a slot of a block (`Binder`). `Heap.binder?` walks along a chain of
frames to the binder that takes a name. The two walks that matter, binding a name and looking it up,
are written separately, and both stop at that binder: `Heap.bind_eq` and `Heap.lookup_of_content`.
So the only change that binding a name can make is to write it into a binder that had no value for
it.

* `Heap.Assigns.content?`: no operation changes the value of a binder for a name.
* `Heap.lookup_bind`, `Heap.bind_of_refused`: what is looked up after a name was bound, or refused.
-/

namespace Troupe

open Array Heap List

variable {x : String} {v w : Value} {env : Env}

/-! ### What binds names -/

/-- What binds a name. -/
inductive Binder where
  | layer (i : Nat)
  | slot (i : Nat)

namespace Heap

/-- The binder that takes a name, if there is one. -/
def binder? (h : Heap) (name : String) : Env → Option Binder
  | .empty => none
  | .dynamic layer _ => some (.layer layer)
  | .block scope captured _ =>
    match (h.scope scope).lookup name with
    | some slot => some (.slot slot)
    | none => h.binder? name captured
  | .actor _ _ next => h.binder? name next
  | .global .. => none

/-- The value that a binder answers for a name. -/
def content? (h : Heap) (name : String) : Binder → Option Value
  | .layer i => (h.layer i).lookup name
  | .slot i => h.slot? i

/-- The heap with a name written into a binder. -/
def write (h : Heap) (name : String) (v : Value) : Binder → Heap
  | .layer i => { h with layers := h.layers.modify i ((name, v) :: ·) }
  | .slot i => { h with slots := h.slots.setIfInBounds i (.bound v) }

/-- The layers in which names are looked for from here on exist. -/
def Holds (h : Heap) : Env → Prop
  | .empty => True
  | .dynamic layer base => layer < h.layers.size ∧ h.Holds base
  | .block _ captured _ => h.Holds captured
  | .actor _ _ next => h.Holds next
  | .global _ next => h.Holds next

/-- The binder exists, and if it is a slot, a block has it under this name. -/
def Offers (h : Heap) (name : String) : Binder → Prop
  | .layer i => i < h.layers.size
  | .slot i => i < h.slots.size ∧ ∃ scope, (name, i) ∈ h.scope scope

variable {h h' : Heap} {name : String} {c : Binder}

lemma offers_of_binder? (sound : h.Sound) (holds : h.Holds env) (hc : h.binder? name env = some c) :
    h.Offers name c := by
  induction env with
  | empty | global => cases hc
  | dynamic layer base ih =>
    cases hc
    exact holds.1
  | block scope captured caller ih _ =>
    rw [binder?] at hc
    split at hc <;> rename_i slot hfound
    · cases hc
      obtain ⟨l1, l2, hnames, -⟩ := lookup_eq_some_iff.1 hfound
      have hmem : (name, slot) ∈ h.scope scope := by
        rw [hnames]
        exact mem_append_right _ (mem_cons_self ..)
      exact ⟨sound scope _ hmem, scope, hmem⟩
    · exact ih holds hc
  | actor stamp id next ih => exact ih holds hc

/-- A value that the binder has for a name is what looking the name up gives. -/
lemma lookup_of_content (hc : h.binder? name env = some c) (hv : h.content? name c = some v) :
    h.lookup name env = .value v := by
  induction env with
  | empty | global => cases hc
  | dynamic layer base ih =>
    cases hc
    rw [lookup, show (h.layer layer).lookup name = some v from hv]
  | block scope captured caller ih _ =>
    cases hfound : (h.scope scope).lookup name with
    | none =>
      simp only [binder?, lookup, hfound] at hc ⊢
      exact ih hc
    | some slot =>
      simp only [binder?, lookup, hfound] at hc ⊢
      cases hc
      have hslot : h.slot? slot = some v := hv
      rw [hslot]
  | actor stamp id next ih => exact ih hc

lemma fill_eq {slot : Nat} (inside : slot < h.slots.size) (v : Value) :
    (∃ w, h.content? name (.slot slot) = some w ∧ h.fill slot v = (w == v, [], h)) ∨
      h.content? name (.slot slot) = none ∧
        ∃ waiting, h.fill slot v = (true, waiting, h.write name v (.slot slot)) := by
  have hget : h.slots[slot]? = some h.slots[slot] := getElem?_eq_getElem inside
  simp only [fill, content?, slot?, hget]
  cases h.slots[slot] with
  | bound w => exact .inl ⟨w, rfl, rfl⟩
  | unbound waiting => exact .inr ⟨rfl, waiting, rfl⟩

/-- What binding a name does: without a binder it is refused; a binder that has a value keeps it,
and a binder that has none is written. -/
theorem bind_eq (sound : h.Sound) (holds : h.Holds env) (name : String) (v : Value) :
    (h.binder? name env = none ∧ h.bind name v env = (false, [], h)) ∨
      ∃ c, h.binder? name env = some c ∧
        ((∃ w, h.content? name c = some w ∧ h.bind name v env = (w == v, [], h)) ∨
          h.content? name c = none ∧ ∃ waiting, h.bind name v env =
          (true, waiting, h.write name v c)) := by
  induction env with
  | empty | global => exact .inl ⟨rfl, rfl⟩
  | dynamic layer base ih =>
    refine .inr ⟨.layer layer, rfl, ?_⟩
    rw [bind, content?]
    cases (h.layer layer).lookup name with
    | some w => exact .inl ⟨w, rfl, rfl⟩
    | none => exact .inr ⟨rfl, [], rfl⟩
  | block scope captured caller ih _ =>
    rw [bind, binder?]
    cases hfound : (h.scope scope).lookup name with
    | some slot =>
      have hbinder : h.binder? name (.block scope captured caller) = some (.slot slot) := by
        rw [binder?, hfound]
      exact .inr ⟨.slot slot, rfl, fill_eq (offers_of_binder? sound holds hbinder).1 v⟩
    | none => exact ih holds
  | actor stamp id next ih => exact ih holds

/-! ### Writing into a binder -/

/-- Layers bind no name twice, and no slot has two names. -/
structure Orderly (h : Heap) : Prop where
  sound : h.Sound
  layers : ∀ i, ((h.layer i).map Prod.fst).Nodup
  slots : ∀ i j x y k, (x, k) ∈ h.scope i → (y, k) ∈ h.scope j → x = y

lemma layer_write_layer (i j : Nat) (inside : i < h.layers.size) :
    (h.write name v (.layer i)).layer j = if i = j then (name, v) :: h.layer j else h.layer j := by
  simp only [write, layer, Array.getElem?_modify]
  by_cases hij : i = j
  · subst hij
    simp [inside]
  · simp [hij]

lemma slot?_write_slot (i j : Nat) (inside : i < h.slots.size) :
    (h.write name v (.slot i)).slot? j = if i = j then some v else h.slot? j := by
  simp only [write, slot?, getElem?_setIfInBounds]
  by_cases hij : i = j
  · subst hij
    simp [inside]
  · simp [hij]

/-- The binder has the value that was written. -/
lemma content?_write (offers : h.Offers name c) : (h.write name v c).content? name c = some v := by
  cases c with
  | layer i =>
    rw [content?, layer_write_layer i i offers, if_pos rfl, lookup_cons, beq_self_eq_true]
  | slot i => rw [content?, slot?_write_slot i i offers.1, if_pos rfl]

/-- A name is found in the same binder as before. -/
lemma binder?_write : (h.write name v c).binder? name env = h.binder? name env := by
  have hscope : ∀ i, (h.write name v c).scope i = h.scope i := fun i => by cases c <;> rfl
  induction env with
  | empty | dynamic | global => rfl
  | block scope captured caller ih _ => rw [binder?, binder?, hscope, ih]
  | actor stamp id next ih => exact ih

/-- All binders that had a value for a name keep it. -/
lemma content?_write_of_some (offers : h.Offers name c) (free : h.content? name c = none)
    {d : Binder} (hw : h.content? x d = some w) : (h.write name v c).content? x d = some w := by
  cases c with
  | layer i =>
    cases d with
    | layer j =>
      rw [content?, layer_write_layer i j offers]
      split <;> rename_i hij
      · subst hij
        have hne : x ≠ name := by
          rintro rfl
          rw [free] at hw
          cases hw
        rwa [lookup_cons, beq_false_of_ne hne]
      · exact hw
    | slot j => exact hw
  | slot i =>
    cases d with
    | layer j => exact hw
    | slot j =>
      rw [content?, slot?_write_slot i j offers.1]
      split <;> rename_i hij
      · subst hij
        rw [show h.content? x (.slot i) = none from free] at hw
        cases hw
      · exact hw

/-- No other name is looked up differently. -/
lemma lookup_write_of_ne (orderly : h.Orderly) (offers : h.Offers name c) (hne : x ≠ name)
    (env : Env) : (h.write name v c).lookup x env = h.lookup x env := by
  have hscope : ∀ i, (h.write name v c).scope i = h.scope i := fun i => by cases c <;> rfl
  have hdict : ∀ i, (h.write name v c).dict i = h.dict i := fun i => by cases c <;> rfl
  have hlayer : ∀ i, ((h.write name v c).layer i).lookup x = (h.layer i).lookup x := by
    intro i
    cases c with
    | layer j =>
      rw [layer_write_layer j i offers]
      split
      · rw [lookup_cons, beq_false_of_ne hne]
      · rfl
    | slot j => rfl
  have hslot : ∀ i slot, (x, slot) ∈ h.scope i → (h.write name v c).slot? slot = h.slot? slot := by
    intro i slot hmem
    cases c with
    | layer j => rfl
    | slot j =>
      obtain ⟨hinside, scope, hname⟩ := offers
      rw [slot?_write_slot j slot hinside, if_neg]
      rintro rfl
      exact hne (orderly.slots i scope x name j hmem hname)
  induction env with
  | empty => rfl
  | dynamic layer base ih => rw [lookup, lookup, hlayer, ih]
  | block scope captured caller ih _ =>
    rw [lookup, lookup, hscope]
    split <;> rename_i hfound
    · obtain ⟨l1, l2, hnames, -⟩ := lookup_eq_some_iff.1 hfound
      rw [hslot scope _ (by rw [hnames]; simp)]
    · exact ih
  | actor stamp id next ih => exact ih
  | global dict next ih => rw [lookup, lookup, hdict, ih]

lemma Orderly.write (orderly : h.Orderly) (offers : h.Offers name c)
    (free : h.content? name c = none) (v : Value) : (h.write name v c).Orderly := by
  have hscope : ∀ i, (h.write name v c).scope i = h.scope i := fun i => by cases c <;> rfl
  refine ⟨?_, ?_, fun i j x y k => by rw [hscope, hscope]; exact orderly.slots i j x y k⟩
  · intro i entry hentry
    rw [hscope] at hentry
    have hslots : (h.write name v c).slots.size = h.slots.size := by cases c <;> simp [write]
    rw [hslots]
    exact orderly.sound i entry hentry
  · intro j
    cases c with
    | layer i =>
      rw [layer_write_layer i j offers]
      split <;> rename_i hij
      · subst hij
        rw [map_cons, nodup_cons]
        refine ⟨fun hmem => ?_, orderly.layers i⟩
        obtain ⟨entry, hentry, heq⟩ := mem_map.1 hmem
        have hnone := lookup_eq_none_iff.1 free entry hentry
        simp [heq] at hnone
      · exact orderly.layers j
    | slot i => exact orderly.layers j

/-! ### The other operations -/

/-- No name is bound: all layers and slots have the values that they had. -/
structure Quiet (h h' : Heap) : Prop where
  size : h.layers.size ≤ h'.layers.size
  layer : ∀ i, h'.layer i = h.layer i
  slot? : ∀ i, h'.slot? i = h.slot? i
  orderly : h.Orderly → h'.Orderly

lemma Quiet.trans {h'' : Heap} (first : h.Quiet h') (second : h'.Quiet h'') : h.Quiet h'' :=
  ⟨first.size.trans second.size, fun i => (second.layer i).trans (first.layer i),
    fun i => (second.slot? i).trans (first.slot? i), second.orderly ∘ first.orderly⟩

lemma Quiet.content? (quiet : h.Quiet h') (x : String) (c : Binder) :
    h'.content? x c = h.content? x c := by
  cases c with
  | layer i => rw [Heap.content?, Heap.content?, quiet.layer]
  | slot i => exact quiet.slot? i

/-- New slots have one name each. -/
lemma Orderly.extend (orderly : h.Orderly) (sound : h'.Sound) (layer : ∀ i, h'.layer i = h.layer i)
    (fresh : Nat → String)
    (names : ∀ i x k, (x, k) ∈ h'.scope i → (x, k) ∈ h.scope i ∨ h.slots.size ≤ k ∧ x = fresh k) :
    h'.Orderly := by
  refine ⟨sound, fun i => by rw [layer]; exact orderly.layers i, fun i j x y k hx hy => ?_⟩
  -- a slot is either old in both places or new in both
  rcases names i x k hx with hx | ⟨hk, rfl⟩ <;> rcases names j y k hy with hy | ⟨hk', rfl⟩
  · exact orderly.slots i j x y k hx hy
  · exact absurd (orderly.sound i _ hx) (not_lt.2 hk')
  · exact absurd (orderly.sound j _ hy) (not_lt.2 hk)
  · rfl

/-- Neither layers nor slots nor the names of blocks are changed. -/
lemma Quiet.of_eq (layers : h'.layers = h.layers) (slots : ∀ i, h'.slot? i = h.slot? i)
    (size : h'.slots.size = h.slots.size) (scopes : h'.scopes = h.scopes) : h.Quiet h' := by
  have hlayer : ∀ i, h'.layer i = h.layer i := fun i => by
    simp only [Heap.layer, layers]
  refine ⟨by rw [layers], hlayer, slots, fun ho => ?_⟩
  refine ho.extend (ho.sound.of_shape size scopes) hlayer (fun _ => "") fun i x k hx => .inl ?_
  rwa [scope, scopes] at hx

lemma slot?_append (added : Array Slot) (unbound : ∀ s ∈ added, ∃ ws, s = .unbound ws) (i : Nat) :
    ({ h with slots := h.slots ++ added } : Heap).slot? i = h.slot? i := by
  simp only [slot?]
  by_cases hi : i < h.slots.size
  · rw [Array.getElem?_append_left hi]
  · rw [Array.getElem?_append_right (Nat.not_lt.1 hi), Array.getElem?_eq_none (Nat.not_lt.1 hi)]
    cases hs : added[i - h.slots.size]? with
    | none => rfl
    | some s =>
      obtain ⟨ws, rfl⟩ := unbound s (mem_of_getElem? hs)
      rfl

/-- The heap with this number of layers more. -/
def moreLayers (h : Heap) (n : Nat) : Heap := { h with layers := h.layers ++ Array.replicate n [] }

lemma quiet_moreLayers (h : Heap) (n : Nat) : h.Quiet (h.moreLayers n) := by
  have hlayer : ∀ i, (h.moreLayers n).layer i = h.layer i := by
    intro i
    simp only [layer, moreLayers, Array.getElem?_append, Array.getElem?_replicate]
    split
    · rfl
    · rename_i hi
      rw [Array.getElem?_eq_none (Nat.not_lt.1 hi)]
      split <;> rfl
  refine ⟨by simp [moreLayers], hlayer, fun _ => rfl, fun ho => ?_⟩
  exact ho.extend (ho.sound.of_shape rfl rfl) hlayer (fun _ => "") fun i x k hx => .inl hx

lemma quiet_newScope (h : Heap) (captured caller : Env) (vars : List String) :
    h.Quiet (h.newScope captured caller vars).2 := by
  refine ⟨le_refl _, fun _ => rfl, slot?_append _ ?_, fun ho => ?_⟩
  · intro s hs
    exact ⟨[], (mem_replicate.1 hs).2⟩
  · refine ho.extend (ho.sound.newScope captured caller vars) (fun _ => rfl)
      (fun k => (vars[k - h.slots.size]?).getD "") fun i x k hx => ?_
    simp only [scope, newScope, getElem?_push] at hx
    split at hx
    · obtain ⟨hle, hlt, hget⟩ := mem_zipIdx hx
      exact .inr ⟨hle, by rw [hget, List.getElem?_eq_getElem (by omega)]; rfl⟩
    · exact .inl hx

lemma quiet_declare (h : Heap) (name : String) (env : Env) : h.Quiet (h.declare name env).2 := by
  have hanchors := h.anchors_declare name env
  rcases h.declare_cases name env with heq | ⟨j, -, heq⟩
  · rw [heq]
    exact ⟨Nat.le_refl _, fun _ => rfl, fun _ => rfl, id⟩
  · rw [heq] at hanchors ⊢
    refine ⟨Nat.le_refl _, fun _ => rfl, ?_, fun ho => ?_⟩
    · intro i
      have hslot := slot?_append (h := h) #[.unbound []] (by simp) i
      exact hslot
    · refine ho.extend (hanchors.sound ho.sound) (fun _ => rfl) (fun _ => name) fun i x k hx => ?_
      rcases h.mem_scope_addVariable hx with hx | ⟨_, heq⟩
      · exact .inl hx
      · cases heq
        exact .inr ⟨Nat.le_refl _, rfl⟩

lemma quiet_define (h : Heap) (name : String) (v : Value) (env : Env) :
    h.Quiet (h.define name v env).2 := by
  rw [define_frame]
  exact .of_eq rfl (fun _ => rfl) rfl rfl

lemma quiet_park (h : Heap) (slot : Nat) (who : Waiter) : h.Quiet (h.park slot who) :=
  .of_eq rfl (h.slot?_park slot who) (h.park_shape slot who).1 rfl

/-- An operation binds no name, or it writes one into a binder that has no value for it. -/
def Assigns (h h' : Heap) : Prop :=
  h.Quiet h' ∨ ∃ name v c, h.Offers name c ∧ h.content? name c = none ∧ h' = h.write name v c

lemma Assigns.orderly (assigns : h.Assigns h') (orderly : h.Orderly) : h'.Orderly := by
  rcases assigns with hquiet | ⟨name, v, c, hoffers, hfree, rfl⟩
  · exact hquiet.orderly orderly
  · exact orderly.write hoffers hfree v

/-- No value that a layer or a slot has for a name is changed. -/
lemma Assigns.content? (assigns : h.Assigns h') (hw : h.content? x c = some w) :
    h'.content? x c = some w := by
  rcases assigns with hquiet | ⟨name, v, d, hoffers, hfree, rfl⟩
  · rwa [hquiet.content?]
  · exact content?_write_of_some hoffers hfree hw

lemma assigns_refl (h : Heap) : h.Assigns h :=
  .inl ⟨le_refl _, fun _ => rfl, fun _ => rfl, id⟩

section bind

variable (orderly : h.Orderly) (holds : h.Holds env)
include orderly holds

lemma assigns_bind (name : String) (v : Value) : h.Assigns (h.bind name v env).2.2 := by
  rcases bind_eq orderly.sound holds name v with
    ⟨-, heq⟩ | ⟨c, hc, ⟨w, -, heq⟩ | ⟨hfree, waiting, heq⟩⟩
  · rw [heq]
    exact h.assigns_refl
  · rw [heq]
    exact h.assigns_refl
  · rw [heq]
    exact .inr ⟨name, v, c, offers_of_binder? orderly.sound holds hc, hfree, rfl⟩

/-- A name that was bound is looked up with its value, and no other name is looked up
differently. -/
lemma lookup_bind (bound : (h.bind x v env).1 = true) :
    (h.bind x v env).2.2.lookup x env = .value v ∧
      ∀ env' y, y ≠ x → (h.bind x v env).2.2.lookup y env' = h.lookup y env' := by
  rcases bind_eq orderly.sound holds x v with
    ⟨-, heq⟩ | ⟨c, hc, ⟨w, hw, heq⟩ | ⟨hfree, waiting, heq⟩⟩
  · rw [heq] at bound
    cases bound
  · -- the binder had the value already
    rw [heq] at bound ⊢
    have hsame : w = v := eq_of_beq bound
    exact ⟨lookup_of_content hc (hsame ▸ hw), fun _ _ _ => rfl⟩
  · have hoffers := offers_of_binder? orderly.sound holds hc
    rw [heq]
    refine ⟨lookup_of_content (binder?_write.trans hc) (content?_write hoffers), ?_⟩
    intro env' y hne
    exact lookup_write_of_ne orderly hoffers hne env'

/-- A name that was not bound leaves the heap as it is. -/
lemma bind_of_refused (refused : (h.bind x v env).1 = false) : (h.bind x v env).2.2 = h := by
  rcases bind_eq orderly.sound holds x v with
    ⟨-, heq⟩ | ⟨c, hc, ⟨w, hw, heq⟩ | ⟨hfree, waiting, heq⟩⟩
  · rw [heq]
  · rw [heq]
  · rw [heq] at refused
    cases refused

end bind

end Heap

end Troupe
