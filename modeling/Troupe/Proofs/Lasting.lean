import Mathlib.Order.Nat
import Troupe.Proofs.Moves

/-!
What lasts on a heap, and who waits for its slots.

Whatever is done to a heap, its frames stay, and a slot that was bound stays bound. Whoever
waits for a slot waits on until the slot is bound, and is told then.

* `Heap.Retains`: the frames and the bound slots of a heap are still there.
* `Store.Touches.retains`, `Store.Moves.retains`: so it is after everything that a task does.
-/

namespace Troupe

open Array

/-- Frames may have been added, and slots may have got more waiters. -/
structure Heap.Anchors (h h' : Heap) : Prop where
  layers : h.layers.size ≤ h'.layers.size
  slots : h.slots.size ≤ h'.slots.size
  scopes : h.scopes.size ≤ h'.scopes.size
  names : ∀ i name slot, (h.scope i).lookup name = some slot → (h'.scope i).lookup name = some slot
  sound : h.Sound → h'.Sound

/-- Frames stay, and bound slots stay bound. -/
structure Heap.Retains (h h' : Heap) : Prop extends h.Anchors h' where
  bound : ∀ i v, h.slot? i = some v → h'.slot? i = some v

/-- The slot is not bound, and `who` will be told when it is. -/
def Heap.Moored (who : Waiter) (h : Heap) (slot : Nat) : Prop :=
  ∃ ws, h.slots[slot]? = some (.unbound ws) ∧ who ∈ ws

namespace Heap

variable {h h1 h' : Heap} {who w : Waiter} {slot : Nat}

/-- Soundness is about the names of blocks and the number of slots. -/
lemma Sound.of_shape (hs : h.Sound) (size : h'.slots.size = h.slots.size)
    (scopes : h'.scopes = h.scopes) : h'.Sound := by
  intro i entry hentry
  rw [size]
  refine hs i entry ?_
  rwa [scope, scopes] at hentry

namespace Anchors

lemma refl (h : Heap) : h.Anchors h := ⟨le_rfl, le_rfl, le_rfl, fun _ _ _ hs => hs, id⟩

lemma trans (h12 : h.Anchors h1) (h23 : h1.Anchors h') : h.Anchors h' where
  layers := h12.layers.trans h23.layers
  slots := h12.slots.trans h23.slots
  scopes := h12.scopes.trans h23.scopes
  names i name slot hs := h23.names i name slot (h12.names i name slot hs)
  sound hs := h23.sound (h12.sound hs)

lemma of_grows (grows : h.Grows h') : h.Anchors h' := by
  obtain ⟨n, hslots⟩ := grows.slots
  obtain ⟨_, hlayers⟩ := grows.layers
  obtain ⟨added, hscopes⟩ := grows.scopes
  refine ⟨by simp [hlayers], by simp [hslots], by simp [hscopes], ?_, grows.sound⟩
  intro i name slot hs
  by_cases hi : i < h.scopes.size
  · rwa [scope, hscopes, getElem?_append_left hi]
  · rw [scope, getElem?_eq_none (Nat.le_of_not_lt hi)] at hs
    cases hs

/-- Only layers and slots change, and there are as many as before. -/
lemma of_shape (layers : h'.layers.size = h.layers.size) (slots : h'.slots.size = h.slots.size)
    (scopes : h'.scopes = h.scopes) : h.Anchors h' := by
  refine ⟨layers.ge, slots.ge, by rw [scopes], ?_, fun hs => hs.of_shape slots scopes⟩
  intro i name slot hs
  rwa [scope, scopes]

end Anchors

/-! ### Waiting for slots -/

/-- A slot that someone waits for is not bound. -/
lemma Moored.unbound (hm : h.Moored who slot) : h.slot? slot = none := by
  obtain ⟨ws, hws, _⟩ := hm
  simp [slot?, hws]

lemma Moored.lt (hm : h.Moored who slot) : slot < h.slots.size :=
  (Array.getElem?_eq_some_iff.1 hm.choose_spec.1).1

/-- New slots do not concern those who wait. -/
lemma Moored.grows (hm : h.Moored who slot) {added : Array Slot}
    (slots : h'.slots = h.slots ++ added) : h'.Moored who slot := by
  obtain ⟨ws, hws, hin⟩ := hm
  have hlt : slot < h.slots.size := Moored.lt ⟨ws, hws, hin⟩
  exact ⟨ws, by rw [slots, getElem?_append_left hlt, hws], hin⟩

/-- Whoever waits for a slot of a heap that has grown waited for it before. -/
lemma Moored.of_grows (slots : ∃ n, h'.slots = h.slots ++ replicate n (Slot.unbound []))
    (hm : h'.Moored who slot) : h.Moored who slot := by
  obtain ⟨n, hn⟩ := slots
  obtain ⟨ws, hws, hin⟩ := hm
  rw [hn, getElem?_append] at hws
  split at hws
  · exact ⟨ws, hws, hin⟩
  · rw [getElem?_replicate] at hws
    split at hws
    · cases hws
      cases hin
    · cases hws

lemma getElem?_park {ws : List Waiter} (hws : h.slots[slot]? = some (.unbound ws)) (who : Waiter) :
    (h.park slot who).slots[slot]? =
      some (.unbound (if ws.contains who then ws else ws ++ [who])) := by
  simp only [park, getElem?_modify, hws]
  rfl

/-- Whoever waits for a slot may wait with others. -/
lemma Moored.park (hm : h.Moored who slot) (i : Nat) : (h.park i w).Moored who slot := by
  obtain ⟨ws, hws, hin⟩ := hm
  by_cases hi : i = slot
  · subst hi
    refine ⟨_, getElem?_park hws w, ?_⟩
    split
    · exact hin
    · exact List.mem_append_left _ hin
  · exact ⟨ws, by simp [Heap.park, getElem?_modify, hi, hws], hin⟩

/-- Who is entered at a slot that is not bound waits for it. -/
lemma moored_park (hslot : slot < h.slots.size) (unbound : h.slot? slot = none) :
    (h.park slot who).Moored who slot := by
  have hget : h.slots[slot]? = some h.slots[slot] := getElem?_eq_getElem hslot
  cases hx : h.slots[slot] with
  | bound v => simp [slot?, hget, hx] at unbound
  | unbound ws =>
    rw [hx] at hget
    refine ⟨_, getElem?_park hget who, ?_⟩
    split
    · rename_i hc
      exact List.contains_iff_mem.1 hc
    · simp

/-- Whoever waits for a slot after another one has come to wait. -/
lemma Moored.of_park {i : Nat} (hm : (h.park i w).Moored who slot) :
    h.Moored who slot ∨ who = w ∧ slot = i := by
  obtain ⟨ws, hws, hin⟩ := hm
  simp only [Heap.park, getElem?_modify] at hws
  split at hws
  · rename_i hi
    obtain ⟨x, hx, heq⟩ := Option.map_eq_some_iff.1 hws
    cases x with
    | bound v => cases heq
    | unbound ws0 =>
      cases heq
      split at hin
      · exact .inl ⟨ws0, hx, hin⟩
      · rcases List.mem_append.1 hin with hin | hin
        · exact .inl ⟨ws0, hx, hin⟩
        · exact .inr ⟨List.mem_singleton.1 hin, hi.symm⟩
  · exact .inl ⟨ws, hws, hin⟩

/-- Binding a name changes at most one slot, and tells those who waited for it. -/
lemma bind_slots (h : Heap) (name : String) (v : Value) (env : Env) (slot : Nat) :
    (h.bind name v env).2.2.slots[slot]? = h.slots[slot]? ∨
      h.slots[slot]? = some (.unbound (h.bind name v env).2.1) ∧
        (h.bind name v env).2.2.slots[slot]? = some (.bound v) := by
  rcases h.bind_cases name v env with heq | ⟨i, heq⟩ | ⟨i, ws, hi, heq⟩
  · exact .inl (by rw [heq])
  · exact .inl (by rw [heq])
  · rw [heq]
    by_cases hslot : i = slot
    · subst hslot
      exact .inr ⟨hi, Array.getElem?_setIfInBounds_self_of_lt (Array.getElem?_eq_some_iff.1 hi).1⟩
    · exact .inl (Array.getElem?_setIfInBounds_ne hslot)

/-- Binding a name: those who are told waited for a slot, which is bound now, and those who still
wait waited before. -/
lemma bind_waiters (h : Heap) (name : String) (v : Value) (env : Env) :
    (∀ who ∈ (h.bind name v env).2.1, ∃ slot, h.Moored who slot ∧
        (h.bind name v env).2.2.slot? slot = some v) ∧
      ∀ who slot, (h.bind name v env).2.2.Moored who slot → h.Moored who slot := by
  refine ⟨fun who hin => ?_, fun who slot ⟨ws, hws, hin⟩ => ?_⟩
  · rcases h.bind_cases name v env with heq | ⟨i, heq⟩ | ⟨i, ws, hws, heq⟩
    · exact absurd (heq ▸ hin) List.not_mem_nil
    · exact absurd (heq ▸ hin) List.not_mem_nil
    · rw [heq] at hin ⊢
      refine ⟨i, ⟨ws, hws, hin⟩, ?_⟩
      simp [slot?, (Array.getElem?_eq_some_iff.1 hws).1]
  · rcases h.bind_slots name v env slot with hsame | ⟨_, hbound⟩
    · exact ⟨ws, hsame ▸ hws, hin⟩
    · rw [hbound] at hws
      cases hws

/-! ### Binding and parking -/

/-- Binding a name makes no slots. -/
lemma bind_shape (h : Heap) (name : String) (v : Value) (env : Env) :
    (h.bind name v env).2.2.slots.size = h.slots.size ∧
      (h.bind name v env).2.2.scopes = h.scopes := by
  obtain ⟨layers, slots, heq, _, hsize⟩ := h.bind_frame name v env
  rw [heq]
  exact ⟨hsize, rfl⟩

lemma park_shape (h : Heap) (slot : Nat) (who : Waiter) :
    (h.park slot who).slots.size = h.slots.size ∧ (h.park slot who).scopes = h.scopes := by
  simp [park]

/-- Binding a name makes no layers. -/
lemma size_layers_bind (h : Heap) (name : String) (v : Value) (env : Env) :
    (h.bind name v env).2.2.layers.size = h.layers.size := by
  obtain ⟨layers, slots, heq, hsize, _⟩ := h.bind_frame name v env
  rwa [heq]

lemma anchors_bind (h : Heap) (name : String) (v : Value) (env : Env) :
    h.Anchors (h.bind name v env).2.2 :=
  .of_shape (h.size_layers_bind name v env) (h.bind_shape name v env).1 (h.bind_shape name v env).2

lemma anchors_park (h : Heap) (slot : Nat) (who : Waiter) : h.Anchors (h.park slot who) :=
  .of_shape rfl (h.park_shape slot who).1 (h.park_shape slot who).2

lemma slot?_park (h : Heap) (slot : Nat) (who : Waiter) (i : Nat) :
    (h.park slot who).slot? i = h.slot? i := by
  simp only [slot?, park, getElem?_modify]
  by_cases hi : slot = i
  · rw [if_pos hi]
    rcases h.slots[i]? with _ | _ | _ <;> rfl
  · rw [if_neg hi]

namespace Retains

lemma refl (h : Heap) : h.Retains h := ⟨.refl h, fun _ _ => id⟩

lemma trans (h12 : h.Retains h1) (h23 : h1.Retains h') : h.Retains h' where
  toAnchors := h12.toAnchors.trans h23.toAnchors
  bound i v hv := h23.bound i v (h12.bound i v hv)


lemma of_grows (grows : h.Grows h') : h.Retains h' := by
  refine ⟨.of_grows grows, fun i v hv => ?_⟩
  obtain ⟨n, hslots⟩ := grows.slots
  unfold slot? at hv ⊢
  split at hv
  · rename_i hx
    rwa [hslots, Array.getElem?_append_left (Array.getElem?_eq_some_iff.1 hx).1, hx]
  · cases hv

lemma bind (h : Heap) (name : String) (v : Value) (env : Env) :
    h.Retains (h.bind name v env).2.2 := by
  refine ⟨h.anchors_bind name v env, fun i u hu => ?_⟩
  rcases h.bind_slots name v env i with hsame | ⟨hunbound, _⟩
  · rwa [slot?, hsame]
  · rw [slot?, hunbound] at hu
    cases hu

lemma park (h : Heap) (slot : Nat) (who : Waiter) : h.Retains (h.park slot who) :=
  ⟨h.anchors_park slot who, fun i _ hv => (h.slot?_park slot who i).trans hv⟩

end Retains

end Heap

namespace Store

variable {cx : Context} {who : Waiter} {s s' : Store}

lemma Touch.retains (h : Touch cx who s s') : s.heap.Retains s'.heap := by
  cases h with
  | heap grows => exact .of_grows grows
  | bind _ name v env =>
    have hheap : (s.bind name v env).2.heap = (s.heap.bind name v env).2.2 := heap_wakeAll ..
    rw [hheap]
    exact .bind s.heap name v env
  | @park _ slot unbound => exact .park s.heap slot who
  | request | reserve | detach => exact .refl _
  | read _ ticket =>
    unfold readAnswer
    split <;> exact .refl _

lemma Touches.retains (h : Touches cx who s s') : s.heap.Retains s'.heap := by
  induction h with
  | refl => exact .refl _
  | tail _ last ih => exact ih.trans last.retains

lemma Move.retains (h : Move cx s s') : s.heap.Retains s'.heap := by
  cases h with
  | touch _ touch => exact touch.retains
  | stir _ ws _ _ =>
    rw [heap_wakeAll]
    exact .refl _

lemma Moves.retains (h : Moves cx s s') : s.heap.Retains s'.heap := by
  induction h with
  | refl => exact .refl _
  | tail _ last ih => exact ih.trans last.retains

end Store

end Troupe
