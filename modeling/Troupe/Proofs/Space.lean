import Mathlib.Data.List.Forall2
import Mathlib.Data.List.Nodup
import Mathlib.Data.Multiset.Basic
import Troupe.Proofs.Likeness

/-!
Heaps without an order.

A heap gives out its numbers one after the other, so the numbers tell in which order things were
made. In a `Space` things stand at addresses that are chosen freely. What an evaluation does to a
space is an `Effect`; what it is free to choose, or reads, is the `Feedback`.

* `Space.find`, `Space.call`: looking names up and applying native functions, without a look at
  slots.
* `Space.find_like`, `Space.call_like`: in spaces that are like each other they do the same.
* `Effect.exists_like`: effects that are like each other, on spaces that are like each other, lead
  to spaces that are like each other again.
-/

namespace Troupe

open List Option

variable {i j : Nat} {a : Address}

/-! ### Contents -/

/-- What stands at an address. -/
inductive Content where
  | layer (bindings : String → Option Value)
  | scope (slots : String → Option Nat)
  | slot (v? : Option Value)
  | dict (entries : String → Option Value)
  | closure (c : Closure)
  | block (b : Block)
  | native (f : Native)

/-- The kind of address for a content. -/
def Content.kind : Content → Kind
  | layer _ => .layer
  | scope _ => .scope
  | slot _ => .slot
  | dict _ => .dict
  | closure _ => .closure
  | block _ => .block
  | native _ => .native

variable {R R' : Likeness}

/-- Two contents are like each other. -/
inductive Content.Like (R : Likeness) : Content → Content → Prop where
  | layer {b b' : String → Option Value} (each : ∀ name, Option.Rel (Value.Like R)
      (b name) (b' name)) :
      Like R (.layer b) (.layer b')
  | scope {b b' : String → Option Nat} (each : ∀ name, Option.Rel (R .slot) (b name) (b' name)) :
      Like R (.scope b) (.scope b')
  | slot {v? w? : Option Value} (each : Option.Rel (Value.Like R) v? w?) :
      Like R (.slot v?) (.slot w?)
  | dict {b b' : String → Option Value} (each : ∀ name, Option.Rel (Value.Like R)
      (b name) (b' name)) :
      Like R (.dict b) (.dict b')
  | closure {c c' : Closure} (c_like : c.Like R c') : Like R (.closure c) (.closure c')
  | block {b b' : Block} (b_like : b.Like R b') : Like R (.block b) (.block b')
  | native {f f' : Native} (f_like : f.Like R f') : Like R (.native f) (.native f')

lemma rel_mono {α β : Type} {r r' : α → β → Prop} (hr : ∀ a b, r a b → r' a b) {x : Option α}
    {y : Option β} (h : Rel r x y) : Rel r' x y := by
  cases h with
  | some h => exact .some (hr _ _ h)
  | none => exact .none

lemma rel_eq {α : Type} {r : α → α → Prop} (hr : ∀ a b, r a b → a = b) {x y : Option α}
    (h : Rel r x y) : x = y := by
  cases h with
  | some h => rw [hr _ _ h]
  | none => rfl

namespace Content.Like

variable {c c' : Content}

lemma mono (hR : R ≤ R') (h : c.Like R c') : c.Like R' c' := by
  have hv : ∀ v w : Value, v.Like R w → v.Like R' w := fun _ _ => .mono hR
  cases h with
  | layer each => exact .layer fun name => rel_mono hv (each name)
  | scope each => exact .scope fun name => rel_mono (hR _) (each name)
  | slot each => exact .slot (rel_mono hv each)
  | dict each => exact .dict fun name => rel_mono hv (each name)
  | closure c => exact .closure (c.mono hR)
  | block b => exact .block (b.mono hR)
  | native f => exact .native (f.mono hR)

lemma eq (hR : R.Diagonal) (h : c.Like R c') : c = c' := by
  have hv : ∀ v w : Value, v.Like R w → v = w := fun _ _ => Value.Like.eq hR
  cases h with
  | layer each | dict each => rw [funext fun name => rel_eq hv (each name)]
  | scope each => rw [funext fun name => rel_eq (fun _ _ => hR.eq) (each name)]
  | slot each => rw [rel_eq hv each]
  | closure c => rw [c.eq hR]
  | block b => rw [b.eq hR]
  | native f => rw [f.eq hR]

lemma kind_eq (h : c.Like R c') : c.kind = c'.kind := by
  cases h <;> rfl

end Content.Like

/-! ### Spaces -/

/-- What stands where. -/
abbrev Space := Address → Option Content

namespace Space

/-- The bindings of a layer. -/
def layer (H : Space) (i : Nat) : String → Option Value :=
  match H ⟨.layer, i⟩ with
  | some (.layer b) => b
  | _ => fun _ => none

/-- The slots of a block. -/
def scope (H : Space) (i : Nat) : String → Option Nat :=
  match H ⟨.scope, i⟩ with
  | some (.scope b) => b
  | _ => fun _ => none

/-- The entries of a dictionary. -/
def dict (H : Space) (i : Nat) : String → Option Value :=
  match H ⟨.dict, i⟩ with
  | some (.dict b) => b
  | _ => fun _ => none

/-- The function at a number. -/
def closure? (H : Space) (i : Nat) : Option Closure :=
  match H ⟨.closure, i⟩ with
  | some (.closure c) => some c
  | _ => none

/-- The native function at a number. -/
def native? (H : Space) (i : Nat) : Option Native :=
  match H ⟨.native, i⟩ with
  | some (.native f) => some f
  | _ => none

/-- The block that a value is. -/
def block? (H : Space) : Value → Option Block
  | .block i =>
    match H ⟨.block, i⟩ with
    | some (.block b) => some b
    | _ => none
  | _ => none

/-- Where a look-up ends: at a value, or at a slot. -/
inductive Sight where
  | value (v : Value)
  | slot (i : Nat)

/-- Looks a name up, frame by frame. Whether a slot is bound does not matter. -/
def find (H : Space) (name : String) : Env → Sight
  | .empty => .value .undefined
  | .dynamic layer base =>
    match H.layer layer name with
    | some v => .value v
    | none => H.find name base
  | .block scope captured _ =>
    match H.scope scope name with
    | some slot => .slot slot
    | none => H.find name captured
  | .actor _ _ next => H.find name next
  | .global dict next =>
    match H.dict dict name with
    | some v => .value v
    | none => H.find name next

/-- Applies a native function: the answer, or a new native function that is the answer. -/
def call (H : Space) : Native → Value → Value ⊕ Native
  | .operation o, v => .inl (o.apply v)
  | .mapBind, .pair (.native f) (.pair key value) =>
    match H.native? f.index with
    | some rest => .inr (.map key value rest)
    | none => .inl .undefined
  | .mapBind, _ => .inl .undefined
  | .map key value rest, v => if v == key then .inl value else H.call rest v
  | .identity, v => .inl v
  | .host f held, v => .inl (f.apply (.pair held v))

/-- Two spaces are like each other, apart from their slots. -/
def Sees (R : Likeness) (H H' : Space) : Prop :=
  ∀ k i j, k ≠ .slot → R k i j →
    ∃ c c', H ⟨k, i⟩ = some c ∧ H' ⟨k, j⟩ = some c' ∧ c.Like R c'

/-- Two spaces are like each other. Only what stands in both of them is related. -/
structure Like (R : Likeness) (H H' : Space) : Prop where
  at_related : ∀ {k i j}, R k i j →
    ∃ c c', H ⟨k, i⟩ = some c ∧ H' ⟨k, j⟩ = some c' ∧ c.Like R c'

lemma Like.sees {H H' : Space} (h : H.Like R H') : H.Sees R H' := fun _ _ _ _ => h.at_related

variable {H H' : Space}

section Reading

variable (h : H.Sees R H')
include h

lemma layer_like (hij : R .layer i j) (name : String) :
    Rel (Value.Like R) (H.layer i name) (H'.layer j name) := by
  obtain ⟨c, c', hc, hc', hlike⟩ := h _ _ _ (by decide) hij
  simp only [layer, hc, hc']
  cases hlike with
  | layer each => exact each name
  | _ => exact .none

lemma scope_like (hij : R .scope i j) (name : String) :
    Rel (R .slot) (H.scope i name) (H'.scope j name) := by
  obtain ⟨c, c', hc, hc', hlike⟩ := h _ _ _ (by decide) hij
  simp only [scope, hc, hc']
  cases hlike with
  | scope each => exact each name
  | _ => exact .none

lemma dict_like (hij : R .dict i j) (name : String) :
    Rel (Value.Like R) (H.dict i name) (H'.dict j name) := by
  obtain ⟨c, c', hc, hc', hlike⟩ := h _ _ _ (by decide) hij
  simp only [dict, hc, hc']
  cases hlike with
  | dict each => exact each name
  | _ => exact .none

lemma closure?_like (hij : R .closure i j) :
    Rel (Closure.Like R) (H.closure? i) (H'.closure? j) := by
  obtain ⟨c, c', hc, hc', hlike⟩ := h _ _ _ (by decide) hij
  simp only [closure?, hc, hc']
  cases hlike with
  | closure c => exact .some c
  | _ => exact .none

lemma native?_like (hij : R .native i j) : Rel (Native.Like R) (H.native? i) (H'.native? j) := by
  obtain ⟨c, c', hc, hc', hlike⟩ := h _ _ _ (by decide) hij
  simp only [native?, hc, hc']
  cases hlike with
  | native f => exact .some f
  | _ => exact .none

lemma block?_like {v v' : Value} (hv : v.Like R v') :
    Rel (Block.Like R) (H.block? v) (H'.block? v') := by
  cases hv with
  | block hij =>
    obtain ⟨c, c', hc, hc', hlike⟩ := h _ _ _ (by decide) hij
    simp only [block?, hc, hc']
    cases hlike with
    | block b => exact .some b
    | _ => exact .none
  | _ => exact .none

/-- Two look-ups end in the same way. -/
inductive Sight.Like (R : Likeness) : Sight → Sight → Prop where
  | value {v v' : Value} (v_like : v.Like R v') : Like R (.value v) (.value v')
  | slot {i j : Nat} (same : R .slot i j) : Like R (.slot i) (.slot j)

/-- Looking a name up in spaces that are like each other. -/
theorem find_like (name : String) {env env' : Env} (henv : env.Like R env') :
    (H.find name env).Like R (H'.find name env') := by
  induction henv with
  | empty => exact .value .undefined
  | @dynamic i j base base' same _ ih =>
    have hlayer := layer_like h same name
    rw [find, find]
    generalize H.layer i name = x at hlayer ⊢
    generalize H'.layer j name = y at hlayer ⊢
    cases hlayer with
    | some hv => exact .value hv
    | none => exact ih
  | @block i j captured captured' _ _ same _ _ ih _ =>
    have hscope := scope_like h same name
    rw [find, find]
    generalize H.scope i name = x at hscope ⊢
    generalize H'.scope j name = y at hscope ⊢
    cases hscope with
    | some hslot => exact .slot hslot
    | none => exact ih
  | actor stamp id _ ih => exact ih
  | @global i j next next' same _ ih =>
    have hdict := dict_like h same name
    rw [find, find]
    generalize H.dict i name = x at hdict ⊢
    generalize H'.dict j name = y at hdict ⊢
    cases hdict with
    | some hv => exact .value hv
    | none => exact ih

/-- Applying native functions in spaces that are like each other. -/
theorem call_like (unique : R.Unique) {f f' : Native} (hf : f.Like R f') {v v' : Value}
    (hv : v.Like R v') : Sum.LiftRel (Value.Like R) (Native.Like R) (H.call f v)
    (H'.call f' v') := by
  induction hf with
  | operation o =>
    simp only [call]
    exact .inl (Operation.apply_like unique o hv)
  | mapBind =>
    cases hv with
    | pair head tail =>
      cases head with
      | @native i j name same =>
        cases tail with
        | pair key value =>
          have hnative := native?_like h same
          simp only [call]
          generalize H.native? i = x at hnative ⊢
          generalize H'.native? j = y at hnative ⊢
          cases hnative with
          | some hrest => exact .inr (.map key value hrest)
          | none => exact .inl .undefined
        | _ => exact .inl .undefined
      | _ => exact .inl .undefined
    | _ => exact .inl .undefined
  | map key value _ ih =>
    simp only [call, hv.beq_eq unique key]
    split
    · exact .inl value
    · exact ih
  | identity => exact .inl hv
  | host f held => exact .inl (f.natural unique (.pair held hv))

end Reading

/-! ### Writing -/

/-- Writes contents to addresses. -/
def write (H : Space) (ws : List (Address × Content)) : Space := fun a => (ws.lookup a).or (H a)

@[simp] lemma write_nil (H : Space) : H.write [] = H := by
  funext a
  simp [write]

lemma write_of_lookup {ws : List (Address × Content)} {c : Content} (h : ws.lookup a = some c) :
    H.write ws a = some c := by
  simp [write, h]

lemma write_of_not {ws : List (Address × Content)} (h : ws.lookup a = none) :
    H.write ws a = H a := by
  simp [write, h]

/-- Writes that agree where they meet may be exchanged. -/
lemma write_comm {ws ws' : List (Address × Content)}
    (agree : ∀ a c c', ws.lookup a = some c → ws'.lookup a = some c' → c = c') :
    (H.write ws).write ws' = (H.write ws').write ws := by
  funext a
  cases h : ws.lookup a with
  | none =>
    rw [write_of_not h]
    cases h' : ws'.lookup a with
    | none => rw [write_of_not h', write_of_not h, write_of_not h']
    | some c' => rw [write_of_lookup h', write_of_lookup h']
  | some c =>
    rw [write_of_lookup h]
    cases h' : ws'.lookup a with
    | none => rw [write_of_not h', write_of_lookup h]
    | some c' => rw [write_of_lookup h', agree a c c' h h']

lemma lookup_cons_of_ne {b : Address} (h : a ≠ b) (c : Content) (ws : List (Address × Content)) :
    ((b, c) :: ws).lookup a = ws.lookup a := by
  rw [lookup_cons, beq_eq_false_iff_ne.2 h]

/-- Writes at addresses that are related, or new on both sides. -/
lemma Like.write (hH : H.Like R H') {ws ws' : List (Address × Content)} (hR : R ≤ R')
    (each : ∀ k i j, R' k i j →
      (R k i j ∧ ws.lookup ⟨k, i⟩ = none ∧ ws'.lookup ⟨k, j⟩ = none) ∨
        ∃ c c', ws.lookup ⟨k, i⟩ = some c ∧ ws'.lookup ⟨k, j⟩ = some c' ∧ c.Like R' c') :
    (H.write ws).Like R' (H'.write ws') := by
  constructor
  intro k i j hij
  rcases each k i j hij with ⟨hold, hw, hw'⟩ | ⟨c, c', hw, hw', hc⟩
  · obtain ⟨c, c', hc, hc', hlike⟩ := hH.at_related hold
    exact ⟨c, c', (write_of_not hw).trans hc, (write_of_not hw').trans hc', hlike.mono hR⟩
  · exact ⟨c, c', write_of_lookup hw, write_of_lookup hw', hc⟩

/-- Writing contents that are like each other at addresses that are related. -/
lemma Like.write_at (hH : H.Like R H') (unique : R.Unique) {k : Kind} {c c' : Content}
    (same : R k i j) (hc : c.Like R c') :
    (H.write [(⟨k, i⟩, c)]).Like R (H'.write [(⟨k, j⟩, c')]) := by
  refine hH.write le_rfl fun k' i' j' hij => ?_
  by_cases hk : k' = k
  · subst hk
    by_cases hi : i' = i
    · have hj := (unique.iff hij same).1 hi
      subst hi hj
      exact .inr ⟨c, c', lookup_cons_self, lookup_cons_self, hc⟩
    · have hj := (unique.iff hij same).not.1 hi
      exact .inl ⟨hij, lookup_cons_of_ne (by simpa using hi) _ _,
        lookup_cons_of_ne (by simpa using hj) _ _⟩
  · exact .inl ⟨hij, lookup_cons_of_ne (by simp [hk]) _ _, lookup_cons_of_ne (by simp [hk]) _ _⟩

/-- What is related is there. -/
lemma Like.ne_none (hH : H.Like R H') {k : Kind} (hij : R k i j) :
    H ⟨k, i⟩ ≠ none ∧ H' ⟨k, j⟩ ≠ none := by
  obtain ⟨c, c', hc, hc', _⟩ := hH.at_related hij
  simp [hc, hc']

end Space

/-! ### Effects -/

/-- What a step of an evaluation does to a space, or to a transaction. -/
inductive Effect where
  | none
  /-- Something new. -/
  | make (c : Content)
  /-- The variables of a block, and a slot for each of them. -/
  | scope (vars : List String)
  /-- Sets the bindings of a layer. -/
  | put (layer : Nat) (bindings : String → Option Value)
  | fill (slot : Nat) (v : Value)
  /-- Reads a slot that is bound. -/
  | read (slot : Nat)
  | send (x : PendingSend)
  /-- Fails, or makes an actor. -/
  | lost

/-- What a step is free to choose: numbers for what is new; and what it reads. -/
structure Feedback where
  id : Nat := 0
  slots : List Nat := []
  value : Value := .undefined

namespace Effect

/-- What is written where. -/
def writes : Effect → Feedback → List (Address × Content)
  | make c, r => [(⟨c.kind, r.id⟩, c)]
  | scope vars, r =>
    (⟨.scope, r.id⟩, .scope fun name => (vars.zip r.slots).lookup name) ::
      r.slots.map fun i => (⟨.slot, i⟩, .slot Option.none)
  | put layer b, _ => [(⟨.layer, layer⟩, .layer b)]
  | fill slot v, _ => [(⟨.slot, slot⟩, .slot (some v))]
  | _, _ => []

/-- The sends of an effect. -/
def sends : Effect → Multiset PendingSend
  | send x => {x}
  | _ => 0

/-- A response is possible. New addresses are free, a slot that is filled is not bound to something
else, and a slot that is read is bound. -/
def Allowed (H : Space) : Effect → Feedback → Prop
  | none, _ => True
  | make c, r => H ⟨c.kind, r.id⟩ = Option.none
  | scope vars, r => H ⟨.scope, r.id⟩ = Option.none ∧ r.slots.length = vars.length ∧
      r.slots.Nodup ∧ ∀ i ∈ r.slots, H ⟨.slot, i⟩ = Option.none
  | put .., _ => True
  | fill slot v, _ =>
    H ⟨.slot, slot⟩ = some (.slot Option.none) ∨ H ⟨.slot, slot⟩ = some (.slot (some v))
  | read slot, r => H ⟨.slot, slot⟩ = some (.slot (some r.value))
  | send _, _ => True
  | lost, _ => False

/-- Two effects are like each other. -/
inductive Like (R : Likeness) : Effect → Effect → Prop where
  | none : Like R .none .none
  | make {c c' : Content} (c_like : c.Like R c') : Like R (.make c) (.make c')
  | scope (vars : List String) : Like R (.scope vars) (.scope vars)
  | put {i j : Nat} {b b' : String → Option Value} (same : R .layer i j)
      (each : ∀ name, Option.Rel (Value.Like R) (b name) (b' name)) : Like R (.put i b) (.put j b')
  | fill {i j : Nat} {v v' : Value} (same : R .slot i j) (v_like : v.Like R v') :
      Like R (.fill i v) (.fill j v')
  | read {i j : Nat} (same : R .slot i j) : Like R (.read i) (.read j)
  | send {x x' : PendingSend} (x_like : x.Like R x') : Like R (.send x) (.send x')
  | lost : Like R .lost .lost

lemma Like.mono {ε ε' : Effect} (hR : R ≤ R') (h : ε.Like R ε') : ε.Like R' ε' := by
  cases h with
  | none => exact .none
  | make c => exact .make (c.mono hR)
  | scope vars => exact .scope vars
  | put same each =>
    exact .put (hR _ _ _ same) fun name => rel_mono (fun _ _ => Value.Like.mono hR) (each name)
  | fill same v => exact .fill (hR _ _ _ same) (v.mono hR)
  | read same => exact .read (hR _ _ _ same)
  | send x => exact .send (x.mono hR)
  | lost => exact .lost

lemma Like.eq {ε ε' : Effect} (hR : R.Diagonal) (h : ε.Like R ε') : ε = ε' := by
  cases h with
  | make c => rw [c.eq hR]
  | put same each =>
    rw [hR.eq same, funext fun name => rel_eq (fun _ _ => Value.Like.eq hR) (each name)]
  | fill same v => rw [hR.eq same, v.eq hR]
  | read same => rw [hR.eq same]
  | send x => rw [x.eq hR]
  | _ => rfl

/-- Two responses to an effect are like each other. -/
def Replies (R : Likeness) : Effect → Feedback → Feedback → Prop
  | make c, r, r' => R c.kind r.id r'.id
  | scope _, r, r' => R .scope r.id r'.id ∧ List.Forall₂ (R .slot) r.slots r'.slots
  | read _, r, r' => r.value.Like R r'.value
  | _, _, _ => True

end Effect

/-! ### Effects on spaces that are like each other -/

/-- What is written to free addresses is written nowhere else. -/
lemma lookup_of_fresh {H : Space} {ws : List (Address × Content)} (fresh : ∀ x ∈ ws, H x.1 = none)
    (ha : H a ≠ none) : ws.lookup a = none := by
  rw [lookup_eq_none_iff]
  intro x hx
  rw [bne_iff_ne]
  rintro rfl
  exact ha (fresh x hx)

lemma lookup_slots {slots : List Nat} (hi : i ∈ slots) (c : Content) :
    (slots.map fun i => ((⟨.slot, i⟩ : Address), c)).lookup ⟨.slot, i⟩ = some c := by
  induction slots with
  | nil => cases hi
  | cons j slots ih =>
    rw [map_cons, lookup_cons]
    split
    · rfl
    · rename_i hne
      refine ih ((mem_cons.1 hi).resolve_left ?_)
      rintro rfl
      simp at hne

/-- Names stand for slots that are related if the slots are. -/
lemma lookup_zip_like {r : Nat → Nat → Prop} {slots slots' : List Nat}
    (h : Forall₂ r slots slots') (vars : List String) (name : String) :
    Rel r ((vars.zip slots).lookup name) ((vars.zip slots').lookup name) := by
  induction h generalizing vars with
  | nil =>
    rw [zip_nil_right]
    exact .none
  | cons hij _ ih =>
    cases vars with
    | nil => exact .none
    | cons x vars =>
      simp only [zip_cons_cons, lookup_cons]
      split
      · exact .some hij
      · exact ih vars

/-- A likeness and another one, on numbers that the first one does not know. -/
lemma Likeness.Unique.union {N : Likeness} (hR : R.Unique) (hN : N.Unique)
    (apart : ∀ {k i j i' j'}, R k i j → N k i' j' → i ≠ i' ∧ j ≠ j') :
    Likeness.Unique fun k i j => R k i j ∨ N k i j := by
  constructor
  rintro k i j i' j' (h | h) (h' | h')
  · exact hR.iff h h'
  · exact iff_of_false (apart h h').1 (apart h h').2
  · exact iff_of_false (apart h' h).1.symm (apart h' h).2.symm
  · exact hN.iff h h'

/-- Elements that stand at the same place of two lists, each without repetition. -/
lemma zip_unique {l l' : List Nat} (hl : l.Nodup) (hl' : l'.Nodup) {i' j' : Nat}
    (h : (i, j) ∈ l.zip l') (h' : (i', j') ∈ l.zip l') : i = i' ↔ j = j' := by
  obtain ⟨m, hm, hij⟩ := mem_iff_getElem.1 h
  obtain ⟨n, hn, hij'⟩ := mem_iff_getElem.1 h'
  rw [getElem_zip, Prod.mk.injEq] at hij hij'
  rw [← hij.1, ← hij.2, ← hij'.1, ← hij'.2, Nodup.getElem_inj_iff hl,
    Nodup.getElem_inj_iff hl']

namespace Effect

variable {H H' : Space} {ε ε' : Effect} {r r' : Feedback}

/-- Effects that are like each other, on spaces that are like each other. What is new on one side is
related to what is new on the other. -/
theorem exists_like (unique : R.Unique) (hH : H.Like R H') (hε : ε.Like R ε')
    (allowed : ε.Allowed H r) (allowed' : ε'.Allowed H' r') :
    ∃ R', R ≤ R' ∧ R'.Unique ∧ ε.Replies R' r r' ∧
      (H.write (ε.writes r)).Like R' (H'.write (ε'.writes r')) := by
  cases hε with
  | none | send => exact ⟨R, le_rfl, unique, trivial, by simpa [writes] using hH⟩
  | @make c c' hc =>
    have hk := hc.kind_eq
    let N : Likeness := fun k i j => k = c.kind ∧ i = r.id ∧ j = r'.id
    have hN : N.Unique := by
      constructor
      rintro k i j i' j' ⟨_, rfl, rfl⟩ ⟨_, rfl, rfl⟩
      exact iff_of_true rfl rfl
    have happart : ∀ {k i j i' j'}, R k i j → N k i' j' → i ≠ i' ∧ j ≠ j' := by
      rintro k i j i' j' hij ⟨rfl, rfl, rfl⟩
      refine ⟨?_, ?_⟩
      · rintro rfl
        exact (hH.ne_none hij).1 allowed
      · rintro rfl
        exact (hH.ne_none hij).2 (hk ▸ allowed')
    have hle : R ≤ fun k i j => R k i j ∨ N k i j := fun _ _ _ => .inl
    refine ⟨_, hle, unique.union hN happart, .inr ⟨rfl, rfl, rfl⟩, hH.write hle ?_⟩
    rintro k i j (hij | ⟨rfl, rfl, rfl⟩)
    · have hne := hH.ne_none hij
      exact .inl ⟨hij, lookup_of_fresh (by simpa [writes, Allowed] using allowed) hne.1,
        lookup_of_fresh (by simpa [writes, Allowed] using allowed') hne.2⟩
    · exact .inr ⟨c, c', by simp [writes], by simp [writes, hk], hc.mono hle⟩
  | scope vars =>
    obtain ⟨hid, hlen, hnodup, hfree⟩ := allowed
    obtain ⟨hid', hlen', hnodup', hfree'⟩ := allowed'
    let N : Likeness := fun k i j => (k = .scope ∧ i = r.id ∧ j = r'.id) ∨
      (k = .slot ∧ (i, j) ∈ r.slots.zip r'.slots)
    have hN : N.Unique := by
      constructor
      rintro k i j i' j' (⟨rfl, rfl, rfl⟩ | ⟨rfl, h⟩) (⟨hk, rfl, rfl⟩ | ⟨hk, h'⟩)
      · exact iff_of_true rfl rfl
      · cases hk
      · cases hk
      · exact zip_unique hnodup hnodup' h h'
    have happart : ∀ {k i j i' j'}, R k i j → N k i' j' → i ≠ i' ∧ j ≠ j' := by
      rintro k i j i' j' hij (⟨rfl, rfl, rfl⟩ | ⟨rfl, h⟩)
      · refine ⟨?_, ?_⟩ <;> rintro rfl
        · exact (hH.ne_none hij).1 hid
        · exact (hH.ne_none hij).2 hid'
      · have hmem := of_mem_zip h
        refine ⟨?_, ?_⟩ <;> rintro rfl
        · exact (hH.ne_none hij).1 (hfree _ hmem.1)
        · exact (hH.ne_none hij).2 (hfree' _ hmem.2)
    have hle : R ≤ fun k i j => R k i j ∨ N k i j := fun _ _ _ => .inl
    have hslots : Forall₂ (fun i j => R .slot i j ∨ N .slot i j) r.slots r'.slots :=
      forall₂_iff_zip.2 ⟨hlen.trans hlen'.symm, fun h => .inr (.inr ⟨rfl, h⟩)⟩
    refine ⟨_, hle, unique.union hN happart, ⟨.inr (.inl ⟨rfl, rfl, rfl⟩), hslots⟩,
      hH.write hle ?_⟩
    rintro k i j (hij | ⟨rfl, rfl, rfl⟩ | ⟨rfl, h⟩)
    · have hne := hH.ne_none hij
      refine .inl ⟨hij, lookup_of_fresh ?_ hne.1, lookup_of_fresh ?_ hne.2⟩
      · simpa [writes, hid] using hfree
      · simpa [writes, hid'] using hfree'
    · exact .inr ⟨_, _, lookup_cons_self, lookup_cons_self,
        .scope fun name => lookup_zip_like hslots vars name⟩
    · have hmem := of_mem_zip h
      refine .inr ⟨.slot Option.none, .slot Option.none, ?_, ?_, .slot .none⟩
      · rw [writes, Space.lookup_cons_of_ne (by simp)]
        exact lookup_slots hmem.1 _
      · rw [writes, Space.lookup_cons_of_ne (by simp)]
        exact lookup_slots hmem.2 _
  | put same each =>
    exact ⟨R, le_rfl, unique, trivial, hH.write_at unique same (.layer each)⟩
  | fill same hv =>
    exact ⟨R, le_rfl, unique, trivial, hH.write_at unique same (.slot (.some hv))⟩
  | @read i j same =>
    refine ⟨R, le_rfl, unique, ?_, by simpa [writes] using hH⟩
    obtain ⟨c, c', hc, hc', hlike⟩ := hH.at_related same
    rw [allowed] at hc
    rw [allowed'] at hc'
    cases hc
    cases hc'
    cases hlike with
    | slot each =>
      cases each with
      | some hv => exact hv
  | lost => exact allowed.elim

end Effect

end Troupe
