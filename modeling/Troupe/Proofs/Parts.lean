import Mathlib.Data.Set.Basic
import Mathlib.Logic.Relation
import Troupe.Proofs.Shelter

/-!
What can be reached from a value.

Values, environments and code mention frames, other code and actors, by their numbers (`Part`). What
stands in the heap mentions further parts (`Heap.parts`), and so on: `Heap.reach` is all that can be
reached in this way. A set of parts is closed if it holds all that can be reached from it
(`Heap.Closed`).

* `Heap.Closed.reach_subset`: closed sets hold what can be reached.
* `Heap.Closed.lookup`, `Heap.Closed.call`: look-ups and native functions stay inside of a closed
  set.
* `Heap.Evolves`: a change of the heap that leaves some parts alone and mentions only certain
  others. Closed sets stay closed (`Heap.Closed.keep`, `Heap.Closed.grow`).
-/

namespace Troupe

open Array List Nat Option Set Value

variable {i : Nat} {v : Value} {name : String} {env : Env}

/-- What can be mentioned: frames, the variables of blocks, code, and actors. -/
inductive Part where
  | layer (i : Nat)
  | scope (i : Nat)
  | slot (i : Nat)
  | dict (i : Nat)
  | closure (i : Nat)
  | block (i : Nat)
  | native (i : Nat)
  | actor (id : ActorId)

/-! ### What is mentioned -/

/-- The parts that a value mentions. -/
def Value.parts : Value → Set Part
  | .pair h t => h.parts ∪ t.parts
  | .actor id => {.actor id}
  | .closure i => {.closure i}
  | .native f => {.native f.index}
  | .block i => {.block i}
  | _ => ∅

/-- The parts that a send mentions. -/
def PendingSend.parts (x : PendingSend) : Set Part := insert (.actor x.target) x.message.parts

/-- The parts that an environment mentions. -/
def Env.parts : Env → Set Part
  | .empty => ∅
  | .dynamic i base => insert (.layer i) base.parts
  | .block i captured caller => insert (.scope i) (captured.parts ∪ caller.parts)
  | .actor _ id next => insert (.actor id) next.parts
  | .global i next => insert (.dict i) next.parts

mutual

/-- The parts that the constants of a pattern mention. -/
def Pattern.parts : Pattern → Set Part
  | .const v => v.parts
  | .value e => e.parts
  | .pair h t => h.parts ∪ t.parts
  | .any | .ident _ | .self => ∅

/-- The parts that the constants of an expression mention. -/
def Expr.parts : Expr → Set Part
  | .const v => v.parts
  | .lambda param body => param.parts ∪ body.parts
  | .apply function argument => function.parts ∪ argument.parts
  | .pair head tail => head.parts ∪ tail.parts
  | .choose subject arms => subject.parts ∪ arms.parts
  | .cond left right yes no => left.parts ∪ right.parts ∪ (yes.parts ∪ no.parts)
  | .block _ body => body.parts
  | .new behavior => behavior.parts
  | .ident _ | .now | .self => ∅

/-- The parts that the constants of arms mention. -/
def Arms.parts : Arms → Set Part
  | .nil => ∅
  | .cons p body rest => p.parts ∪ body.parts ∪ rest.parts

/-- The parts that the constants of a statement mention. -/
def Stmt.parts : Stmt → Set Part
  | .empty => ∅
  | .seq first second => first.parts ∪ second.parts
  | .define p e => p.parts ∪ e.parts
  | .equate left right => left.parts ∪ right.parts
  | .send message target => message.parts ∪ target.parts
  | .after delay message target => delay.parts ∪ (message.parts ∪ target.parts)
  | .create _ behavior => behavior.parts
  | .become behavior => behavior.parts
  | .throw exception => exception.parts
  | .expr e => e.parts

end

/-- The parts that a function mentions. -/
def Closure.parts (c : Closure) : Set Part := c.param.parts ∪ c.body.parts ∪ c.env.parts

/-- The parts that a block mentions. -/
def Block.parts (b : Block) : Set Part := b.body.parts ∪ b.env.parts

/-- The parts that a native function mentions. -/
def Native.parts : Native → Set Part
  | .map key value rest => key.parts ∪ value.parts ∪ rest.parts
  | .host _ held => held.parts
  | _ => ∅

namespace Heap

/-- The parts that a part mentions. Actors mention nothing in the heap. -/
def parts (h : Heap) : Part → Set Part
  | .layer i => {p | ∃ x ∈ h.layer i, p ∈ x.2.parts}
  | .scope i => {p | ∃ x ∈ h.scope i, p = .slot x.2}
  | .slot i => {p | ∃ v, h.slot? i = some v ∧ p ∈ v.parts}
  | .dict i => {p | ∃ x ∈ h.dict i, p ∈ x.2.parts}
  | .closure i => {p | ∃ c, h.closures[i]? = some c ∧ p ∈ c.parts}
  | .block i => {p | ∃ b, h.blocks[i]? = some b ∧ p ∈ b.parts}
  | .native i => {p | ∃ f, h.natives[i]? = some f ∧ p ∈ f.parts}
  | .actor _ => ∅

/-- The part is there. Actors are not in the heap. -/
def Has (h : Heap) : Part → Prop
  | .layer i => i < h.layers.size
  | .scope i => i < h.scopes.size
  | .slot i => i < h.slots.size
  | .dict i => i < h.dicts.size
  | .closure i => i < h.closures.size
  | .block i => i < h.blocks.size
  | .native i => i < h.natives.size
  | .actor _ => True

/-- All that can be reached from some parts. -/
def reach (h : Heap) (S : Set Part) : Set Part :=
  {p | ∃ q ∈ S, Relation.ReflTransGen (fun q p => p ∈ h.parts q) q p}

/-- The parts are there, and mention no others. -/
def Closed (h : Heap) (R : Set Part) : Prop := ∀ p ∈ R, h.Has p ∧ h.parts p ⊆ R

variable {h h1 h' : Heap} {R R' S K V V' : Set Part}

lemma subset_reach (h : Heap) (S : Set Part) : S ⊆ h.reach S := fun p hp => ⟨p, hp, .refl⟩

lemma parts_subset_reach {p : Part} (hp : p ∈ h.reach S) : h.parts p ⊆ h.reach S := by
  obtain ⟨q, hq, hreach⟩ := hp
  exact fun r hr => ⟨q, hq, hreach.tail hr⟩

namespace Closed

lemma union (hR : h.Closed R) (hR' : h.Closed R') : h.Closed (R ∪ R') := by
  rintro p (hp | hp)
  · exact ⟨(hR p hp).1, (hR p hp).2.trans subset_union_left⟩
  · exact ⟨(hR' p hp).1, (hR' p hp).2.trans subset_union_right⟩

lemma parts_subset (hR : h.Closed R) {p : Part} (hp : p ∈ R) : h.parts p ⊆ R := (hR p hp).2

/-- Closed sets hold what can be reached. -/
theorem reach_subset (hR : h.Closed R) (hS : S ⊆ R) : h.reach S ⊆ R := by
  rintro p ⟨q, hq, hreach⟩
  induction hreach with
  | refl => exact hS hq
  | tail _ last ih => exact hR.parts_subset ih last

/-- What can be reached in a closed set is closed. -/
lemma reach (hR : h.Closed R) (hS : S ⊆ R) : h.Closed (h.reach S) :=
  fun p hp => ⟨(hR p (hR.reach_subset hS hp)).1, parts_subset_reach hp⟩

/-- Actors are not in the heap. -/
lemma actors (hR : h.Closed R) {A : Set Part} (hA : ∀ p ∈ A, ∃ id, p = .actor id) :
    h.Closed (R ∪ A) := by
  refine hR.union fun p hp => ?_
  obtain ⟨id, rfl⟩ := hA p hp
  exact ⟨trivial, empty_subset _⟩

end Closed

/-! ### Reading -/

/-- The parts that the answer to a look-up mentions. -/
def Found.parts : Found → Set Part
  | value v => v.parts
  | unbound slot => {.slot slot}

lemma mem_of_lookup_eq_some {α : Type} {l : List (String × α)} {x : α}
    (hx : l.lookup name = some x) : (name, x) ∈ l := by
  obtain ⟨l1, l2, rfl, _⟩ := lookup_eq_some_iff.1 hx
  simp

/-- What is found from inside of a closed set is inside. -/
theorem Closed.lookup (hR : h.Closed R) (name : String) (henv : env.parts ⊆ R) :
    (h.lookup name env).parts ⊆ R := by
  induction env with
  | empty => exact empty_subset R
  | dynamic i base ih | global i next ih =>
    rw [Env.parts, insert_subset_iff] at henv
    unfold Heap.lookup
    split
    · rename_i v hv
      exact fun p hp => hR.parts_subset henv.1 ⟨(name, v), mem_of_lookup_eq_some hv, hp⟩
    · exact ih henv.2
  | block i captured caller ih _ =>
    rw [Env.parts, insert_subset_iff, union_subset_iff] at henv
    unfold Heap.lookup
    split
    · rename_i slot hslot
      have hin : .slot slot ∈ R :=
        hR.parts_subset henv.1 ⟨(name, slot), mem_of_lookup_eq_some hslot, rfl⟩
      split
      · rename_i v hv
        exact fun p hp => hR.parts_subset hin ⟨v, hv, hp⟩
      · exact singleton_subset_iff.2 hin
    · exact ih henv.2.1
  | actor stamp id next ih => exact ih ((subset_insert ..).trans henv)

lemma Closed.lookup? (hR : h.Closed R) (henv : env.parts ⊆ R) (hv : h.lookup? name env = some v) :
    v.parts ⊆ R := by
  have hfound := hR.lookup name henv
  unfold Heap.lookup? at hv
  split at hv
  · rename_i w hw
    cases hv
    rwa [hw] at hfound
  · cases hv

lemma Closed.closure (hR : h.Closed R) {i : Nat} (hi : .closure i ∈ R) {c : Closure}
    (hc : h.closures[i]? = some c) : c.parts ⊆ R :=
  fun _ hp => hR.parts_subset hi ⟨c, hc, hp⟩

lemma Closed.native (hR : h.Closed R) {i : Nat} (hi : .native i ∈ R) {f : Native}
    (hf : h.natives[i]? = some f) : f.parts ⊆ R :=
  fun _ hp => hR.parts_subset hi ⟨f, hf, hp⟩

lemma Closed.block? (hR : h.Closed R) (hv : v.parts ⊆ R) {b : Block} (hb : h.block? v = some b) :
    b.parts ⊆ R := by
  cases v with
  | block i => exact fun _ hp => hR.parts_subset (hv rfl) ⟨b, hb, hp⟩
  | _ => cases hb

end Heap

/-- The actor that `SELF` is stands in the environment. -/
lemma Env.self?_parts (env : Env) : (ofActor? env.self?).parts ⊆ env.parts := by
  induction env with
  | empty => exact empty_subset _
  | dynamic i base ih | global i next ih => exact ih.trans (subset_insert ..)
  | block i captured caller _ ih =>
    exact (ih.trans subset_union_right).trans (subset_insert ..)
  | actor stamp id next _ => exact singleton_subset_iff.2 (mem_insert ..)

/-- Functions of the host make up no parts. -/
lemma HostFunction.parts_apply (f : HostFunction) (v : Value) : (f.apply v).parts ⊆ v.parts := by
  have hmentions : ∀ v : Value, v.parts = {p | ∃ w ∈ v.mentions, p ∈ w.parts} := by
    intro v
    induction v with
    | pair h t ihh iht =>
      ext p
      simp [parts, mentions, ihh, iht, or_and_right, exists_or]
    | _ => simp [parts, mentions]
  rw [hmentions, hmentions v]
  rintro p ⟨w, hw, hp⟩
  exact ⟨w, f.closed v hw, hp⟩

/-- Functions that only compute answer with data. -/
lemma Operation.parts_apply (o : Operation) (v : Value) : (o.apply v).parts = ∅ := by
  have hmap : ∀ {α : Type} {f : α → Value} {x : Option α} {w : Value},
      (∀ y, (f y).parts = ∅) → x.map f = some w → w.parts = ∅ := by
    intro α f x w hf hw
    obtain ⟨y, _, rfl⟩ := map_eq_some_iff.1 hw
    exact hf y
  have harith : ∀ {f : Int64 → Int64 → Option Int64} {v w : Value},
      arithmetic f v = some w → w.parts = ∅ := by
    intro f v w hw
    unfold arithmetic at hw
    split at hw
    · exact hmap (fun _ => rfl) hw
    · cases hw
  have hanswer : ∀ w, o.answer? v = some w → w.parts = ∅ := by
    intro w hw
    unfold answer? at hw
    split at hw
    · exact harith hw
    · exact harith hw
    · exact harith hw
    · exact harith hw
    · exact hmap (fun _ => rfl) hw
    · cases hw
      rfl
    · obtain ⟨o, _, ho⟩ := bind_eq_some_iff.1 hw
      exact hmap (fun _ => rfl) ho
    · exact hmap (fun _ => rfl) hw
    · exact hmap (fun _ => rfl) hw
    · exact hmap (fun _ => rfl) hw
    · exact hmap (fun _ => rfl) hw
    · cases hw
      rfl
    · split at hw <;> cases hw <;> rfl
    · split at hw <;> cases hw <;> rfl
    · exact hmap (fun _ => rfl) hw
    · exact hmap (fun _ => rfl) hw
    · exact hmap (fun _ => rfl) hw
    · cases hw
  rw [apply]
  cases hw : o.answer? v with
  | none => rfl
  | some w => exact hanswer w hw

/-! ### Changing the heap -/

namespace Heap

variable {h h1 h' : Heap} {R S K K' V V' : Set Part}

/-- The parts that are new. -/
def fresh (h h' : Heap) : Set Part := {p | h'.Has p ∧ ¬ h.Has p}

/-- The heap changes: the parts in `K` are left alone, and all that is added mentions parts in `V`
only. -/
structure Evolves (K V : Set Part) (h h' : Heap) : Prop where
  has : ∀ p, h.Has p → h'.Has p
  kept : ∀ p ∈ K, h.Has p → h'.parts p = h.parts p
  rest : ∀ p, h'.parts p ⊆ h.parts p ∪ V

/-- What is not there mentions nothing. -/
lemma parts_of_not_has {p : Part} (hp : ¬ h.Has p) : h.parts p = ∅ := by
  cases p with
  | layer i => simp [parts, layer, Array.getElem?_eq_none (not_lt.1 hp)]
  | scope i => simp [parts, scope, Array.getElem?_eq_none (not_lt.1 hp)]
  | slot i => simp [parts, slot?, Array.getElem?_eq_none (not_lt.1 hp)]
  | dict i => simp [parts, dict, Array.getElem?_eq_none (not_lt.1 hp)]
  | closure i | block i | native i => simp [parts, Array.getElem?_eq_none (not_lt.1 hp)]
  | actor id => rfl

namespace Evolves

lemma mono (e : Evolves K V h h') (hK : K' ⊆ K) (hV : V ⊆ V') : Evolves K' V' h h' where
  has := e.has
  kept p hp := e.kept p (hK hp)
  rest p := (e.rest p).trans (union_subset_union_right _ hV)

lemma refl (K V : Set Part) (h : Heap) : Evolves K V h h where
  has _ hp := hp
  kept _ _ _ := rfl
  rest _ := subset_union_left

lemma trans (e1 : Evolves K V h h1) (e2 : Evolves K V h1 h') : Evolves K V h h' where
  has p hp := e2.has p (e1.has p hp)
  kept p hK hp := (e2.kept p hK (e1.has p hp)).trans (e1.kept p hK hp)
  rest p := (e2.rest p).trans (union_subset (e1.rest p) subset_union_right)

/-- What is new mentions parts in `V` only. -/
lemma new (e : Evolves K V h h') {p : Part} (hp : p ∈ h.fresh h') : h'.parts p ⊆ V := by
  have hrest := e.rest p
  rwa [parts_of_not_has hp.2, empty_union] at hrest

lemma fresh_subset (e2 : Evolves K V h1 h') : h.fresh h1 ⊆ h.fresh h' :=
  fun p hp => ⟨e2.has p hp.1, hp.2⟩

lemma fresh_trans (e1 : Evolves K V h h1) : h1.fresh h' ⊆ h.fresh h' :=
  fun p hp => ⟨hp.1, fun hhas => hp.2 (e1.has p hhas)⟩

end Evolves

namespace Closed

/-- A closed set that is left alone stays closed. -/
lemma keep (hR : h.Closed R) (e : Evolves K V h h') (hK : R ⊆ K) : h'.Closed R := by
  intro p hp
  obtain ⟨hhas, hparts⟩ := hR p hp
  refine ⟨e.has p hhas, ?_⟩
  rwa [e.kept p (hK hp) hhas]

/-- A closed set grows by what is new. -/
lemma grow (hR : h.Closed R) (e : Evolves K V h h') (hV : V ⊆ R ∪ S)
    (hS : ∀ p ∈ S, p ∈ h.fresh h' ∨ ∃ id, p = .actor id) : h'.Closed (R ∪ S) := by
  rintro p (hp | hp)
  · obtain ⟨hhas, hparts⟩ := hR p hp
    refine ⟨e.has p hhas, (e.rest p).trans (union_subset ?_ hV)⟩
    exact hparts.trans subset_union_left
  · rcases hS p hp with hfresh | ⟨id, rfl⟩
    · exact ⟨hfresh.1, (e.new hfresh).trans hV⟩
    · exact ⟨trivial, empty_subset _⟩

/-- What is written mentions a closed set only. -/
lemma stay (hR : h.Closed R) (e : Evolves K V h h') (hV : V ⊆ R) : h'.Closed R := by
  rw [← union_empty R]
  exact hR.grow e (hV.trans subset_union_left) fun _ hp => hp.elim

end Closed

/-! ### New frames and code -/

/-- The parts that an element of an array mentions; none if it is missing. -/
def mentions {α : Type} (sub : α → Set Part) (a : Array α) (i : Nat) : Set Part :=
  {p | ∃ x, a[i]? = some x ∧ p ∈ sub x}

/-- The elements in `K` are left alone, and all that is added mentions parts in `V` only. -/
structure Alters {α : Type} (sub : α → Set Part) (K : Nat → Prop) (V : Set Part) (a a' : Array α) :
    Prop where
  size : a.size ≤ a'.size
  kept : ∀ i < a.size, K i → a'[i]? = a[i]?
  rest : ∀ i, mentions sub a' i ⊆ mentions sub a i ∪ V

namespace Alters

variable {α : Type} {sub : α → Set Part} {K : Nat → Prop} {a : Array α}

lemma append {l : Array α} (hl : ∀ x ∈ l, sub x ⊆ V) : Alters sub K V a (a ++ l) where
  size := by simp
  kept i hi _ := getElem?_append_left hi
  rest i := by
    rintro p ⟨x, hx, hp⟩
    by_cases hi : i < a.size
    · rw [Array.getElem?_append_left hi] at hx
      exact .inl ⟨x, hx, hp⟩
    · rw [Array.getElem?_append_right (Nat.le_of_not_lt hi)] at hx
      exact .inr (hl x (Array.mem_of_getElem? hx) hp)

lemma refl : Alters sub K V a a := by
  simpa using append (l := #[]) (by simp)

lemma push {x : α} (hx : sub x ⊆ V) : Alters sub K V a (a.push x) := by
  rw [push_eq_append]
  exact append (by simpa using hx)

lemma modify {f : α → α} (hi : ¬ K i) (hf : ∀ x, sub (f x) ⊆ sub x ∪ V) :
    Alters sub K V a (a.modify i f) where
  size := by simp
  kept j _ hj := by
    have hne : i ≠ j := by
      rintro rfl
      exact hi hj
    rw [Array.getElem?_modify, if_neg hne]
  rest j := by
    rintro p ⟨x, hx, hp⟩
    rw [Array.getElem?_modify] at hx
    split at hx
    · obtain ⟨y, hy, rfl⟩ := map_eq_some_iff.1 hx
      exact (hf y hp).imp (⟨y, hy, ·⟩) id
    · exact .inl ⟨x, hx, hp⟩

lemma set {x : α} (hi : ¬ K i) (hx : sub x ⊆ V) : Alters sub K V a (a.setIfInBounds i x) := by
  have hset : a.setIfInBounds i x = a.modify i fun _ => x := by ext j <;> grind
  exact modify hi fun _ => hx.trans subset_union_right

end Alters

/-- The parts that the entries of a frame mention. -/
def entries {α : Type} (sub : α → Set Part) (b : List (String × α)) : Set Part :=
  {p | ∃ x ∈ b, p ∈ sub x.2}

/-- A change of the heap, array by array. -/
structure Changes (K V : Set Part) (h h' : Heap) : Prop where
  layers : Alters (entries Value.parts) (.layer · ∈ K) V h.layers h'.layers
  scopes : Alters (entries fun i => {.slot i}) (.scope · ∈ K) V h.scopes h'.scopes
  slots : Alters (fun s => {p | ∃ v, s = .bound v ∧ p ∈ v.parts}) (.slot · ∈ K) V h.slots h'.slots
  dicts : Alters (entries Value.parts) (.dict · ∈ K) V h.dicts h'.dicts
  closures : Alters Closure.parts (.closure · ∈ K) V h.closures h'.closures
  blocks : Alters Block.parts (.block · ∈ K) V h.blocks h'.blocks
  natives : Alters Native.parts (.native · ∈ K) V h.natives h'.natives

lemma Changes.refl (K V : Set Part) (h : Heap) : Changes K V h h :=
  ⟨.refl, .refl, .refl, .refl, .refl, .refl, .refl⟩

lemma Alters.frames {α : Type} {sub : α → Set Part} {K : Nat → Prop}
    {a a' : Array (List (String × α))}
    (c : Alters (entries sub) K V a a') (i : Nat) : {p | ∃ x ∈ (a'[i]?).getD [], p ∈ sub x.2} ⊆
      {p | ∃ x ∈ (a[i]?).getD [], p ∈ sub x.2} ∪ V := by
  have heq (a : Array (List (String × α))) :
      mentions (entries sub) a i = {p | ∃ x ∈ (a[i]?).getD [], p ∈ sub x.2} := by
    unfold mentions
    cases a[i]? <;> simp [entries]
  simpa only [heq] using c.rest i

lemma mentions_slots (h : Heap) (i : Nat) :
    mentions (fun s : Slot => {p | ∃ v, s = .bound v ∧ p ∈ v.parts}) h.slots i =
    h.parts (.slot i) := by
  simp only [mentions, parts, slot?]
  rcases h.slots[i]? with _ | (_ | _) <;> simp

lemma Changes.evolves (c : Changes K V h h') : Evolves K V h h' where
  has p hp := by
    cases p with
    | layer i => exact lt_of_lt_of_le hp c.layers.size
    | scope i => exact lt_of_lt_of_le hp c.scopes.size
    | slot i => exact lt_of_lt_of_le hp c.slots.size
    | dict i => exact lt_of_lt_of_le hp c.dicts.size
    | closure i => exact lt_of_lt_of_le hp c.closures.size
    | block i => exact lt_of_lt_of_le hp c.blocks.size
    | native i => exact lt_of_lt_of_le hp c.natives.size
    | actor id => trivial
  kept p hK hp := by
    cases p with
    | layer i => simp only [parts, layer, c.layers.kept i hp hK]
    | scope i => simp only [parts, scope, c.scopes.kept i hp hK]
    | slot i => simp only [parts, slot?, c.slots.kept i hp hK]
    | dict i => simp only [parts, dict, c.dicts.kept i hp hK]
    | closure i => simp only [parts, c.closures.kept i hp hK]
    | block i => simp only [parts, c.blocks.kept i hp hK]
    | native i => simp only [parts, c.natives.kept i hp hK]
    | actor id => rfl
  rest p := by
    cases p with
    | layer i => exact c.layers.frames i
    | scope i => exact c.scopes.frames i
    | slot i => simpa only [mentions_slots] using c.slots.rest i
    | dict i => exact c.dicts.frames i
    | closure i => exact c.closures.rest i
    | block i => exact c.blocks.rest i
    | native i => exact c.natives.rest i
    | actor id => exact empty_subset _

lemma Changes.scope_eq (c : Changes univ V h h') {i : Nat} (hi : i < h.scopes.size) :
    h'.scope i = h.scope i := by
  rw [scope, scope, c.scopes.kept i hi trivial]

lemma changes_newLayer (h : Heap) (base : Env) : Changes K V h (h.newLayer base).2 :=
  { Changes.refl K V h with layers := .push (by simp [entries]) }

/-- The variables of a new block are new. -/
lemma changes_newScope (h : Heap) (captured caller : Env) (vars : List String) :
    Changes K (h.fresh (h.newScope captured caller vars).2) h
    (h.newScope captured caller vars).2 := by
  have hsize : (h.newScope captured caller vars).2.slots.size = h.slots.size + vars.length := by
    simp [newScope]
  refine { Changes.refl K _ h with scopes := .push ?_, slots := .append fun s hs => ?_ }
  · rintro p ⟨x, hx, rfl⟩
    obtain ⟨hle, hlt, _⟩ := mem_zipIdx hx
    exact ⟨lt_of_lt_of_eq hlt hsize.symm, not_lt.2 hle⟩
  · rw [(mem_replicate.1 hs).2]
    rintro p ⟨v, hv, _⟩
    cases hv

lemma changes_newActor (h : Heap) (id : ActorId) (next : Env) : Changes K V h
    (h.newActor id next).2 :=
  { Changes.refl K V h with }

lemma changes_newGlobal (h : Heap) (next : Env) : Changes K V h (h.newGlobal next).2 :=
  { Changes.refl K V h with dicts := .push (by simp [entries]) }

lemma changes_newClosure (h : Heap) {c : Closure} (hc : c.parts ⊆ V) : Changes K V h
    (h.newClosure c).2 :=
  { Changes.refl K V h with closures := .push hc }

lemma changes_newBlock (h : Heap) {b : Block} (hb : b.parts ⊆ V) : Changes K V h (h.newBlock b).2 :=
  { Changes.refl K V h with blocks := .push hb }

lemma changes_newNative (h : Heap) {f : Native} (hf : f.parts ⊆ V) : Changes K V h
    (h.newNative f).2 :=
  { Changes.refl K V h with natives := .push hf }

lemma fresh_newNative (h : Heap) (f : Native) : .native h.natives.size ∈ h.fresh
    (h.newNative f).2 :=
  ⟨by simp [Has, newNative], lt_irrefl _⟩

lemma fresh_newBlock (h : Heap) (b : Block) : .block h.blocks.size ∈ h.fresh (h.newBlock b).2 :=
  ⟨by simp [Has, newBlock], lt_irrefl _⟩

/-- Applying a native function of a closed set: the answer is inside of the set, or new. -/
lemma Closed.call (hR : h.Closed R) {f : Native} (hf : f.parts ⊆ R) (hv : v.parts ⊆ R) :
    Changes K R h (h.call f v).2 ∧ (h.call f v).1.parts ⊆ R ∪ h.fresh (h.call f v).2 := by
  induction f with
  | operation o =>
    refine ⟨.refl K R h, ?_⟩
    rw [Heap.call, Operation.parts_apply]
    exact empty_subset _
  | mapBind =>
    unfold Heap.call mapBind
    split
    · simp only [Value.parts, union_subset_iff, singleton_subset_iff] at hv
      split
      · rename_i rest hrest
        refine ⟨changes_newNative h ?_, singleton_subset_iff.2 (.inr (h.fresh_newNative _))⟩
        exact union_subset (union_subset hv.2.1 hv.2.2) (hR.native hv.1 hrest)
      · exact ⟨.refl K R h, empty_subset _⟩
    · exact ⟨.refl K R h, empty_subset _⟩
  | map key value rest ih =>
    simp only [Native.parts, union_subset_iff] at hf
    unfold Heap.call
    split
    · exact ⟨.refl K R h, hf.1.2.trans subset_union_left⟩
    · exact ih hf.2
  | identity => exact ⟨.refl K R h, hv.trans subset_union_left⟩
  | host f held =>
    exact ⟨.refl K R h, ((f.parts_apply _).trans (union_subset hf hv)).trans subset_union_left⟩

/-! ### Binding -/

lemma has_park (h : Heap) (slot : Nat) (who : Waiter) (p : Part) :
    (h.park slot who).Has p ↔ h.Has p := by
  cases p with
  | slot i => exact iff_of_eq (congrArg (i < ·) size_modify)
  | _ => exact Iff.rfl

/-- Waiters are not mentioned. -/
lemma evolves_park (K V : Set Part) (h : Heap) (slot : Nat) (who : Waiter) :
    Evolves K V h (h.park slot who) := by
  have hparts : ∀ p, (h.park slot who).parts p = h.parts p := by
    rintro (_ | _ | i | _ | _ | _ | _ | _)
    case slot => simp only [parts, slot?_park]
    all_goals rfl
  exact ⟨fun p => (h.has_park slot who p).2, fun p _ _ => hparts p, fun p => by simp [hparts]⟩

lemma entries_cons_subset {α : Type} {sub : α → Set Part} {x : α} {b b' : List (String × α)}
    (hx : sub x ⊆ V) (hb : b' ⊆ b) : entries sub ((name, x) :: b') ⊆ entries sub b ∪ V := by
  rintro p ⟨y, hy, hp⟩
  rcases mem_cons.1 hy with rfl | hy
  · exact .inr (hx hp)
  · exact .inl ⟨y, hb hy, hp⟩

lemma changes_extend (h : Heap) (name : String) (hi : .layer i ∉ K) (hv : v.parts ⊆ V) :
    Changes K V h { h with layers := h.layers.modify i ((name, v) :: ·) } :=
  { Changes.refl K V h with
    layers := .modify hi fun b => entries_cons_subset hv (List.Subset.refl b) }

lemma changes_fill (h : Heap) (hi : .slot i ∉ K) (hv : v.parts ⊆ V) :
    Changes K V h { h with slots := h.slots.setIfInBounds i (.bound v) } := by
  refine { Changes.refl K V h with slots := .set hi ?_ }
  rintro p ⟨w, hw, hp⟩
  cases hw
  exact hv hp

/-- Binding a name changes a layer or a slot that can be seen from the environment. -/
lemma bind_visible (h : Heap) (name : String) (v : Value) (env : Env) :
    (h.bind name v env).2.2 = h ∨
      (∃ i, .layer i ∈ env.parts ∧
        (h.bind name v env).2.2 = { h with layers := h.layers.modify i ((name, v) :: ·) }) ∨
      ∃ sc slot, .scope sc ∈ env.parts ∧ (name, slot) ∈ h.scope sc ∧
        (h.bind name v env).2.2 = { h with slots := h.slots.setIfInBounds slot (.bound v) } := by
  induction env with
  | empty | global => exact .inl rfl
  | dynamic i base _ =>
    unfold bind
    split
    · exact .inl rfl
    · exact .inr (.inl ⟨i, mem_insert .., rfl⟩)
  | block sc captured caller ih _ =>
    unfold bind
    split
    · rename_i slot hslot
      unfold fill
      split
      · exact .inl rfl
      · exact .inr (.inr ⟨sc, slot, mem_insert .., mem_of_lookup_eq_some hslot, rfl⟩)
      · exact .inl rfl
    · have hsub : captured.parts ⊆ (Env.block sc captured caller).parts :=
        subset_union_left.trans (subset_insert ..)
      rcases ih with heq | ⟨i, hi, heq⟩ | ⟨sc', slot, hsc, hslot, heq⟩
      · exact .inl heq
      · exact .inr (.inl ⟨i, hsub hi, heq⟩)
      · exact .inr (.inr ⟨sc', slot, hsub hsc, hslot, heq⟩)
  | actor stamp id next ih =>
    have hsub : next.parts ⊆ (Env.actor stamp id next).parts := subset_insert ..
    rcases ih with heq | ⟨i, hi, heq⟩ | ⟨sc', slot, hsc, hslot, heq⟩
    · exact .inl heq
    · exact .inr (.inl ⟨i, hsub hi, heq⟩)
    · exact .inr (.inr ⟨sc', slot, hsub hsc, hslot, heq⟩)

/-- Binding a name of an environment inside of a closed set changes parts of the set only. -/
lemma Closed.evolves_bind (hR : h.Closed R) (henv : env.parts ⊆ R) (name : String)
    (hv : v.parts ⊆ V) : Evolves Rᶜ V h (h.bind name v env).2.2 := by
  rcases h.bind_visible name v env with heq | ⟨i, hi, heq⟩ | ⟨sc, slot, hsc, hslot, heq⟩
  · rw [heq]
    exact .refl ..
  · rw [heq]
    exact (changes_extend (K := Rᶜ) h name (fun hn => hn (henv hi)) hv).evolves
  · rw [heq]
    have hin := hR.parts_subset (henv hsc) ⟨_, hslot, rfl⟩
    exact (changes_fill (K := Rᶜ) h (fun hn => hn hin) hv).evolves

/-- Defining a name changes a dictionary that can be seen from the environment. -/
lemma evolves_define (h : Heap) (name : String) (henv : env.parts ⊆ R) (hv : v.parts ⊆ V) :
    Evolves Rᶜ V h (h.define name v env).2 := by
  induction env with
  | empty => exact .refl ..
  | dynamic i base ih | actor stamp id next ih => exact ih ((Set.subset_insert ..).trans henv)
  | block sc captured caller ih _ =>
    exact ih ((Set.subset_union_left.trans (Set.subset_insert ..)).trans henv)
  | global i next _ =>
    have hi : .dict i ∉ Rᶜ := fun hn => hn (henv (Set.mem_insert ..))
    have hdicts : Changes Rᶜ V h (h.define name v (.global i next)).2 :=
      { Changes.refl Rᶜ V h with
        dicts := .modify hi fun b => entries_cons_subset hv (List.eraseP_subset ..) }
    exact hdicts.evolves

/-- The parts that change when a name of the frame in front is bound. -/
def targets (h : Heap) : Env → Set Part
  | .dynamic i _ => {.layer i}
  | .block i _ _ => insert (.scope i) (h.parts (.scope i))
  | _ => ∅

/-- The frame in front takes a name. -/
lemma Takes.evolves_bind {old : Heap} (takes : h.Takes old name env)
    (apart : ∀ p ∈ h.targets env, p ∉ K) (hv : v.parts ⊆ V) :
    Evolves K V h (h.bind name v env).2.2 := by
  cases env with
  | dynamic i base =>
    unfold bind
    split
    · exact .refl ..
    · exact (changes_extend h name (apart _ rfl) hv).evolves
  | block sc captured caller =>
    obtain ⟨slot, hslot, _⟩ := takes
    simp only [bind, hslot]
    unfold fill
    split
    · exact .refl ..
    · exact (changes_fill h (apart _ (.inr ⟨_, mem_of_lookup_eq_some hslot, rfl⟩)) hv).evolves
    · exact .refl ..
  | empty | actor | global => exact takes.elim

end Heap

end Troupe
