import Troupe.Proofs.Matching

/-!
The equality of values is structural.

Values are compared along their tails, and parts that are one and the same object are not looked
into. `Value.Laid` is a value as it lies in memory, with an address for every pair; `Laid.walk` is
the comparison that ends where two addresses are one. However two values lie there, it comes to the
plain recursion `Value.same`, because equality is reflexive: cells with one address hold one value.

* `Value.equality_structural`: this, and that equal values can stand for each other.
-/

namespace Troupe

namespace Value

/-! ### Structure -/

/-- Plain recursion on both values; what carries code is compared by where it stands. -/
def same : Value → Value → Bool
  | undefined, undefined => true
  | nil, nil => true
  | bool a, bool b => a == b
  | number a, number b => a == b
  | symbol a, symbol b => a == b
  | pair a b, pair c d => a.same c && b.same d
  | actor a, actor b => a == b
  | closure a, closure b => a == b
  | native a, native b => a == b
  | block a, block b => a == b
  | _, _ => false

lemma same_self (v : Value) : v.same v = true := by
  induction v <;> simp_all [same]

lemma beq_eq_same (v w : Value) : (v == w) = v.same w := by
  rw [Bool.eq_iff_iff, beq_iff_eq]
  constructor
  · rintro rfl
    exact same_self v
  · intro h
    fun_induction same v w <;> simp_all

/-! ### Memory -/

/-- A value in memory: pairs are cells with an address. -/
inductive Laid where
  | atom (v : Value)
  | cell (address : Nat) (head tail : Laid)

namespace Laid

variable {memory : Nat → Value} {l m : Laid}

/-- The value that lies there. -/
def value : Laid → Value
  | atom v => v
  | cell _ head tail => .pair head.value tail.value

/-- Every cell holds the pair that the memory has under its address. -/
def In (memory : Nat → Value) : Laid → Prop
  | atom v => v.isPair = false
  | cell address head tail =>
    memory address = .pair head.value tail.value ∧ head.In memory ∧ tail.In memory

/-- Compares along the tails, head first, up to a cell that is one and the same. -/
def walk : Laid → Laid → Bool
  | cell a head tail, cell b head' tail' => a == b || (head.walk head' && tail.walk tail')
  | atom v, atom w => v.same w
  | _, _ => false

lemma walk_eq_same (hl : l.In memory) (hm : m.In memory) : l.walk m = l.value.same m.value := by
  induction l generalizing m with
  | atom v =>
    cases m with
    | atom w => rfl
    | cell => cases v <;> first | rfl | cases hl
  | cell a head tail ihhead ihtail =>
    cases m with
    | atom w => cases w <;> first | rfl | cases hm
    | cell b head' tail' =>
      rw [walk, ihhead hl.2.1 hm.2.1, ihtail hl.2.2 hm.2.2]
      by_cases hab : a = b
      · -- the walk ends here, and would have found equal heads and tails
        subst hab
        obtain ⟨hhead, htail⟩ := pair.inj (hl.1.symm.trans hm.1)
        simp [value, hhead, htail, same_self]
      · simp [value, same, hab]

end Laid

end Value

/-! ### Equal values for each other -/

lemma Heap.fill_fill {h : Heap} {slot : Nat} {v : Value} (bound : (h.fill slot v).1 = true) :
    (h.fill slot v).2.2.fill slot v = (true, [], (h.fill slot v).2.2) := by
  cases hs : h.slots[slot]? with
  | none => simp [fill, hs] at bound
  | some x =>
    cases x with
    | bound w => simpa [fill, hs] using bound
    | unbound ws =>
      simp only [fill, hs]
      rw [Array.getElem?_setIfInBounds_self_of_lt (Array.getElem?_eq_some_iff.1 hs).1]
      simp

/-- What was bound is bound again without a change. -/
lemma Heap.bind_bind {h : Heap} {name : String} {v : Value} {env : Env}
    (bound : (h.bind name v env).1 = true) :
    (h.bind name v env).2.2.bind name v env = (true, [], (h.bind name v env).2.2) := by
  induction env with
  | empty | global => cases bound
  | actor stamp id next ih => exact ih bound
  | dynamic layer base _ =>
    cases hw : (h.layer layer).lookup name with
    | some w => simpa [bind, hw] using bound
    | none =>
      have hfirst : h.bind name v (.dynamic layer base) =
        (true, [], { h with layers := h.layers.modify layer ((name, v) :: ·) }) := by
          simp [bind, hw]
      rw [hfirst, bind]
      cases hi : h.layers[layer]? with
      | some σ => simp [Heap.layer, Array.getElem?_modify, hi]
      | none =>
        -- such a layer does not exist, and nothing is written
        have hmodify : h.layers.modify layer ((name, v) :: ·) = h.layers := by
          refine Array.ext_getElem? fun j => ?_
          by_cases hj : layer = j <;> simp_all [Array.getElem?_modify]
        simp only [hmodify, hw]
  | block scope captured caller ih _ =>
    cases hslot : (h.scope scope).lookup name with
    | some slot =>
      have hscope : (h.fill slot v).2.2.scope = h.scope := by
        funext i
        simp only [fill]
        split <;> rfl
      simp only [bind, hslot] at bound ⊢
      simp only [hscope, hslot, fill_fill bound]
    | none =>
      have hscope : (h.bind name v captured).2.2.scope scope = h.scope scope := by
        rw [Heap.scope, (h.bind_shape name v captured).2, Heap.scope]
      simp only [bind, hslot] at bound ⊢
      simp only [hscope, hslot, ih bound]

/-- Matching a pattern without expressions comes to an end. -/
lemma Pattern.exists_fits (now : Millis) (env : Env) : ∀ {p : Pattern}, p.bare = true →
    ∀ (v : Value) (h : Heap), ∃ x, p.fits now env v h = some x
  | .any, _, _, _ | .ident _, _, _, _ | .const _, _, _, _ | .self, _, _, _ => ⟨_, rfl⟩
  | .pair head tail, hp, v, h => by
    simp only [bare, Bool.and_eq_true] at hp
    cases v with
    | pair a b =>
      obtain ⟨⟨ok, h'⟩, hhead⟩ := exists_fits now env hp.1 a h
      rw [fits, hhead]
      cases ok with
      | false => exact ⟨_, rfl⟩
      | true => exact exists_fits now env hp.2 b h'
    | _ => exact ⟨_, rfl⟩

/-- A task that matches a pattern without expressions answers. -/
lemma Task.exists_matching {p : Pattern} (bare : p.bare = true) (v : Value) (s : Store)
    (actor : ActorId) (muted : Bool) (transaction : Nat) (now : Millis) (here : Place) :
    let task := matching s actor muted transaction now here p v
    ∃ (ok : Bool) (t' : Task .verdict) (s' : Store) (bound : Nat),
      (∀ fuel ≥ bound, task.1.advance fuel task.2 = some (t', s')) ∧ t'.answer? = some ok := by
  obtain ⟨t', s', n, hn, hresult⟩ := exists_plain_answer s actor muted transaction now
    (.fit p v here) ⟨Pattern.plain_of_bare bare, rfl⟩
  obtain ⟨x, hx⟩ := Pattern.exists_fits now here.env bare v s.heap.still
  obtain ⟨ok, hanswer, -⟩ := Option.map_eq_some_iff.1 (hresult.symm.trans hx)
  exact ⟨ok, t', s', n, hn, hanswer⟩

/-- **Value equality is structural.** However two values lie in memory, the walk that ends at shared
cells answers as equality does, and equality is plain recursion; it is an equivalence. Equal values
can stand for each other: matching either with a pattern without expressions answers the same and
leaves the same bindings, and where one was bound to a name, binding the other to it succeeds and
changes nothing. -/
theorem Value.equality_structural :
    (∀ memory (l m : Laid), l.In memory → m.In memory → l.walk m = (l.value == m.value)) ∧
    (∀ v w : Value, (v == w) = v.same w) ∧
    (∀ v : Value, v == v) ∧ (∀ v w : Value, (v == w) = (w == v)) ∧
    (∀ u v w : Value, u == v → v == w → u == w) ∧
    ∀ v w : Value, v == w →
      (∀ p : Pattern, p.bare = true → ∀ s actor muted transaction now here,
        let task := Task.matching s actor muted transaction now here p
        ∃ (ok : Bool) (t t' : Task .verdict) (s₁ s₂ : Store) (bound : Nat),
          (∀ fuel ≥ bound, (task v).1.advance fuel (task v).2 = some (t, s₁)) ∧
          (∀ fuel ≥ bound, (task w).1.advance fuel (task w).2 = some (t', s₂)) ∧
          t.answer? = some ok ∧ t'.answer? = some ok ∧ s₁.heap = s₂.heap) ∧
      ∀ (h : Heap) name env, (h.bind name v env).1 = true →
        (h.bind name v env).2.2.bind name w env = (true, [], (h.bind name v env).2.2) := by
  refine ⟨fun memory l m hl hm => ?_, beq_eq_same, fun v => beq_self_eq_true v, fun v w => ?_,
    fun u v w huv hvw => ?_, fun v w hvw => ?_⟩
  · rw [Laid.walk_eq_same hl hm, beq_eq_same]
  · rw [Bool.eq_iff_iff, beq_iff_eq, beq_iff_eq, eq_comm]
  · rw [eq_of_beq huv]
    exact hvw
  · obtain rfl := eq_of_beq hvw
    refine ⟨fun p bare s actor muted transaction now here => ?_, fun h name env => Heap.bind_bind⟩
    obtain ⟨ok, t, s', bound, hrun, hanswer⟩ :=
      Task.exists_matching bare v s actor muted transaction now here
    exact ⟨ok, t, t, s', s', bound, hrun, hrun, hanswer, hanswer, rfl⟩

/-- A list of two numbers whose last cell has the address 0. -/
def Value.branch (address : Nat) (first : Int64) : Laid :=
  .cell address (.atom (.number first)) (.cell 0 (.atom (.number 2)) (.atom .nil))

/-- Lists that share their last cell: two that are equal and one that differs in its first cell. -/
theorem Value.branches_compared : ∃ memory, (branch 1 7).In memory ∧ (branch 2 7).In memory ∧
    (branch 3 8).In memory ∧ (branch 1 7).walk (branch 2 7) = true ∧
    (branch 1 7).walk (branch 3 8) = false := by
  let memory : Nat → Value
    | 0 => .pair (.number 2) .nil
    | 3 => .pair (.number 8) (.pair (.number 2) .nil)
    | _ => .pair (.number 7) (.pair (.number 2) .nil)
  have h1 : (branch 1 7).In memory := ⟨rfl, rfl, rfl, rfl, rfl⟩
  have h2 : (branch 2 7).In memory := ⟨rfl, rfl, rfl, rfl, rfl⟩
  have h3 : (branch 3 8).In memory := ⟨rfl, rfl, rfl, rfl, rfl⟩
  refine ⟨memory, h1, h2, h3, ?_, ?_⟩
  · rw [equality_structural.1 memory _ _ h1 h2]
    decide
  · rw [equality_structural.1 memory _ _ h1 h3]
    decide

end Troupe
