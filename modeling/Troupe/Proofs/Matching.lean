import Troupe.Proofs.Shelter
import Troupe.Proofs.Unification

/-!
Matching decides what the instances of a pattern are, and unification finds a common instance.

A pattern without expressions (`Pattern.bare`) has a shape, and at the positions of its names a
value holds parts of its own (`Pattern.Shape`, `Pattern.positions`). A value is an instance of the
pattern under bindings if it has the shape and the names are bound to the parts at their positions
(`Pattern.Instance`).

Matching on a layer adds bindings to it. Among all bindings that extend the layer and make the value
an instance of the pattern, it finds the least ones, or there are none (`Pattern.Fitted`). Repeated
names need no care of their own: the second position is met by bindings that the first one has made.

Unification comes down to matching: one side stands for a value whatever is bound
(`Pattern.StandsFor`), or both sides are pairs and their parts are unified one after the other.

* `Pattern.fits_fitted`: what matching on a layer finds.
* `Pattern.matches_iff_instance`: a task that matches a pattern on a fresh layer.
* `Pattern.exists_unified`: what unification on a layer finds.
* `Pattern.unification_sound`: a task that unifies two patterns on a fresh layer.
-/

namespace Troupe

open List Store Troupe.Task

variable {h : Heap} {name x : String} {v w : Value} {head p tail : Pattern} {ok : Bool}
  {new σ : List (String × Value)} {me : Option ActorId}

/-! ### Instances -/

namespace Pattern

/-- No expression is evaluated. -/
def bare : Pattern → Bool
  | .value _ => false
  | .pair head tail => head.bare && tail.bare
  | _ => true

lemma plain_of_bare : ∀ {p : Pattern}, p.bare = true → p.plain = true
  | .pair head tail, h => by
    simp only [bare, Bool.and_eq_true] at h
    simp only [plain, Bool.and_eq_true]
    exact ⟨plain_of_bare h.1, plain_of_bare h.2⟩
  | .any, _ | .ident _, _ | .const _, _ | .self, _ => rfl

/-- The value has pairs where the pattern has them, and the constants of the pattern. -/
def Shape (me : Option ActorId) : Pattern → Value → Prop
  | .any, _ | .ident _, _ => True
  | .const c, v => v = c
  | .self, v => v = .ofActor? me
  | .pair head tail, .pair a b => head.Shape me a ∧ tail.Shape me b
  | _, _ => False

/-- The names of the pattern, each with the part of the value at its position. -/
def positions : Pattern → Value → List (String × Value)
  | .ident name, v => [(name, v)]
  | .pair head tail, .pair a b => head.positions a ++ tail.positions b
  | _, _ => []

/-- The value is what the pattern stands for under the bindings. -/
def Instance (me : Option ActorId) (bound : String → Option Value) (p : Pattern) (v : Value) :
    Prop :=
  p.Shape me v ∧ ∀ x w, (x, w) ∈ p.positions v → bound x = some w

section Instance

variable {bound bound' : String → Option Value}

@[simp] lemma instance_any : any.Instance me bound v := ⟨trivial, nofun⟩

@[simp] lemma instance_ident : (ident name).Instance me bound v ↔ bound name = some v := by
  simp [Instance, Shape, positions]

@[simp] lemma instance_const {c : Value} : (const c).Instance me bound v ↔ v = c := by
  simp [Instance, Shape, positions]

@[simp] lemma instance_self : Pattern.self.Instance me bound v ↔ v = .ofActor? me := by
  simp [Instance, Shape, positions]

@[simp] lemma instance_pair {a b : Value} : (pair head tail).Instance me bound (.pair a b) ↔
      head.Instance me bound a ∧ tail.Instance me bound b := by
  simp only [Instance, Shape, positions, mem_append, or_imp, forall_and]
  exact and_and_and_comm

/-- Only pairs are instances of pairs. -/
lemma exists_of_instance_pair (h : (pair head tail).Instance me bound v) :
    ∃ a b, v = .pair a b := by
  cases v with
  | pair a b => exact ⟨a, b, rfl⟩
  | _ => exact h.1.elim

/-- More bindings keep instances. -/
lemma Instance.mono (h : p.Instance me bound v) (le : ∀ x w, bound x = some w → bound' x = some w) :
    p.Instance me bound' v :=
  ⟨h.1, fun x w hx => le x w (h.2 x w hx)⟩

/-- A value with the shape of the pattern has a part for each of its names. -/
lemma exists_position : ∀ {p : Pattern} {v : Value}, p.Shape me v → ∀ {x : String},
    x ∈ p.declared → ∃ w, (x, w) ∈ p.positions v
  | .ident name, v, _, x, hx => by
    have heq : x = name := by simpa [declared, collectFrom, collect] using hx
    exact ⟨v, by simp [positions, heq]⟩
  | .pair head tail, .pair a b, h, x, hx => by
    rcases mem_declared_pair.1 hx with hx | hx
    · obtain ⟨w, hw⟩ := exists_position h.1 hx
      exact ⟨w, mem_append_left _ hw⟩
    · obtain ⟨w, hw⟩ := exists_position h.2 hx
      exact ⟨w, mem_append_right _ hw⟩

end Instance

/-! ### Matching on a layer -/

/-- New bindings of names that were not bound do not hide others. -/
lemma lookup_append_of_fresh (fresh : ∀ x w, (x, w) ∈ new → σ.lookup x = none)
    (found : σ.lookup x = some w) : (new ++ σ).lookup x = some w := by
  have hnew : new.lookup x = none := by
    rw [lookup_eq_none_iff]
    rintro ⟨y, w'⟩ hy
    rw [bne_iff_ne]
    rintro rfl
    exact absurd found (by simp [fresh x w' hy])
  rw [lookup_append, hnew, Option.none_or, found]

/-- What matching a pattern with a value comes to, on a layer with the bindings `σ`: the verdict,
and the bindings that are new. -/
structure Fitted (me : Option ActorId) (σ : List (String × Value)) (p : Pattern) (v : Value)
    (ok : Bool) (new : List (String × Value)) : Prop where
  /-- Names of the pattern are bound that were not. -/
  fresh : ∀ x w, (x, w) ∈ new → x ∈ p.declared ∧ σ.lookup x = none
  sound : ok = true → p.Instance me ((new ++ σ).lookup ·) v
  /-- All bindings that make the value an instance have these. -/
  least : ∀ bound : String → Option Value, (∀ x w, σ.lookup x = some w → bound x = some w) →
    p.Instance me bound v → ok = true ∧ ∀ x w, (new ++ σ).lookup x = some w → bound x = some w

namespace Fitted

/-- What was bound stays bound. -/
lemma keeps (h : Fitted me σ p v ok new) (found : σ.lookup x = some w) :
    (new ++ σ).lookup x = some w :=
  lookup_append_of_fresh (fun y w' hy => (h.fresh y w' hy).2) found

/-- Nothing is bound by comparing with a constant. -/
lemma constant {c : Value} (hp : ∀ bound v, p.Instance me bound v ↔ v = c) :
    Fitted me σ p v (c == v) [] where
  fresh := nofun
  sound h := (hp _ v).2 (eq_of_beq h).symm
  least _ le h := ⟨beq_iff_eq.2 ((hp _ v).1 h).symm, le⟩

/-- A name that is bound has to be bound to the value. -/
lemma bound (found : σ.lookup name = some w) : Fitted me σ (.ident name) v (w == v) [] where
  fresh := nofun
  sound h := by
    rw [instance_ident, nil_append, found, eq_of_beq h]
  least bound le h := by
    have hw := (le name w found).symm.trans (instance_ident.1 h)
    exact ⟨beq_iff_eq.2 (Option.some.inj hw), le⟩

lemma unbound (missing : σ.lookup name = none) : Fitted me σ (.ident name) v true [(name, v)] where
  fresh x w hx := by
    cases mem_singleton.1 hx
    exact ⟨by simp [declared, collectFrom, collect], missing⟩
  sound _ := by simp
  least bound le h := by
    refine ⟨rfl, fun x w hx => ?_⟩
    rw [singleton_append, lookup_cons] at hx
    split at hx
    · rename_i heq
      cases hx
      rw [eq_of_beq heq]
      exact instance_ident.1 h
    · exact le x w hx

lemma shapeless (h : ∀ a b, v ≠ .pair a b) : Fitted me σ (.pair head tail) v false [] where
  fresh := nofun
  sound := nofun
  least _ _ hv := by
    obtain ⟨a, b, rfl⟩ := exists_of_instance_pair hv
    exact absurd rfl (h a b)

variable {a b : Value} {new' : List (String × Value)}

lemma pair_of_head (first : Fitted me σ head a false new) :
    Fitted me σ (.pair head tail) (.pair a b) false new where
  fresh x w hx := ⟨mem_declared_pair.2 (.inl (first.fresh x w hx).1), (first.fresh x w hx).2⟩
  sound := nofun
  least bound le h := absurd (first.least bound le (instance_pair.1 h).1).1 Bool.false_ne_true

/-- The tails are matched with the bindings that the heads have made. -/
lemma pair_of_tail (first : Fitted me σ head a true new)
    (second : Fitted me (new ++ σ) tail b ok new') :
    Fitted me σ (.pair head tail) (.pair a b) ok (new' ++ new) where
  fresh x w hx := by
    rcases mem_append.1 hx with hx | hx
    · obtain ⟨hdeclared, hmissing⟩ := second.fresh x w hx
      rw [lookup_append, Option.or_eq_none_iff] at hmissing
      exact ⟨mem_declared_pair.2 (.inr hdeclared), hmissing.2⟩
    · exact ⟨mem_declared_pair.2 (.inl (first.fresh x w hx).1), (first.fresh x w hx).2⟩
  sound hok := by
    rw [append_assoc]
    refine instance_pair.2 ⟨(first.sound rfl).mono fun x w hx => ?_, second.sound hok⟩
    exact second.keeps hx
  least bound le h := by
    rw [append_assoc]
    obtain ⟨ha, hb⟩ := instance_pair.1 h
    exact second.least bound (first.least bound le ha).2 hb

end Fitted

/-- Bindings under which the value is an instance are all that is needed. -/
lemma Fitted.eq_nil (h : Fitted me σ p v ok new) (hv : p.Instance me (σ.lookup ·) v) :
    ok = true ∧ new = [] := by
  obtain ⟨hok, hleast⟩ := h.least (σ.lookup ·) (fun _ _ => id) hv
  refine ⟨hok, ?_⟩
  cases new with
  | nil => rfl
  | cons y new =>
    obtain ⟨x, w⟩ := y
    have hfound := hleast x w (by simp)
    rw [(h.fresh x w (mem_cons_self ..)).2] at hfound
    cases hfound

end Pattern

namespace Heap

/-- The heap in which a layer has the bindings `σ`. -/
def withLayer (h : Heap) (i : Nat) (σ : List (String × Value)) : Heap :=
  { h with layers := h.layers.setIfInBounds i σ }

variable {i : Nat}

lemma layer_withLayer (hi : i < h.layers.size) (σ : List (String × Value)) :
    (h.withLayer i σ).layer i = σ := by
  simp [layer, withLayer, hi]

/-- Binding a name in a layer. -/
lemma bind_withLayer (hi : i < h.layers.size) (σ : List (String × Value))
    (name : String) (v : Value) (base : Env) :
    (h.withLayer i σ).bind name v (.dynamic i base) =
      match σ.lookup name with
      | some w => (w == v, [], h.withLayer i σ)
      | none => (true, [], h.withLayer i ((name, v) :: σ)) := by
  rw [bind, layer_withLayer hi]
  cases σ.lookup name with
  | some w => rfl
  | none =>
    have hset : (h.layers.setIfInBounds i σ).modify i ((name, v) :: ·) =
        h.layers.setIfInBounds i ((name, v) :: σ) := by
      refine Array.ext_getElem? fun j => ?_
      rw [Array.getElem?_modify, Array.getElem?_setIfInBounds, Array.getElem?_setIfInBounds]
      by_cases hj : i = j <;> simp [hj]
    simp only [withLayer, hset]

end Heap

namespace Pattern

variable {now : Millis} {base : Env} {i : Nat}

variable (now base) in
/-- What matching on a layer finds. -/
theorem fits_fitted (hi : i < h.layers.size) : ∀ {p : Pattern}, p.bare = true →
    ∀ (v : Value) (σ : List (String × Value)), ∃ ok new,
      p.fits now (.dynamic i base) v (h.withLayer i σ) = some (ok, h.withLayer i (new ++ σ)) ∧
      Fitted base.self? σ p v ok new
  | .any, _, v, σ => ⟨true, [], rfl, nofun, fun _ => instance_any, fun _ le _ => ⟨rfl, le⟩⟩
  | .ident name, _, v, σ => by
    rw [fits, Heap.bind_withLayer hi]
    cases hfound : σ.lookup name with
    | some w => exact ⟨_, [], rfl, .bound hfound⟩
    | none => exact ⟨_, [(name, v)], rfl, .unbound hfound⟩
  | .const c, _, v, σ => ⟨_, [], rfl, .constant fun _ _ => instance_const⟩
  | .self, _, v, σ => ⟨_, [], rfl, .constant fun _ _ => instance_self⟩
  | .pair head tail, hp, v, σ => by
    simp only [bare, Bool.and_eq_true] at hp
    cases v with
    | pair a b =>
      obtain ⟨ok, new, hhead, first⟩ := fits_fitted hi hp.1 a σ
      rw [fits, hhead]
      cases ok with
      | false => exact ⟨false, new, rfl, first.pair_of_head⟩
      | true =>
        obtain ⟨ok, new', htail, second⟩ := fits_fitted hi hp.2 b (new ++ σ)
        refine ⟨ok, new' ++ new, ?_, first.pair_of_tail second⟩
        rwa [append_assoc]
    | _ => exact ⟨false, [], rfl, .shapeless (by simp)⟩

/-- Matching under bindings that suffice adds none. -/
lemma fits_of_instance (hi : i < h.layers.size) (hp : p.bare = true)
    (hv : p.Instance base.self? (σ.lookup ·) v) :
    p.fits now (.dynamic i base) v (h.withLayer i σ) = some (true, h.withLayer i σ) := by
  obtain ⟨ok, new, hfits, hfitted⟩ := fits_fitted now base hi hp v σ
  obtain ⟨rfl, rfl⟩ := hfitted.eq_nil hv
  exact hfits

/-- Matching on an empty layer succeeds if and only if the value has the shape of the pattern and
all positions of one name hold one value. -/
lemma Fitted.ok_iff (h : Fitted me [] p v ok new) : ok = true ↔ p.Shape me v ∧
      ∀ x w w', (x, w) ∈ p.positions v → (x, w') ∈ p.positions v → w = w' := by
  constructor
  · intro hok
    obtain ⟨hshape, hbound⟩ := h.sound hok
    refine ⟨hshape, fun x w w' hw hw' => ?_⟩
    exact Option.some.inj ((hbound x w hw).symm.trans (hbound x w' hw'))
  · rintro ⟨hshape, hagree⟩
    -- each name is bound to the part at its first position
    refine (h.least ((p.positions v).lookup ·) nofun ⟨hshape, fun x w hx => ?_⟩).1
    cases hfound : (p.positions v).lookup x with
    | none => exact absurd (lookup_eq_none_iff.1 hfound _ hx) (by simp)
    | some w' =>
      obtain ⟨_, _, hsplit, _⟩ := lookup_eq_some_iff.1 hfound
      exact hfound.trans (congrArg some (hagree x w' w (by simp [hsplit]) hx))

end Pattern

/-! ### A fresh layer -/

namespace Heap

variable (h : Heap) (base : Env)

lemma newLayer_eq_withLayer :
    (h.newLayer base).2.still = (h.newLayer base).2.still.withLayer h.layers.size [] := by
  have hset : (h.layers.push []).setIfInBounds h.layers.size [] = h.layers.push [] := by
    refine Array.ext_getElem? fun j => ?_
    rw [Array.getElem?_setIfInBounds]
    split
    · rename_i hj
      simp [← hj]
    · rfl
  simp only [withLayer, still, newLayer, hset]

lemma lt_size_newLayer : h.layers.size < (h.newLayer base).2.still.layers.size := by
  simp [newLayer, still]

/-- The bindings of a new layer. -/
lemma layer_of_still {h' : Heap}
    (same : h'.still = (h.newLayer base).2.still.withLayer h.layers.size σ) :
    h'.layer h.layers.size = σ :=
  (congrArg (·.layer h.layers.size) same).trans (layer_withLayer (h.lt_size_newLayer base) σ)

/-- A name that a new layer does not bind is looked up below it, with the answer that it had
before. -/
lemma lookup_layer_of_unbound {h' : Heap}
    (same : h'.still = (h.newLayer base).2.still.withLayer h.layers.size σ)
    (missing : σ.lookup x = none) : h'.lookup x (h.newLayer base).1 = h.lookup x base := by
  have hlayer : ∀ j, (h'.layer j).lookup x = (h.layer j).lookup x := by
    intro j
    by_cases hnew : h.layers.size = j
    · have hold : h.layer j = [] := by simp [layer, ← hnew]
      rw [hold, ← hnew, layer_of_still h base same, missing]
      rfl
    · have hj : h'.layer j = h'.still.layer j := rfl
      rw [hj, same]
      simp [layer, withLayer, still, newLayer, hnew, Array.getElem?_push, Ne.symm hnew]
  have hbelow : h'.lookup x base = h.lookup x base := by
    refine lookup_congr hlayer (fun j => congrArg (·.scope j) same) (fun j => ?_)
      (fun j => congrArg (·.dict j) same) base
    calc h'.slot? j = h'.still.slot? j := (h'.slot?_still j).symm
      _ = (h.newLayer base).2.still.slot? j := congrArg (·.slot? j) same
      _ = h.slot? j := (h.newLayer base).2.slot?_still j
  have hfirst : (h'.layer h.layers.size).lookup x = none := by
    rw [hlayer]
    simp [layer]
  rw [newLayer, lookup, hfirst, hbelow]

/-- A name that a new layer binds is found there. -/
lemma lookup_layer_of_bound {h' : Heap}
    (same : h'.still = (h.newLayer base).2.still.withLayer h.layers.size σ)
    (found : σ.lookup x = some w) : h'.lookup x (h.newLayer base).1 = .value w := by
  rw [newLayer, lookup, layer_of_still h base same, found]

end Heap

namespace Task

/-- A task that matches a pattern with a value. -/
def matching (s : Store) (actor : ActorId) (muted : Bool) (transaction : Nat) (now : Millis)
    (here : Place) (p : Pattern) (v : Value) : Task .verdict × Store :=
  spawn s actor muted transaction now (.start (.fit p v here))

end Task

/-- The store with a new layer on top of an environment. -/
def Store.layered (s : Store) (base : Env) : Store := { s with heap := (s.heap.newLayer base).2 }

/-- A plain job on a new layer over an environment answers what its meaning says. -/
lemma Job.exists_layered_answer {g : Goal} {r : g.Result} (job : Job g) (plain : job.flat.Plain)
    (s : Store) (base : Env) (actor : ActorId) (muted : Bool) (transaction : Nat) (now : Millis)
    (result : let h := (s.heap.newLayer base).2.still
      job.flat.result? now (h.withLayer s.heap.layers.size []) =
        some (r, h.withLayer s.heap.layers.size σ)) :
    let task := spawn (s.layered base) actor muted transaction now (.start job)
    ∃ (t' : Task g) (s' : Store) (bound : Nat),
      (∀ fuel ≥ bound, task.1.advance fuel task.2 = some (t', s')) ∧ t'.answer? = some r ∧
      s'.heap.still = (s.heap.newLayer base).2.still.withLayer s.heap.layers.size σ := by
  obtain ⟨t', s', n, hn, hresult⟩ :=
    exists_plain_answer (s.layered base) actor muted transaction now job plain
  dsimp only at result
  rw [← s.heap.newLayer_eq_withLayer base] at result
  obtain ⟨r', hanswer, hsame⟩ := Option.map_eq_some_iff.1 (hresult.symm.trans result)
  obtain ⟨rfl, hheap⟩ := Prod.mk.inj hsame
  exact ⟨t', s', n, hn, hanswer, hheap⟩

/-- Matching decides exactly the instances of a pattern. On a fresh layer over any environment a
task that matches a pattern with a value answers. It succeeds if and only if the shapes agree, with
the constants and with the current actor where the pattern has `SELF`, and all positions of one name
hold equal values. Then the names of the pattern are found with the values at their positions, and
all other names as in the environment below. -/
theorem Pattern.matches_iff_instance (p : Pattern) (bare : p.bare = true) (v : Value) (s : Store)
    (base : Env) (actor : ActorId) (muted : Bool) (transaction : Nat) (now : Millis) (depth : Nat) :
    let layer := (s.heap.newLayer base).1
    let task := matching (s.layered base) actor muted transaction now ⟨layer, depth⟩ p v
    ∃ (ok : Bool) (t' : Task .verdict) (s' : Store) (bound : Nat),
      (∀ fuel ≥ bound, task.1.advance fuel task.2 = some (t', s')) ∧ t'.answer? = some ok ∧
      (ok = true ↔ p.Shape base.self? v ∧
        ∀ x w w', (x, w) ∈ p.positions v → (x, w') ∈ p.positions v → w = w') ∧
      (ok = true →
        (∀ x ∈ p.declared, ∃ w, (x, w) ∈ p.positions v) ∧
        (∀ x w, (x, w) ∈ p.positions v → s'.heap.lookup x layer = .value w) ∧
        ∀ x, x ∉ p.declared → s'.heap.lookup x layer = s.heap.lookup x base) := by
  intro layer task
  have hi := s.heap.lt_size_newLayer base
  obtain ⟨ok, new, hfits, hfitted⟩ := fits_fitted now base hi bare v []
  obtain ⟨t', s', n, hn, hanswer, hheap⟩ := Job.exists_layered_answer (.fit p v ⟨layer, depth⟩)
    ⟨plain_of_bare bare, rfl⟩ s base actor muted transaction now hfits
  refine ⟨ok, t', s', n, hn, hanswer, hfitted.ok_iff, fun hok => ?_⟩
  obtain ⟨hshape, hbound⟩ := hfitted.sound hok
  refine ⟨fun x hx => exists_position hshape hx, fun x w hx => ?_, fun x hx => ?_⟩
  · exact s.heap.lookup_layer_of_bound base hheap (hbound x w hx)
  · refine s.heap.lookup_layer_of_unbound base hheap (lookup_eq_none_iff.2 ?_)
    rintro ⟨y, w⟩ hy
    rw [append_nil] at hy
    exact bne_iff_ne.2 fun heq => hx (heq ▸ (hfitted.fresh y w hy).1)

/-- A layer that binds `x` and `y`. -/
def Store.named : Store := { heap := { layers := #[[("x", .nil), ("y", .bool true)]] } }

/-- An actor whose names are those of the layer. -/
def Env.ofNamed : Env := .actor 0 ⟨7⟩ (.dynamic 0 .empty)

/-- A name twice, and behind it the current actor. -/
def Pattern.twiceThenSelf : Pattern := .pair (.ident "x") (.pair (.ident "x") .self)

/-- One value twice matches, and hides what the name is below; two values do not match. -/
theorem Pattern.matches_twiceThenSelf :
    let layer := (named.heap.newLayer .ofNamed).1
    let task := fun v => matching (named.layered .ofNamed) ⟨7⟩ false 0 0 ⟨layer, 31⟩
      twiceThenSelf v
    (∃ fuel t' s',
      let once := task (.tuple [.number 1, .number 1, .actor ⟨7⟩])
      once.1.advance fuel once.2 = some (t', s') ∧ t'.answer? = some true ∧
        s'.heap.lookup "x" layer = .value (.number 1) ∧
        s'.heap.lookup "y" layer = .value (.bool true)) ∧
    ∃ fuel t' s',
      let twice := task (.tuple [.number 1, .number 2, .actor ⟨7⟩])
      twice.1.advance fuel twice.2 = some (t', s') ∧ t'.answer? = some false := by
  intro layer task
  constructor
  · obtain ⟨ok, t', s', bound, hrun, hanswer, hiff, hfound⟩ :=
      twiceThenSelf.matches_iff_instance rfl
      (.tuple [.number 1, .number 1, .actor ⟨7⟩]) .named .ofNamed ⟨7⟩ false 0 0 31
    have hok : ok = true := by
      refine hiff.2 ⟨⟨trivial, trivial, rfl⟩, ?_⟩
      simp only [twiceThenSelf, Value.tuple, positions, mem_append, mem_singleton,
        not_mem_nil, or_false, or_self, Prod.mk.injEq]
      rintro x w w' ⟨_, rfl⟩ ⟨_, rfl⟩
      rfl
    obtain ⟨_, hnames, hothers⟩ := hfound hok
    refine ⟨bound, t', s', hrun _ le_rfl, hok ▸ hanswer, hnames "x" _ (mem_cons_self ..), ?_⟩
    exact (hothers "y" (by decide)).trans rfl
  · obtain ⟨ok, t', s', bound, hrun, hanswer, hiff, _⟩ := twiceThenSelf.matches_iff_instance rfl
      (.tuple [.number 1, .number 2, .actor ⟨7⟩]) .named .ofNamed ⟨7⟩ false 0 0 31
    have hok : ok = false := Bool.eq_false_iff.2 fun h =>
      absurd ((hiff.1 h).2 "x" (.number 1) (.number 2)
        (by simp [twiceThenSelf, Value.tuple, positions])
        (by simp [twiceThenSelf, Value.tuple, positions])) (by decide)
    exact ⟨bound, t', s', hrun _ le_rfl, hok ▸ hanswer⟩

/-! ### Unification on a layer -/

namespace Pattern

/-- The pattern stands for the value whatever is bound. -/
def StandsFor (me : Option ActorId) (p : Pattern) (v : Value) : Prop :=
  ∀ bound, p.Instance me bound v

variable {now : Millis} {base : Env} {i : Nat} {l r : Pattern}

variable (base i) in
/-- A pattern is a name or a pair, or stands for a value that no binding matters to. -/
lemma constant_bare (hp : p.bare = true) :
    ((∀ now h, p.constantValue? now (.dynamic i base) h = none) ∧
      (p.isName = true ∨ p.isPair = true)) ∨
      ∃ v, (∀ now h, p.constantValue? now (.dynamic i base) h = some (some v)) ∧
        p.StandsFor base.self? v := by
  cases p with
  | value e => cases hp
  | const c => exact .inr ⟨c, fun _ _ => rfl, fun _ => instance_const.2 rfl⟩
  | self => exact .inr ⟨_, fun _ _ => rfl, fun _ => instance_self.2 rfl⟩
  | any | ident => exact .inl ⟨fun _ _ => rfl, .inl rfl⟩
  | pair head tail => exact .inl ⟨fun _ _ => rfl, .inr rfl⟩

/-- What stands for a value means it, unless it is `?`. -/
lemma meaning_of_constant (constant : ∀ now h, p.constantValue? now (.dynamic i base)
    h = some (some v)) (stands : p.StandsFor base.self? v) :
    (∀ now h, p.meaning? now (.dynamic i base) h = some none) ∨
      ∃ v, (∀ now h, p.meaning? now (.dynamic i base) h = some (some v)) ∧
        p.StandsFor base.self? v := by
  have hmeaning : ∀ now h, p.meaning? now (.dynamic i base) h =
      some (if v.isUndefined then none else some v) := by
    intro now h
    have hconstant := constant now h
    cases p <;> simp_all [constantValue?, meaning?]
  cases hv : v.isUndefined with
  | true => exact .inl fun now h => by simp [hmeaning, hv]
  | false => exact .inr ⟨v, fun now h => by simp [hmeaning, hv], stands⟩

variable (base i) in
/-- A pattern means nothing, or stands for a value that no binding matters to. -/
lemma meaning_bare : ∀ {p : Pattern}, p.bare = true →
    (∀ now h, p.meaning? now (.dynamic i base) h = some none) ∨
      ∃ v, (∀ now h, p.meaning? now (.dynamic i base) h = some (some v)) ∧ p.StandsFor base.self? v
  | .any, _ | .ident _, _ => .inl fun _ _ => rfl
  | .const c, _ => meaning_of_constant (fun _ _ => rfl) fun _ => instance_const.2 rfl
  | .self, _ => meaning_of_constant (fun _ _ => rfl) fun _ => instance_self.2 rfl
  | .pair head tail, hp => by
    simp only [bare, Bool.and_eq_true] at hp
    rcases meaning_bare (p := tail) hp.2 with htail | ⟨b, htail, hb⟩ <;>
      rcases meaning_bare (p := head) hp.1 with hhead | ⟨a, hhead, ha⟩
    · exact .inl fun now h => by simp [meaning?, hhead, htail]
    · exact .inl fun now h => by simp [meaning?, hhead, htail]
    · exact .inl fun now h => by simp [meaning?, hhead, htail]
    · exact .inr ⟨.pair a b, fun now h => by simp [meaning?, hhead, htail],
        fun bound => instance_pair.2 ⟨ha bound, hb bound⟩⟩

/-- What unifying two patterns comes to, on a layer with the bindings `σ`: the verdict, and the
bindings that are new. -/
structure Unified (now : Millis) (base : Env) (h : Heap) (i : Nat) (σ : List (String × Value))
    (l r : Pattern) (ok : Bool) (new : List (String × Value)) : Prop where
  result : l.unifies now (.dynamic i base) r (h.withLayer i σ) = some (ok, h.withLayer i (new ++ σ))
  fresh : ∀ x w, (x, w) ∈ new → (x ∈ l.declared ∨ x ∈ r.declared) ∧ σ.lookup x = none
  sound : ok = true → ∃ v, l.Instance base.self? ((new ++ σ).lookup ·) v ∧
    r.Instance base.self? ((new ++ σ).lookup ·) v
  /-- Where all these bindings are made, the patterns unify without new ones. -/
  again : ok = true → ∀ now σ', (∀ x w, (new ++ σ).lookup x = some w → σ'.lookup x = some w) →
    l.unifies now (.dynamic i base) r (h.withLayer i σ') = some (true, h.withLayer i σ')

namespace Unified

variable {new' : List (String × Value)}

lemma comm (u : Unified now base h i σ l r ok new) : Unified now base h i σ r l ok new where
  result := (unifies_comm r l _).trans u.result
  fresh x w hx := (u.fresh x w hx).imp_left Or.symm
  sound hok := (u.sound hok).imp fun _ => And.symm
  again hok now σ' le := (unifies_comm r l _).trans (u.again hok now σ' le)

/-- Nothing concrete on either side. -/
lemma nothing (result : ∀ h, l.unifies now (.dynamic i base) r h = some (false, h)) :
    Unified now base h i σ l r false [] :=
  ⟨result _, nofun, nofun, nofun⟩

variable (now) in
/-- One side stands for a value, and the other is matched with it. -/
lemma exists_of_standsFor (hi : i < h.layers.size) (stands : l.StandsFor base.self? v)
    (hr : r.bare = true)
    (result : ∀ now h, l.unifies now (.dynamic i base) r h = r.fits now (.dynamic i base) v h)
    (σ : List (String × Value)) : ∃ ok new, Unified now base h i σ l r ok new := by
  obtain ⟨ok, new, hfits, hfitted⟩ := fits_fitted now base hi hr v σ
  refine ⟨ok, new, (result _ _).trans hfits, fun x w hx => ?_, fun hok => ?_,
    fun hok now σ' le => ?_⟩
  · exact (hfitted.fresh x w hx).imp_left .inr
  · exact ⟨v, stands _, hfitted.sound hok⟩
  · exact (result _ _).trans (fits_of_instance hi hr ((hfitted.sound hok).mono le))

/-- What was bound stays bound. -/
lemma keeps (u : Unified now base h i σ l r ok new) (found : σ.lookup x = some w) :
    (new ++ σ).lookup x = some w :=
  lookup_append_of_fresh (fun y w' hy => (u.fresh y w' hy).2) found

variable {lt rt : Pattern}

lemma pair_of_head (first : Unified now base h i σ l r false new) :
    Unified now base h i σ (.pair l lt) (.pair r rt) false new where
  result := by
    rw [unifies, first.result]
    rfl
  fresh x w hx := by
    obtain ⟨hdeclared, hmissing⟩ := first.fresh x w hx
    rw [mem_declared_pair, mem_declared_pair]
    exact ⟨hdeclared.imp .inl .inl, hmissing⟩
  sound := nofun
  again := nofun

/-- The tails are unified with the bindings that the heads have made. -/
lemma pair_of_tail (first : Unified now base h i σ l r true new)
    (second : Unified now base h i (new ++ σ) lt rt ok new') :
    Unified now base h i σ (.pair l lt) (.pair r rt) ok (new' ++ new) where
  result := by
    rw [unifies, first.result, append_assoc]
    exact second.result
  fresh x w hx := by
    rw [mem_declared_pair, mem_declared_pair]
    rcases mem_append.1 hx with hx | hx
    · obtain ⟨hdeclared, hmissing⟩ := second.fresh x w hx
      rw [lookup_append, Option.or_eq_none_iff] at hmissing
      exact ⟨hdeclared.imp .inr .inr, hmissing.2⟩
    · obtain ⟨hdeclared, hmissing⟩ := first.fresh x w hx
      exact ⟨hdeclared.imp .inl .inl, hmissing⟩
  sound hok := by
    obtain ⟨a, hla, hra⟩ := first.sound rfl
    obtain ⟨b, hlb, hrb⟩ := second.sound hok
    have le := fun x w (hx : (new ++ σ).lookup x = some w) => second.keeps hx
    rw [append_assoc]
    exact ⟨.pair a b, instance_pair.2 ⟨hla.mono le, hlb⟩, instance_pair.2 ⟨hra.mono le, hrb⟩⟩
  again hok now σ' le := by
    rw [append_assoc] at le
    rw [unifies, first.again rfl now σ' fun x w hx => le x w (second.keeps hx)]
    exact second.again hok now σ' le

end Unified

variable (now base) in
/-- Unification of a pair with a name: the pair has to mean a value. -/
lemma exists_unified_of_pair (hi : i < h.layers.size) (hl : l.bare = true) (hr : r.bare = true)
    (pair : l.isPair = true) (name : r.isName = true) (σ : List (String × Value)) :
    ∃ ok new, Unified now base h i σ l r ok new := by
  have hunifies : ∀ now h, l.unifies now (.dynamic i base) r h =
      (l.meaning? now (.dynamic i base) h).bind fun v? =>
        r.fitsMeaning now (.dynamic i base) v? h := by
    intro now h
    cases l <;> simp only [isPair, Bool.false_eq_true] at pair
    cases r <;> first | rfl | cases name
  rcases meaning_bare base i hl with hnone | ⟨v, hsome, stands⟩
  · exact ⟨false, [], .nothing fun h => by simp [hunifies, hnone, fitsMeaning]⟩
  · exact Unified.exists_of_standsFor now hi stands hr
      (fun now h => by simp [hunifies, hsome, fitsMeaning]) σ

/-- Unification of patterns that are not both pairs. -/
lemma exists_unified_of_not_both (hi : i < h.layers.size) (hl : l.bare = true) (hr : r.bare = true)
    (notBoth : ¬ (l.isPair = true ∧ r.isPair = true)) (σ : List (String × Value)) :
    ∃ ok new, Unified now base h i σ l r ok new := by
  have hmeets : ∀ now h, l.unifies now (.dynamic i base) r h = l.meets now (.dynamic i base) r h :=
    fun now => unifies_eq_meets notBoth
  rcases constant_bare base i hl with ⟨hlc, hlshape⟩ | ⟨v, hlc, stands⟩
  swap
  · exact Unified.exists_of_standsFor now hi stands hr (fun now h => by simp [hmeets, meets, hlc]) σ
  rcases constant_bare base i hr with ⟨hrc, hrshape⟩ | ⟨v, hrc, stands⟩
  swap
  · obtain ⟨ok, new, u⟩ := Unified.exists_of_standsFor now hi stands hl
      (fun now h => by simp [unifies_comm r l, hmeets, meets, hlc, hrc]) σ
    exact ⟨ok, new, u.comm⟩
  -- neither side stands for a value at once, so each is a name or a pair
  rcases hlshape with hlname | hlpair <;> rcases hrshape with hrname | hrpair
  · refine ⟨false, [], .nothing fun h => ?_⟩
    cases l <;> cases r <;> simp_all [isName, meets, isPair, constantValue?]
  · obtain ⟨ok, new, u⟩ := exists_unified_of_pair now base hi hr hl hrpair hlname σ
    exact ⟨ok, new, u.comm⟩
  · exact exists_unified_of_pair now base hi hl hr hlpair hrname σ
  · exact absurd ⟨hlpair, hrpair⟩ notBoth

variable (now base) in
/-- What unification on a layer finds. -/
theorem exists_unified (hi : i < h.layers.size) : ∀ {l : Pattern}, l.bare = true →
    ∀ {r : Pattern}, r.bare = true → ∀ σ : List (String × Value),
      ∃ ok new, Unified now base h i σ l r ok new
  | .pair lh lt, hl, .pair rh rt, hr, σ => by
    simp only [bare, Bool.and_eq_true] at hl hr
    obtain ⟨ok, new, first⟩ := exists_unified hi hl.1 hr.1 σ
    cases ok with
    | false => exact ⟨false, new, first.pair_of_head⟩
    | true =>
      obtain ⟨ok, new', second⟩ := exists_unified hi hl.2 hr.2 (new ++ σ)
      exact ⟨ok, new' ++ new, first.pair_of_tail second⟩
  | .any, hl, r, hr, σ | .ident _, hl, r, hr, σ | .const _, hl, r, hr, σ | .self, hl, r, hr, σ =>
    exists_unified_of_not_both hi hl hr (by simp [isPair]) σ
  | .pair _ _, hl, .any, hr, σ | .pair _ _, hl, .ident _, hr, σ | .pair _ _, hl, .const _, hr, σ
  | .pair _ _, hl, .self, hr, σ => exists_unified_of_not_both hi hl hr (by simp [isPair]) σ

/-- Unification is sound. On a fresh layer over any environment a task that unifies two patterns
answers. If it succeeds, then the names of both sides are bound in the layer, and no others; there
is a value of which both sides are instances under these bindings; and unifying the sides once more,
in whatever task, succeeds and leaves all bindings as they are. -/
theorem unification_sound (l r : Pattern) (hl : l.bare = true) (hr : r.bare = true) (s : Store)
    (base : Env) (actor : ActorId) (muted : Bool) (transaction : Nat) (now : Millis) (depth : Nat) :
    let layer := (s.heap.newLayer base).1
    let task := unifying (s.layered base) actor muted transaction now ⟨layer, depth⟩ l r
    ∃ (ok : Bool) (t' : Task .verdict) (s' : Store) (bound : Nat),
      (∀ fuel ≥ bound, task.1.advance fuel task.2 = some (t', s')) ∧ t'.answer? = some ok ∧
      (ok = true →
        let bindings := fun x => (s'.heap.layer s.heap.layers.size).lookup x
        (∀ x, (bindings x).isSome ↔ x ∈ l.declared ∨ x ∈ r.declared) ∧
        (∃ w, l.Instance base.self? bindings w ∧ r.Instance base.self? bindings w) ∧
        ∀ actor muted transaction now depth,
          let task := unifying s' actor muted transaction now ⟨layer, depth⟩ l r
          ∃ (t'' : Task .verdict) (s'' : Store) (bound : Nat),
            (∀ fuel ≥ bound, task.1.advance fuel task.2 = some (t'', s'')) ∧
            t''.answer? = some true ∧ s''.heap.SameBindings s'.heap) := by
  intro layer task
  have hi := s.heap.lt_size_newLayer base
  obtain ⟨ok, new, u⟩ := exists_unified now base hi hl hr []
  obtain ⟨t', s', n, hn, hanswer, hheap⟩ := Job.exists_layered_answer (.unify l r ⟨layer, depth⟩)
    ⟨plain_of_bare hl, plain_of_bare hr, rfl⟩ s base actor muted transaction now u.result
  refine ⟨ok, t', s', n, hn, hanswer, fun hok => ?_⟩
  have hlayer := s.heap.layer_of_still base hheap
  obtain ⟨w, hlw, hrw⟩ := u.sound hok
  intro bindings
  have hbindings : bindings = ((new ++ []).lookup ·) := by
    funext x
    exact congrArg (lookup x) hlayer
  rw [hbindings]
  refine ⟨fun x => ⟨fun hx => ?_, fun hx => ?_⟩, ⟨w, hlw, hrw⟩, ?_⟩
  · obtain ⟨w, hx⟩ := Option.isSome_iff_exists.1 hx
    obtain ⟨_, _, hsplit, _⟩ := lookup_eq_some_iff.1 hx
    rw [append_nil] at hsplit
    exact (u.fresh x w (by simp [hsplit])).1
  · have hbound : ∀ {p : Pattern}, x ∈ p.declared → p.Instance base.self? ((new ++ []).lookup ·) w →
        ((new ++ []).lookup x).isSome = true := by
      intro p hx hp
      obtain ⟨w', hw'⟩ := exists_position hp.1 hx
      exact Option.isSome_iff_exists.2 ⟨w', hp.2 x w' hw'⟩
    exact hx.elim (hbound · hlw) (hbound · hrw)
  · intro actor muted transaction now depth task
    obtain ⟨t'', s'', n, hn, hresult⟩ := exists_unification s' actor muted
      transaction now ⟨layer, depth⟩ (plain_of_bare hl) (plain_of_bare hr)
    have hagain := u.again hok now (new ++ []) fun _ _ => id
    rw [← hheap] at hagain
    obtain ⟨ok, hanswer, hsame⟩ := Option.map_eq_some_iff.1 (hresult.symm.trans hagain)
    obtain ⟨rfl, hstill⟩ := Prod.mk.inj hsame
    exact ⟨t'', s'', n, hn, hanswer, Heap.sameBindings_of_still hstill⟩

/-- Names on one side, and on the other a pair that stands for a value. -/
def namesFirst : Pattern := .pair (.ident "x") (.pair (.ident "y") (.ident "x"))

def valuesFirst : Pattern :=
  .pair (.pair (.const .nil) .self) (.pair (.const (.bool false)) (.pair (.const .nil) .self))

/-- A name that is bound to the value of a pair meets the same pair again. -/
theorem unification_namesFirst_valuesFirst :
    let layer := (named.heap.newLayer .ofNamed).1
    let task := fun s => unifying s ⟨7⟩ false 0 0 ⟨layer, 31⟩ namesFirst valuesFirst
    ∃ fuel t' s' t'' s'',
      (task (named.layered .ofNamed)).1.advance fuel
        (task (named.layered .ofNamed)).2 = some (t', s') ∧ t'.answer? = some true ∧
      (∀ x, ((s'.heap.layer 1).lookup x).isSome ↔ x ∈ namesFirst.declared ∨
        x ∈ valuesFirst.declared) ∧
      (task s').1.advance fuel (task s').2 = some (t'', s'') ∧ t''.answer? = some true ∧
      s''.heap.SameBindings s'.heap := by
  intro layer task
  obtain ⟨ok, t', s', n, hrun, hanswer, hsound⟩ := unification_sound namesFirst valuesFirst rfl rfl
    .named .ofNamed ⟨7⟩ false 0 0 31
  have htrue : (((task (named.layered .ofNamed)).1.advance 60
      (task (named.layered .ofNamed)).2).bind (·.1.answer?)) = some true := by decide +kernel
  have hok : ok = true := by
    obtain ⟨x, hx, hxanswer⟩ := Option.bind_eq_some_iff.1 htrue
    rw [advance_unique hx (hrun n le_rfl), hanswer] at hxanswer
    exact Option.some.inj hxanswer
  obtain ⟨hnames, _, hagain⟩ := hsound hok
  obtain ⟨t'', s'', m, hrun', hanswer', hsame⟩ := hagain ⟨7⟩ false 0 0 31
  exact ⟨max n m, t', s', t'', s'', hrun _ (le_max_left n m), hok ▸ hanswer, hnames,
    hrun' _ (le_max_right n m), hanswer', hsame⟩

end Pattern

end Troupe
