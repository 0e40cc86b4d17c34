import Troupe.Proofs.Failure
import Troupe.Proofs.Halting

/-!
Unification is symmetric.

A pattern is plain if it is built from names, constants, `SELF`, pairs and the values of expressions
that look names up but do nothing else (`Pattern.plain`). Unifying plain patterns is a function of
the heap, written down here without tasks and trees: `Pattern.fits` and `Pattern.unifies` answer the
verdict and the heap with its new bindings, or nothing if a name has to be waited for. By cases on
the shapes of both sides, `Pattern.unifies_comm` says that they may be swapped.

The trees of such an evaluation have a meaning, too (`Evaluation.result?`), which no small step
changes, whatever order the steps are taken in.

* `Evaluation.Plain.micro`: a small step keeps the meaning of a tree and makes its load smaller.
* `Task.exists_unification`: a task that unifies plain patterns can be run, and answers what
  `Pattern.unifies` says.
* `Pattern.unify_symmetric`: both orders succeed or both fail, and leave the same bindings.
-/

namespace Troupe

open Array Bool Heap Job Nat Option Pattern Troupe.Task

variable {g : Goal} {r : Pattern} {h : Heap}

/-! ### Bindings -/

namespace Heap

/-- The heap without those who wait. -/
def still (h : Heap) : Heap :=
  { h with
    slots := h.slots.map fun
      | .unbound _ => .unbound []
      | slot => slot }

@[simp] lemma slot?_still (h : Heap) (i : Nat) : h.still.slot? i = h.slot? i := by
  simp only [slot?, still, getElem?_map]
  rcases h.slots[i]? with _ | (_ | _) <;> rfl

/-- A look-up depends on what the name is bound to, and on nothing else. -/
lemma lookup_congr {h' : Heap} {name : String}
    (layer : ∀ i, (h'.layer i).lookup name = (h.layer i).lookup name)
    (scope : ∀ i, h'.scope i = h.scope i) (slot : ∀ i, h'.slot? i = h.slot? i)
    (dict : ∀ i, h'.dict i = h.dict i) (env : Env) : h'.lookup name env = h.lookup name env := by
  induction env with
  | empty => rfl
  | dynamic i base ih => simp only [lookup, layer, ih]
  | block i captured caller ih _ => simp only [lookup, scope, slot, ih]
  | actor stamp id next ih => exact ih
  | global i next ih => simp only [lookup, dict, ih]

@[simp] lemma lookup_still (h : Heap) (name : String) (env : Env) :
    h.still.lookup name env = h.lookup name env := by
  refine lookup_congr ?_ ?_ h.slot?_still ?_ env <;> exact fun _ => rfl

@[simp] lemma still_park (h : Heap) (slot : Nat) (who : Waiter) :
    (h.park slot who).still = h.still := by
  have hslots : (h.park slot who).still.slots = h.still.slots := by
    apply ext_getElem?
    intro i
    simp only [still, park, getElem?_map, getElem?_modify]
    by_cases hi : slot = i
    · rcases h.slots[i]? with _ | (_ | _) <;> simp [hi]
    · simp [hi]
  rw [still, still] at *
  simp only at hslots
  rw [hslots]
  rfl

/-- Those who wait do not matter to binding a name. -/
lemma bind_still (h : Heap) (name : String) (v : Value) (env : Env) :
    (h.still.bind name v env).1 = (h.bind name v env).1 ∧
      (h.still.bind name v env).2.2 = (h.bind name v env).2.2.still := by
  induction env with
  | empty | global => exact ⟨rfl, rfl⟩
  | dynamic layer base ih =>
    have hlayer : h.still.layer layer = h.layer layer := rfl
    rw [bind, bind, hlayer]
    cases (h.layer layer).lookup name <;> exact ⟨rfl, rfl⟩
  | block scope captured caller ih _ =>
    have hscope : h.still.scope scope = h.scope scope := rfl
    rw [bind, bind, hscope]
    cases (h.scope scope).lookup name with
    | none => exact ih
    | some slot =>
      simp only [fill, still, getElem?_map]
      rcases h.slots[slot]? with _ | (_ | _)
      · exact ⟨rfl, rfl⟩
      · simp
      · exact ⟨rfl, rfl⟩
  | actor stamp id next ih => exact ih

/-- The slot to be waited for is not bound. -/
lemma slot?_of_unbound {name : String} {env : Env} {slot : Nat}
    (found : h.lookup name env = .unbound slot) : h.slot? slot = none := by
  induction env with
  | empty => cases found
  | dynamic layer base ih | global dict next ih =>
    rw [lookup] at found
    split at found
    · cases found
    · exact ih found
  | block scope captured caller ih _ =>
    rw [lookup] at found
    split at found
    · split at found
      · cases found
      · cases found
        assumption
    · exact ih found
  | actor stamp id next ih => exact ih found

/-- Every frame has the same bindings in both heaps. -/
structure SameBindings (h h' : Heap) : Prop where
  layers : h.layers = h'.layers
  scopes : h.scopes = h'.scopes
  dicts : h.dicts = h'.dicts
  slots : ∀ slot, h.slot? slot = h'.slot? slot

lemma sameBindings_of_still {h' : Heap} (same : h.still = h'.still) : h.SameBindings h' where
  layers := (congrArg layers same : h.still.layers = h'.still.layers)
  scopes := (congrArg scopes same : h.still.scopes = h'.still.scopes)
  dicts := (congrArg dicts same : h.still.dicts = h'.still.dicts)
  slots slot := by rw [← h.slot?_still, same, h'.slot?_still]

end Heap

/-! ### What unification means -/

/-- Constants, names, pairs, `NOW` and `SELF`. -/
def Expr.plain : Expr → Bool
  | .const _ | .ident _ | .now | .self => true
  | .pair head tail => head.plain && tail.plain
  | _ => false

/-- The number of parts of an expression that are evaluated on their own. -/
def Expr.bulk : Expr → Nat
  | .pair head tail => head.bulk + tail.bulk + 1
  | _ => 1

/-- The value of a plain expression, unless a name has to be waited for. -/
def Expr.value? (now : Millis) (env : Env) (h : Heap) : Expr → Option Value
  | .const v => some v
  | .ident name => h.lookup? name env
  | .now => some now.toValue
  | .self => some (.ofActor? env.self?)
  | .pair head tail =>
    (head.value? now env h).bind fun a => (tail.value? now env h).map fun b => .pair a b
  | _ => none

namespace Pattern

/-- Only plain expressions are evaluated. -/
def plain : Pattern → Bool
  | .value e => e.plain
  | .pair head tail => head.plain && tail.plain
  | _ => true

/-- The pattern is a name or matches everything. -/
def isName : Pattern → Bool
  | .any | .ident _ => true
  | _ => false

def isPair : Pattern → Bool
  | .pair .. => true
  | _ => false

def bulk : Pattern → Nat
  | .value e => e.bulk + 1
  | .pair head tail => head.bulk + tail.bulk + 1
  | _ => 1

variable (now : Millis) (env : Env)

/-- The value of a pattern that stands for one; the inner answer is missing if it has to be waited
for. -/
def constantValue? (h : Heap) : Pattern → Option (Option Value)
  | .const v => some (some v)
  | .value e => some (e.value? now env h)
  | .self => some (some (.ofActor? env.self?))
  | .any | .ident _ | .pair .. => none

/-- Matching with a value. -/
def fits : Pattern → Value → Heap → Option (Bool × Heap)
  | .any, _, h => some (true, h)
  | .ident name, v, h => some ((h.bind name v env).1, (h.bind name v env).2.2)
  | .pair ph pt, .pair a b, h =>
    (ph.fits a h).bind fun (ok, h) => if ok then pt.fits b h else some (false, h)
  | .pair .., _, h => some (false, h)
  | p, v, h => (p.constantValue? now env h).bind fun w? => w?.map fun w => (w == v, h)

/-- The value that a pattern stands for; the inner answer is missing if it stands for none. -/
def meaning? (h : Heap) : Pattern → Option (Option Value)
  | .any | .ident _ => some none
  | .pair ph pt => (ph.meaning? h).bind fun a? => (pt.meaning? h).map fun b? =>
    match a?, b? with
    | some a, some b => some (.pair a b)
    | _, _ => none
  | p => (p.constantValue? now env h).bind fun w? => w?.map fun w =>
    if w.isUndefined then none else some w

/-- Matching a name with the value that a pair stands for. -/
def fitsMeaning (name : Pattern) (v? : Option Value) (h : Heap) : Option (Bool × Heap) :=
  match v? with
  | some v => name.fits now env v h
  | none => some (false, h)

/-- Unification of two patterns that are not both pairs. -/
def meets (l r : Pattern) (h : Heap) : Option (Bool × Heap) :=
  match l.constantValue? now env h, r.constantValue? now env h with
  | some v?, _ => v?.bind fun v => r.fits now env v h
  | none, some v? => v?.bind fun v => l.fits now env v h
  | none, none =>
    if l.isPair then (l.meaning? now env h).bind fun v? => r.fitsMeaning now env v? h
    else if r.isPair then (r.meaning? now env h).bind fun v? => l.fitsMeaning now env v? h
    else some (false, h)

/-- Unification. -/
def unifies : Pattern → Pattern → Heap → Option (Bool × Heap)
  | .pair lh lt, .pair rh rt, h =>
    (lh.unifies rh h).bind fun (ok, h) => if ok then lt.unifies rt h else some (false, h)
  | l, r, h => l.meets now env r h

variable {now env}

lemma isPair_of_constant {p : Pattern} {w? : Option Value}
    (constant : p.constantValue? now env h = some w?) : p.isPair = false := by
  cases p <;> first | rfl | cases constant

/-- A pattern that stands for a value is compared with the value. -/
lemma fits_of_constant {p : Pattern} {w? : Option Value}
    (constant : p.constantValue? now env h = some w?) (v : Value) :
    p.fits now env v h = w?.map fun w => (w == v, h) := by
  cases p <;> simp_all [constantValue?, fits]

lemma meets_comm {l : Pattern} (h : Heap) (notBoth : ¬ (l.isPair = true ∧ r.isPair = true)) :
    l.meets now env r h = r.meets now env l h := by
  cases hl : l.constantValue? now env h with
  | some v? =>
    cases hr : r.constantValue? now env h with
    | some w? =>
      simp only [meets, hl, hr, fits_of_constant hl, fits_of_constant hr]
      cases v? <;> cases w? <;> simp [BEq.comm]
    | none => simp only [meets, hl, hr]
  | none =>
    cases hr : r.constantValue? now env h with
    | some w? => simp only [meets, hl, hr]
    | none =>
      simp only [meets, hl, hr]
      cases hlp : l.isPair <;> cases hrp : r.isPair <;> simp_all

lemma unifies_eq_meets {l : Pattern} (notBoth : ¬ (l.isPair = true ∧ r.isPair = true)) (h : Heap) :
    l.unifies now env r h = l.meets now env r h := by
  cases l <;> cases r <;> simp_all [isPair, unifies]

/-- The sides of a unification may be swapped. -/
theorem unifies_comm (l r : Pattern) (h : Heap) : l.unifies now env r h =
    r.unifies now env l h := by
  fun_induction unifies now env l r h with
  | case1 lh lt rh rt h ih1 ih2 =>
    rw [unifies, ih1]
    congr
    funext x
    obtain ⟨ok, h'⟩ := x
    cases ok with
    | false => rfl
    | true => exact ih2 h'
  | case2 l r h notPairs =>
    have notBoth : ¬ (l.isPair = true ∧ r.isPair = true) := by
      rintro ⟨hl, hr⟩
      cases l <;> simp only [isPair, false_eq_true] at hl
      cases r <;> simp only [isPair, false_eq_true] at hr
      exact notPairs _ _ _ _ rfl rfl
    rw [meets_comm h notBoth, unifies_eq_meets fun hboth => notBoth hboth.symm]

end Pattern

/-! ### Trees -/

namespace Job

/-- A part of a unification of plain patterns, not nested. -/
def Plain : Job g → Prop
  | .eval e here => e.plain = true ∧ here.depth = 0
  | .fit p _ here => p.plain = true ∧ here.depth = 0
  | .unify l r here => l.plain = true ∧ r.plain = true ∧ here.depth = 0
  | .unifyName r l here => l.plain = true ∧ r.plain = true ∧ here.depth = 0 ∧ l.isName = true
  | .unifyPair r l here => l.plain = true ∧ r.plain = true ∧ here.depth = 0 ∧ l.isPair = true
  | .resolve p here => p.plain = true ∧ here.depth = 0
  | _ => False

/-- What a job answers, and the heap it leaves. -/
def result? (now : Millis) : {g : Goal} → Job g → Heap → Option (g.Result × Heap)
  | _, .eval e here, h => (e.value? now here.env h).map (·, h)
  | _, .fit p v here, h => p.fits now here.env v h
  | _, .unify l r here, h | _, .unifyName r l here, h | _, .unifyPair r l here, h =>
    l.unifies now here.env r h
  | _, .resolve p here, h => (p.meaning? now here.env h).map (·, h)
  | _, _, _ => none

/-- A bound on the small steps of a job. -/
def load : Job g → Nat
  | .eval e _ => 2 * e.bulk
  | .fit p _ _ | .resolve p _ => 4 * p.bulk
  | .unify l r _ => 4 * l.bulk + 4 * r.bulk + 4
  | .unifyName r l _ => 4 * l.bulk + 4 * r.bulk + 2
  | .unifyPair r l _ => 4 * l.bulk + 4 * r.bulk + 3
  | _ => 0

end Job

namespace Frame

variable {h : Goal}

/-- A frame of a unification of plain patterns, not nested. -/
def Plain : Frame g h → Prop
  | .equals _ | .known => True
  | .fit p here | .fitTail p _ here | .resolved p here => p.plain = true ∧ here.depth = 0
  | .unifyTail l r here => l.plain = true ∧ r.plain = true ∧ here.depth = 0
  | _ => False

/-- What a frame makes of the answer of its part. -/
def result? (now : Millis) : {g h : Goal} → Frame g h → g.Result → Heap → Option (h.Result × Heap)
  | _, _, .equals v, w, heap => some (w == v, heap)
  | _, _, .known, v, heap => some (if v.isUndefined then none else some v, heap)
  | _, _, .fit p here, v, heap => p.fits now here.env v heap
  | _, _, .resolved p here, v?, heap => p.fitsMeaning now here.env v? heap
  | _, _, .fitTail p v here, ok, heap =>
    if ok then p.fits now here.env v heap else some (false, heap)
  | _, _, .unifyTail l r here, ok, heap =>
    if ok then l.unifies now here.env r heap else some (false, heap)
  | _, _, _, _, _ => none

/-- A bound on the small steps that are left after the answer. -/
def load : Frame g h → Nat
  | .fit p _ | .fitTail p _ _ | .resolved p _ => 4 * p.bulk
  | .unifyTail l r _ => 4 * l.bulk + 4 * r.bulk + 4
  | _ => 0

end Frame

namespace Join

def Plain {g h : Goal} : Join g h → Prop
  | .pair | .meanings => True
  | _ => False

/-- What a join makes of the answers of its parts. -/
def result? : {g h : Goal} → Join g h → g.Result → g.Result → Option h.Result
  | _, _, .pair, a, b => some (.pair a b)
  | _, _, .meanings, a?, b? =>
    match a?, b? with
    | some a, some b => some (some (.pair a b))
    | _, _ => some none
  | _, _, _, _, _ => none

end Join

namespace Evaluation

/-- A tree of a unification of plain patterns; with `waits`, parts of it may wait for slots. -/
def Plain (waits : Prop) : {g : Goal} → Evaluation g → Prop
  | _, .done _ => True
  | _, .start job => job.Plain
  | _, .parked _ => waits
  | _, .one part frame => part.Plain waits ∧ frame.Plain
  | _, .both left right join => left.Plain waits ∧ right.Plain waits ∧ join.Plain
  | _, _ => False

/-- What a tree answers, and the heap it leaves, unless a part has to wait. -/
def result? (now : Millis) : {g : Goal} → Evaluation g → Heap → Option (g.Result × Heap)
  | _, .done r, h => some (r, h)
  | _, .start job, h => job.result? now h
  | _, .parked slot, h => (h.slot? slot).map (·, h)
  | _, .one part frame, h => (part.result? now h).bind fun (r, h) => frame.result? now r h
  | _, .both left right join, h =>
    (left.result? now h).bind fun (a, h) => (right.result? now h).bind fun (b, h) =>
      (join.result? a b).map (·, h)
  | _, _, _ => none

/-- A bound on the small steps of a tree. -/
def load : {g : Goal} → Evaluation g → Nat
  | _, .start job => job.load
  | _, .parked _ => 1
  | _, .one part frame => part.load + frame.load + 1
  | _, .both left right _ => left.load + right.load + 1
  | _, _ => 0

/-- A step from a tree with the meaning `before` in the heap `h` to the tree `f` in the heap
`h'`. -/
structure Keeps (waits : Prop) (now : Millis) {g : Goal} (before : Option (g.Result × Heap))
    (bound : Nat) (h : Heap) (f : Evaluation g) (h' : Heap) : Prop where
  plain : waits ∨ before ≠ none → f.Plain waits
  result : f.result? now h'.still = before
  load : f.load < bound
  pure : g ≠ .verdict → h'.still = h.still

/-- The same, to a tree that may be nested, with its store. -/
abbrev Leads (waits : Prop) (now : Millis) (before : Option (g.Result × Heap)) (bound : Nat)
    (h : Heap) (y : Evaluation g × Store) : Prop :=
  Keeps waits now before bound h y.1.flat y.2.core.heap

lemma Keeps.done {waits : Prop} {now : Millis} {bound : Nat} (r : g.Result) (hb : 0 < bound) :
    Keeps waits now (some (r, h.still)) bound h (.done r) h :=
  ⟨fun _ => trivial, rfl, hb, fun _ => rfl⟩

end Evaluation

open Evaluation (Keeps Leads)

variable {cx : Context} {here : Place} {c : Core} {waits : Prop}

/-- An expression that is begun at the top. -/
lemma Expr.nest_top (e : Expr) (top : here.depth = 0) (s : Store) :
    e.nest cx here s = (.start (.eval e ⟨here.env, 1⟩), s) := by
  simp [Expr.nest, Store.nest, top, maxNesting]

lemma Expr.begin_keeps {e : Expr} (hp : e.plain = true) (top : here.depth = 0) :
    Leads waits cx.now ((eval e here).result? cx.now c.heap.still)
      (2 * e.bulk) c.heap (e.begin cx here c.store) := by
  cases e with
  | const v => exact .done (g := .value) v (succ_pos _)
  | now | self => exact .done _ (succ_pos _)
  | ident name =>
    simp only [begin, Env.find, result?, value?, lookup?, lookup_still]
    have hheap : c.store.heap = c.heap := rfl
    rw [hheap]
    cases hfound : c.heap.lookup name here.env with
    | value v => exact .done (g := .value) v (succ_pos _)
    | unbound slot =>
      refine ⟨fun h => h.resolve_right fun hne => hne rfl, ?_, Nat.one_lt_two, fun _ => rfl⟩
      have hnone : c.store.core.heap.slot? slot = none := slot?_of_unbound hfound
      simp [Evaluation.flat, Evaluation.result?, hnone]
  | pair head tail =>
    simp only [Expr.plain, and_eq_true] at hp
    simp only [begin, nest_top _ top]
    refine ⟨fun _ => ⟨⟨hp.1, rfl⟩, ⟨hp.2, rfl⟩, trivial⟩, ?_, ?_, fun _ => rfl⟩
    · have hcore : c.store.core = c := rfl
      simp only [Evaluation.flat, flat, Place.flat, Evaluation.result?, result?, value?, hcore]
      cases head.value? cx.now here.env c.heap.still with
      | none => rfl
      | some a =>
        cases htail : tail.value? cx.now here.env c.heap.still <;>
          simp [htail, Join.flat, Join.result?]
    · simp only [Evaluation.flat, Evaluation.load, flat, load, bulk]
      omega
  | _ => cases hp

namespace Pattern

/-- Going on with a pattern that stands for a value. -/
lemma withConstant_keeps {p : Pattern} {w? : Option Value} (frame : Frame .value g)
    (otherwise : g.Result) (bound : Nat) (hp : p.plain = true) (top : here.depth = 0)
    (constant : p.constantValue? cx.now here.env c.heap.still = some w?) (hf : frame.flat.Plain)
    (load : 2 * p.bulk + frame.flat.load ≤ bound) :
    Leads waits cx.now (w?.bind fun w => frame.flat.result? cx.now w c.heap.still)
      bound c.heap (p.withConstant cx here c.store frame otherwise) := by
  have done (v : Value) (hb : frame.flat.load + 1 < bound) :
      Keeps waits cx.now (frame.flat.result? cx.now v c.heap.still) bound c.heap
        (.one (.done (g := .value) v) frame.flat) c.heap :=
    ⟨fun _ => ⟨trivial, hf⟩, rfl, by simpa [Evaluation.load] using hb, fun _ => rfl⟩
  cases p with
  | const v =>
    cases constant
    exact done v (by simp only [bulk] at load; omega)
  | self =>
    cases constant
    exact done _ (by simp only [bulk] at load; omega)
  | value e =>
    cases constant
    simp only [withConstant, constant?, e.nest_top top]
    refine ⟨fun _ => ⟨⟨hp, rfl⟩, hf⟩, ?_, ?_, fun _ => rfl⟩
    · have hcore : c.store.core = c := rfl
      simp only [Evaluation.flat, flat, Place.flat, Evaluation.result?, result?, hcore]
      cases e.value? cx.now here.env c.heap.still <;> rfl
    · simp only [Evaluation.flat, Evaluation.load, Job.flat, Job.load, bulk] at load ⊢
      omega
  | _ => cases constant

/-- A pattern stands for a value or is a name or a pair. -/
lemma constant_or (p : Pattern) (now : Millis) (env : Env) (h : Heap) :
    (∃ w?, p.constantValue? now env h = some w?) ∨
      p.constantValue? now env h = none ∧ (p.isName = true ∨ p.isPair = true) := by
  cases p <;> simp [constantValue?, isName, isPair]

lemma fit_keeps {p : Pattern} {v : Value} (hp : p.plain = true) (top : here.depth = 0) :
    Leads waits cx.now ((Job.fit p v here).result? cx.now c.heap.still)
      (4 * p.bulk) c.heap (p.fit v cx here c.store) := by
  rcases p.constant_or cx.now here.env c.heap.still with ⟨w?, constant⟩ | ⟨_, hshape⟩
  · have hfit : p.fit v cx here c.store = p.withConstant cx here c.store (.equals v) false := by
      cases p <;> first | rfl | cases constant
    rw [hfit, Job.result?, fits_of_constant constant]
    have load : 2 * p.bulk + (Frame.equals v).flat.load ≤ 4 * p.bulk := by
      simp only [Frame.flat, Frame.load]
      omega
    cases w? <;> exact withConstant_keeps (.equals v) false _ hp top constant trivial load
  cases p with
  | any => exact .done _ (succ_pos _)
  | ident name =>
    obtain ⟨hok, hheap⟩ := c.heap.bind_still name v here.env
    refine ⟨fun _ => trivial, ?_, succ_pos _, fun h => absurd rfl h⟩
    simp only [fit, Evaluation.flat, Evaluation.result?, result?, fits, hok, hheap,
      Store.core_bind]
    rfl
  | pair ph pt =>
    simp only [plain, and_eq_true] at hp
    cases v with
    | pair a b =>
      refine ⟨fun _ => ⟨⟨hp.1, rfl⟩, hp.2, rfl⟩, rfl, ?_, fun _ => rfl⟩
      simp only [fit, Evaluation.flat, Evaluation.load, flat, load, Frame.flat, Frame.load,
        bulk]
      omega
    | _ => exact .done _ (succ_pos _)
  | _ => simp [isName, isPair] at hshape

/-- Going on with the value that one side of a unification stands for. -/
lemma fit_after_keeps {p q : Pattern} {w? : Option Value} {bound : Nat} (hp : p.plain = true)
    (hq : q.plain = true) (top : here.depth = 0)
    (constant : p.constantValue? cx.now here.env c.heap.still = some w?)
    (load : 2 * p.bulk + 4 * q.bulk ≤ bound) :
    Leads (g := .verdict) waits cx.now (w?.bind fun w => q.fits cx.now here.env w c.heap.still)
      bound c.heap (p.withConstant cx here c.store (.fit q here) false) :=
  withConstant_keeps (.fit q here) false bound hp top constant ⟨hq, rfl⟩ load

lemma unifyName_keeps {l : Pattern} (hl : l.plain = true) (hr : r.plain = true)
    (top : here.depth = 0) (name : l.isName = true) :
    Leads (g := .verdict) waits cx.now (l.unifies cx.now here.env r c.heap.still)
      (4 * l.bulk + 4 * r.bulk + 2) c.heap (r.unifyName l cx here c.store) := by
  have hlc : l.constantValue? cx.now here.env c.heap.still = none ∧ l.isPair = false := by
    cases l <;> simp_all [isName, isPair, constantValue?]
  rw [unifies_eq_meets (by simp [hlc.2])]
  rcases r.constant_or cx.now here.env c.heap.still with ⟨w?, constant⟩ | ⟨hrc, hshape⟩
  · have hname : r.unifyName l cx here c.store =
        r.withConstant cx here c.store (.fit l here) false := by
      cases r <;> first | rfl | cases constant
    rw [hname, meets, hlc.1, constant]
    exact fit_after_keeps hr hl top constant (by omega)
  have hmeets : l.meets cx.now here.env r c.heap.still =
      if r.isPair then (r.meaning? cx.now here.env c.heap.still).bind fun v? =>
        l.fitsMeaning cx.now here.env v? c.heap.still else some (false, c.heap.still) := by
    simp [meets, hlc, hrc]
  rw [hmeets]
  cases r with
  | any | ident => exact .done _ (succ_pos _)
  | pair rh rt =>
    refine ⟨fun _ => ⟨⟨hr, rfl⟩, hl, rfl⟩, ?_, ?_, fun _ => rfl⟩
    · have hcore : c.store.core = c := rfl
      simp only [unifyName, Evaluation.flat, flat, Place.flat, Evaluation.result?, result?,
        hcore, isPair, if_true]
      cases (pair rh rt).meaning? cx.now here.env c.heap.still <;> rfl
    · simp only [unifyName, Evaluation.flat, Evaluation.load, flat, load, Frame.flat,
        Frame.load]
      omega
  | _ => simp [isName, isPair] at hshape

lemma unifyPair_keeps {l : Pattern} (hl : l.plain = true) (hr : r.plain = true)
    (top : here.depth = 0) (pair : l.isPair = true) :
    Leads (g := .verdict) waits cx.now (l.unifies cx.now here.env r c.heap.still)
      (4 * l.bulk + 4 * r.bulk + 3) c.heap (r.unifyPair l cx here c.store) := by
  have hlc : l.constantValue? cx.now here.env c.heap.still = none := by
    cases l <;> simp_all [isPair, constantValue?]
  rcases r.constant_or cx.now here.env c.heap.still with ⟨w?, constant⟩ | ⟨hrc, hshape⟩
  · have hpair : r.unifyPair l cx here c.store =
        r.withConstant cx here c.store (.fit l here) false := by
      cases r <;> first | rfl | cases constant
    have hnot : ¬ (l.isPair = true ∧ r.isPair = true) := by simp [isPair_of_constant constant]
    rw [hpair, unifies_eq_meets hnot, meets, hlc, constant]
    exact fit_after_keeps hr hl top constant (by omega)
  rcases hshape with name | pair'
  · have hpair : r.unifyPair l cx here c.store = (.start (.unifyName l r here), c.store) := by
      cases r <;> first | rfl | cases name
    rw [hpair, unifies_comm l r]
    refine ⟨fun _ => ⟨hr, hl, rfl, name⟩, rfl, ?_, fun _ => rfl⟩
    simp only [Evaluation.flat, Evaluation.load, flat, load]
    omega
  · cases l <;> simp only [isPair, false_eq_true] at pair
    cases r <;> simp only [isPair, false_eq_true] at pair'
    simp only [plain, and_eq_true] at hl hr
    refine ⟨fun _ => ⟨⟨hl.1, hr.1, rfl⟩, hl.2, hr.2, rfl⟩, rfl, ?_, fun _ => rfl⟩
    simp only [unifyPair, Evaluation.flat, Evaluation.load, flat, load, Frame.flat,
      Frame.load, bulk]
    omega

lemma unify_keeps {l : Pattern} (hl : l.plain = true) (hr : r.plain = true) (top : here.depth = 0) :
    Leads (g := .verdict) waits cx.now (l.unifies cx.now here.env r c.heap.still)
      (4 * l.bulk + 4 * r.bulk + 4) c.heap (l.unify r cx here c.store) := by
  rcases l.constant_or cx.now here.env c.heap.still with ⟨w?, constant⟩ | ⟨_, name | pair⟩
  · have hunify : l.unify r cx here c.store =
        l.withConstant cx here c.store (.fit r here) false := by
      cases l <;> first | rfl | cases constant
    have hnot : ¬ (l.isPair = true ∧ r.isPair = true) := by simp [isPair_of_constant constant]
    have hmeets : l.meets cx.now here.env r c.heap.still =
        w?.bind fun w => r.fits cx.now here.env w c.heap.still := by
      rw [meets, constant]
    rw [hunify, unifies_eq_meets hnot, hmeets]
    exact fit_after_keeps hl hr top constant (by omega)
  · have hunify : l.unify r cx here c.store = (.start (.unifyName r l here), c.store) := by
      cases l <;> first | rfl | cases name
    rw [hunify]
    refine ⟨fun _ => ⟨hl, hr, rfl, name⟩, rfl, ?_, fun _ => rfl⟩
    simp only [Evaluation.flat, Evaluation.load, flat, load]
    omega
  · have hunify : l.unify r cx here c.store = (.start (.unifyPair r l here), c.store) := by
      cases l <;> first | rfl | cases pair
    rw [hunify]
    refine ⟨fun _ => ⟨hl, hr, rfl, pair⟩, rfl, ?_, fun _ => rfl⟩
    simp only [Evaluation.flat, Evaluation.load, flat, load]
    omega

lemma resolve_keeps {p : Pattern} (hp : p.plain = true) (top : here.depth = 0) :
    Leads waits cx.now ((Job.resolve p here).result? cx.now c.heap.still)
      (4 * p.bulk) c.heap (p.resolve cx here c.store) := by
  rcases p.constant_or cx.now here.env c.heap.still with ⟨w?, constant⟩ | ⟨_, hshape⟩
  · have hresolve : p.resolve cx here c.store = p.withConstant cx here c.store .known none := by
      cases p <;> first | rfl | cases constant
    have hmeaning : p.meaning? cx.now here.env c.heap.still =
        w?.map fun w => if w.isUndefined then none else some w := by
      cases p <;> simp_all [constantValue?, meaning?]
    have load : 2 * p.bulk + Frame.known.flat.load ≤ 4 * p.bulk := by
      simp only [Frame.flat, Frame.load]
      omega
    rw [hresolve, Job.result?, hmeaning]
    cases w? <;> exact withConstant_keeps .known none _ hp top constant trivial load
  cases p with
  | any | ident => exact .done _ (succ_pos _)
  | pair ph pt =>
    simp only [plain, and_eq_true] at hp
    refine ⟨fun _ => ⟨⟨hp.1, rfl⟩, ⟨hp.2, rfl⟩, trivial⟩, ?_, ?_, fun _ => rfl⟩
    · have hcore : c.store.core = c := rfl
      simp only [resolve, Evaluation.flat, flat, Place.flat, Evaluation.result?, result?,
        meaning?, hcore]
      cases ph.meaning? cx.now here.env c.heap.still with
      | none => rfl
      | some a? =>
        cases htail : pt.meaning? cx.now here.env c.heap.still with
        | none => simp [htail]
        | some b? => cases a? <;> cases b? <;> simp [htail, Join.flat, Join.result?]
    · simp only [resolve, Evaluation.flat, Evaluation.load, Job.flat, Job.load, bulk]
      omega
  | _ => simp [isName, isPair] at hshape

end Pattern

lemma Job.begin_keeps {job : Job g} (hp : job.Plain) :
    Keeps waits cx.now (job.result? cx.now c.heap.still) job.load c.heap
      (job.begin cx c.store).1.flat (job.begin cx c.store).2.core.heap := by
  cases job with
  | eval e here => exact Expr.begin_keeps hp.1 hp.2
  | fit p v here => exact fit_keeps hp.1 hp.2
  | unify l r here => exact unify_keeps hp.1 hp.2.1 hp.2.2
  | unifyName r l here => exact unifyName_keeps hp.1 hp.2.1 hp.2.2.1 hp.2.2.2
  | unifyPair r l here => exact unifyPair_keeps hp.1 hp.2.1 hp.2.2.1 hp.2.2.2
  | resolve p here => exact resolve_keeps hp.1 hp.2
  | _ => cases hp

lemma Frame.resume_keeps {h : Goal} {frame : Frame g h} (hp : frame.Plain) (r : g.Result) :
    Leads waits cx.now (frame.result? cx.now r c.heap.still)
      (frame.load + 1) c.heap (frame.resume r cx c.store) := by
  cases frame with
  | equals | known => exact .done _ (succ_pos _)
  | fit p here => exact ⟨fun _ => ⟨hp.1, rfl⟩, rfl, lt_succ_self _, fun _ => rfl⟩
  | resolved p here =>
    cases r with
    | none => exact .done _ (succ_pos _)
    | some v => exact ⟨fun _ => ⟨hp.1, rfl⟩, rfl, lt_succ_self _, fun _ => rfl⟩
  | fitTail p v here =>
    cases r with
    | false => exact .done _ (succ_pos _)
    | true => exact ⟨fun _ => ⟨hp.1, rfl⟩, rfl, lt_succ_self _, fun _ => rfl⟩
  | unifyTail left right here =>
    cases r with
    | false => exact .done _ (succ_pos _)
    | true => exact ⟨fun _ => ⟨hp.1, hp.2.1, rfl⟩, rfl, lt_succ_self _, fun _ => rfl⟩
  | _ => cases hp

lemma Join.resume_keeps {h : Goal} {join : Join g h} (hp : join.Plain) (a b : g.Result) :
    Leads waits cx.now ((join.result? a b).map (·, c.heap.still))
      1 c.heap (join.resume a b cx c.store) := by
  cases join with
  | pair => exact .done _ one_pos
  | meanings =>
    cases a <;> cases b <;> exact .done _ one_pos
  | _ => cases hp

/-- The parts of a join are no unifications. -/
lemma Join.goal_ne {h : Goal} (join : Join g h) : g ≠ .verdict := by
  cases join <;> decide

namespace Evaluation

/-- Only a unification changes the heap. -/
lemma Plain.result_pure {f : Evaluation g} (hp : f.Plain waits) (hg : g ≠ .verdict) {now : Millis}
    {x : g.Result × Heap} (hx : f.result? now h = some x) : x.2 = h := by
  induction f generalizing h with
  | done r =>
    cases hx
    rfl
  | start job =>
    cases job with
    | eval | resolve =>
      obtain ⟨v, _, rfl⟩ := map_eq_some_iff.1 hx
      rfl
    | _ => first | exact absurd rfl hg | cases hp
  | parked slot =>
    obtain ⟨v, _, rfl⟩ := map_eq_some_iff.1 hx
    rfl
  | awaiting | race => cases hp
  | one part frame ih =>
    obtain ⟨y, hy, hframe⟩ := bind_eq_some_iff.1 hx
    cases frame with
    | known =>
      cases hframe
      exact ih hp.1 (by decide) hy
    | _ => first | exact absurd rfl hg | cases hp.2
  | both left right join ih1 ih2 =>
    obtain ⟨y, hy, hrest⟩ := bind_eq_some_iff.1 hx
    obtain ⟨z, hz, hjoin⟩ := bind_eq_some_iff.1 hrest
    obtain ⟨r, _, rfl⟩ := map_eq_some_iff.1 hjoin
    have hparts := join.goal_ne
    exact (ih2 hp.2.1 hparts hz).trans (ih1 hp.1 hparts hy)

/-- A small step keeps the meaning of a plain tree. -/
theorem Plain.micro {f f' : Evaluation g} {ds : List Work} {c' : Core}
    (step : Micro cx f c f' ds c') : ∀ {waits : Prop}, f.Plain waits → ds = [] ∧
      Keeps waits cx.now (f.result? cx.now c.heap.still) f.load c.heap f' c'.heap := by
  induction step with
  | start job c => exact fun hp => ⟨rfl, begin_keeps hp⟩
  | @read slot v c bound =>
    intro waits hp
    refine ⟨rfl, fun _ => trivial, ?_, one_pos, fun _ => rfl⟩
    simp [result?, bound]
  | resume r frame c =>
    intro waits hp
    have hkeeps : Keeps waits cx.now _ _ c.heap _ _ := Frame.resume_keeps hp.2 r
    exact ⟨rfl, hkeeps.plain, hkeeps.result, by simpa [load] using hkeeps.load, hkeeps.pure⟩
  | join a b join c =>
    intro waits hp
    have hkeeps : Keeps waits cx.now _ _ c.heap _ _ := Join.resume_keeps hp.2.2 a b
    exact ⟨rfl, hkeeps.plain, hkeeps.result, by simpa [load] using hkeeps.load, hkeeps.pure⟩
  | merge | failLeft | failRight | raceLeft | raceRight => exact fun hp => hp.elim
  | @one g h f f' ds c c' frame inner ih =>
    intro waits hp
    obtain ⟨hds, hkeeps⟩ := ih hp.1
    refine ⟨hds, fun hw => ⟨hkeeps.plain ?_, hp.2⟩, ?_, ?_, ?_⟩
    · refine hw.imp_right fun hne hnone => hne ?_
      rw [result?, hnone]
      rfl
    · rw [result?, result?, hkeeps.result]
    · have := hkeeps.load
      simp only [load]
      omega
    · intro hg
      cases frame with
      | known => exact hkeeps.pure (by decide)
      | _ => first | exact absurd rfl hg | cases hp.2
  | @bothLeft g h f f' ds c c' right join inner ih =>
    intro waits hp
    obtain ⟨hds, hkeeps⟩ := ih hp.1
    refine ⟨hds, fun hw => ⟨hkeeps.plain ?_, hp.2⟩, ?_, ?_, fun _ => ?_⟩
    · refine hw.imp_right fun hne hnone => hne ?_
      rw [result?, hnone]
      rfl
    · rw [result?, result?, hkeeps.result]
    · have := hkeeps.load
      simp only [load]
      omega
    · exact hkeeps.pure (join.goal_ne)
  | @bothRight g h f f' ds c c' left join inner ih =>
    intro waits hp
    obtain ⟨hds, hkeeps⟩ := ih hp.2.1
    have hparts := join.goal_ne
    have hstill := hkeeps.pure hparts
    refine ⟨hds, fun hw => ⟨hp.1, hkeeps.plain ?_, hp.2.2⟩, ?_, ?_, fun _ => hstill⟩
    · refine hw.imp_right fun hne hnone => hne ?_
      cases hleft : left.result? cx.now c.heap.still with
      | none =>
        rw [result?, hleft]
        rfl
      | some x =>
        have hx := hp.1.result_pure hparts hleft
        simp [result?, hleft, hx, hnone]
    · rw [result?, result?, hstill]
      cases hleft : left.result? cx.now c.heap.still with
      | none => rfl
      | some x =>
        have hx := hp.1.result_pure hparts hleft
        have hresult := hkeeps.result
        rw [hstill] at hresult
        simp [hx, hresult]
    · have := hkeeps.load
      simp only [load]
      omega

/-- Small steps keep the meaning of a plain tree. -/
lemma Plain.steps {n : Nat} {f f' : Evaluation g} {ds : List Work} {c' : Core}
    (hs : Steps cx n f c f' ds c') (hp : f.Plain waits)
    (hw : waits ∨ f.result? cx.now c.heap.still ≠ none) :
    f'.Plain waits ∧ f'.result? cx.now c'.heap.still = f.result? cx.now c.heap.still := by
  induction hs with
  | refl f c => exact ⟨hp, rfl⟩
  | @park n f f' ds c c' slot who _ ih =>
    have hstill := c.heap.still_park slot who
    have hrest := ih hp (by simpa only [hstill] using hw)
    simpa only [hstill] using hrest
  | step first _ ih =>
    obtain ⟨_, hkeeps⟩ := Plain.micro first hp
    rw [← hkeeps.result] at hw ⊢
    exact ih (hkeeps.plain (by rwa [← hkeeps.result])) hw

/-- A plain tree halts. -/
lemma Plain.halts {f : Evaluation g} (hp : f.Plain True) : Halts cx f c := by
  refine Halts.of_invariant (fun a f _ => f.Plain True ∧ f.load = a) (fun _ _ h => h) ?_ ⟨hp, rfl⟩
  rintro a f c f' ds c' ⟨hp, rfl⟩ step
  obtain ⟨hds, hkeeps⟩ := Plain.micro step hp
  exact ⟨hds, _, hkeeps.load, hkeeps.plain (.inl trivial), rfl⟩

lemma Plain.mono {waits' : Prop} (h : waits → waits') {f : Evaluation g} (hp : f.Plain waits) :
    f.Plain waits' := by
  induction f with
  | parked slot => exact h hp
  | one part frame ih => exact ⟨ih hp.1, hp.2⟩
  | both left right join ih1 ih2 => exact ⟨ih1 hp.1, ih2 hp.2.1, hp.2.2⟩
  | _ => exact hp

/-- A tree of which no part may wait does not wait. -/
lemma Plain.not_idle {P : Nat → Prop} {f : Evaluation g} (idle : f.Idle (fun _ => False) P) :
    ¬ f.Plain False := by
  induction idle with
  | awaiting h => exact h.elim
  | one frame _ ih | both join _ _ ih _ | bothLeft join _ b ih => exact fun hp => ih hp.1
  | bothRight join a _ ih => exact fun hp => ih hp.2.1
  | _ => exact id

end Evaluation

/-! ### Tasks that unify -/

namespace Task

/-- A task that unifies two patterns. -/
def unifying (s : Store) (actor : ActorId) (muted : Bool) (transaction : Nat) (now : Millis)
    (here : Place) (l r : Pattern) : Task .verdict × Store :=
  spawn s actor muted transaction now (.start (.unify l r here))

/-- A run of the task ends before the task has finished. -/
def Suspends {g : Goal} (t : Task g) (s : Store) : Prop :=
  ∃ fuel t' s', t.advance fuel s = some (t', s') ∧ t'.answer? = none

/-- The fuel does not matter to what a task answers. -/
lemma advance_unique {t : Task g} {s : Store} {fuel fuel' : Nat} {x y : Task g × Store}
    (hx : t.advance fuel s = some x) (hy : t.advance fuel' s = some y) : x = y := by
  obtain ⟨log, hpoll⟩ := poll_of_advance hx
  obtain ⟨log', hpoll'⟩ := poll_of_advance hy
  obtain ⟨n, hn⟩ := advance_of_poll hpoll
  obtain ⟨m, hm⟩ := advance_of_poll hpoll'
  have hsame := (hn _ (le_max_left n m)).symm.trans (hm _ (le_max_right n m))
  exact some_inj.1 hsame

section Unifying

variable (s : Store) (actor : ActorId) (muted : Bool) (transaction : Nat) (now : Millis)
  (here : Place) {l : Pattern}

/-- A task with a plain job can be run. It answers, with the bindings it has made, unless a name has
to be waited for. -/
theorem exists_plain_answer (job : Job g) (plain : job.flat.Plain) :
    ∃ (t' : Task g) (s' : Store) (bound : Nat), (∀ fuel ≥ bound,
      (spawn s actor muted transaction now (.start job)).1.advance fuel
        (spawn s actor muted transaction now (.start job)).2 = some (t', s')) ∧
      job.flat.result? now s.heap.still = t'.answer?.map (·, s'.heap.still) := by
  have hp (waits : Prop) : (Evaluation.start job.flat).Plain waits := plain
  have hstanding : Standing False (spawn s actor muted transaction now (.start job)).1.context
      (.start job) (spawn s actor muted transaction now (.start job)).2 [] [⟨g, .start job.flat⟩] :=
    standing_spawn False.elim actor muted transaction now job
  obtain ⟨log, t', s', n, F', hpoll, _, hsteps, hend⟩ := exists_poll ⟨hstanding, (hp True).halts⟩
  obtain ⟨n, hn⟩ := advance_of_poll hpoll
  refine ⟨t', s', n, hn, ?_⟩
  set D := job.flat.result? now s.heap.still with hD
  -- as long as no name has to be waited for, no part of the tree waits
  obtain ⟨hplain, hresult⟩ := (hp (D = none)).steps hsteps (Classical.em (D = none))
  rcases hend with ⟨b, hmain, rfl⟩ | ⟨hwaits, hidle⟩
  · rw [answer?, hmain]
    exact hresult.symm
  · have hnone : D = none := by
      by_contra hne
      exact Evaluation.Plain.not_idle hidle (hplain.mono hne)
    rw [hnone, answer?, hwaits]
    rfl

/-- A task that unifies plain patterns can be run. -/
theorem exists_unification (hl : l.plain = true) (hr : r.plain = true) :
    ∃ (t' : Task .verdict) (s' : Store) (bound : Nat), (∀ fuel ≥ bound,
      (unifying s actor muted transaction now here l r).1.advance fuel
        (unifying s actor muted transaction now here l r).2 = some (t', s')) ∧
      l.unifies now here.env r s.heap.still = t'.answer?.map (·, s'.heap.still) :=
  exists_plain_answer s actor muted transaction now (.unify l r here) ⟨hl, hr, rfl⟩

/-- Whether a unification suspends. -/
lemma suspends_unifying_iff (hl : l.plain = true) (hr : r.plain = true) :
    (unifying s actor muted transaction now here l r).1.Suspends
      (unifying s actor muted transaction now here l r).2 ↔
      l.unifies now here.env r s.heap.still = none := by
  obtain ⟨t', s', n, hn, hresult⟩ := exists_unification s actor muted transaction now here hl hr
  rw [hresult, map_eq_none_iff]
  constructor
  · rintro ⟨fuel, t'', s'', hrun, hanswer⟩
    cases advance_unique (hn n le_rfl) hrun
    exact hanswer
  · exact fun hanswer => ⟨n, t', s', hn n le_rfl, hanswer⟩

end Unifying

end Task

/-- Unification is symmetric: unless it suspends, both orders answer, with the same verdict, and
leave the same bindings in every frame. -/
theorem Pattern.unify_symmetric (l r : Pattern) (hl : l.plain = true) (hr : r.plain = true)
    (s : Store) (actor : ActorId) (muted : Bool) (transaction : Nat) (now : Millis) (here : Place)
    (awake : ¬ (unifying s actor muted transaction now here l r).1.Suspends
      (unifying s actor muted transaction now here l r).2) :
    ∃ (verdict : Bool) (t₁ t₂ : Task .verdict) (s₁ s₂ : Store) (bound : Nat),
      (∀ fuel ≥ bound, (unifying s actor muted transaction now here l r).1.advance fuel
        (unifying s actor muted transaction now here l r).2 = some (t₁, s₁)) ∧
      (∀ fuel ≥ bound, (unifying s actor muted transaction now here r l).1.advance fuel
        (unifying s actor muted transaction now here r l).2 = some (t₂, s₂)) ∧
      t₁.answer? = some verdict ∧ t₂.answer? = some verdict ∧ s₁.heap.SameBindings s₂.heap := by
  obtain ⟨t₁, s₁, n, hn, hresult₁⟩ := exists_unification s actor muted transaction now here hl hr
  obtain ⟨t₂, s₂, m, hm, hresult₂⟩ := exists_unification s actor muted transaction now here hr hl
  rw [suspends_unifying_iff s actor muted transaction now here hl hr] at awake
  rw [unifies_comm r l, hresult₁] at hresult₂
  rw [hresult₁] at awake
  cases hanswer₁ : t₁.answer? with
  | none => simp [hanswer₁] at awake
  | some verdict =>
    rw [hanswer₁, Option.map_some] at hresult₂
    obtain ⟨verdict', hanswer₂, hsame⟩ := Option.map_eq_some_iff.1 hresult₂.symm
    obtain ⟨rfl, hheap⟩ := Prod.mk.inj hsame
    refine ⟨verdict', t₁, t₂, s₁, s₂, max n m, fun fuel hfuel => hn fuel (by omega),
      fun fuel hfuel => hm fuel (by omega), hanswer₁, hanswer₂, ?_⟩
    exact sameBindings_of_still hheap.symm

/-- A store with one layer that has no bindings. -/
def Store.oneLayer : Store := { heap := { layers := #[[]] } }

/-- A name and, behind it, its value. -/
def Pattern.nameTwice : Pattern := .pair (.ident "x") (.value (.ident "x"))

def Pattern.trueTwice : Pattern := .pair (.const (.bool true)) (.const (.bool true))

/-- A name that is bound on one side is read a moment later. -/
theorem Pattern.unify_nameTwice_trueTwice :
    ∃ (t₁ t₂ : Task .verdict) (s₁ s₂ : Store) (fuel : Nat),
      (unifying .oneLayer ⟨1⟩ false 0 0 ⟨.dynamic 0 .empty, 0⟩ nameTwice trueTwice).1.advance fuel
        (unifying .oneLayer ⟨1⟩ false 0 0 ⟨.dynamic 0 .empty, 0⟩ nameTwice trueTwice).2 =
          some (t₁, s₁) ∧
      (unifying .oneLayer ⟨1⟩ false 0 0 ⟨.dynamic 0 .empty, 0⟩ trueTwice nameTwice).1.advance fuel
        (unifying .oneLayer ⟨1⟩ false 0 0 ⟨.dynamic 0 .empty, 0⟩ trueTwice nameTwice).2 =
          some (t₂, s₂) ∧
      t₁.answer? = t₂.answer? ∧ s₁.heap.SameBindings s₂.heap := by
  have awake : (nameTwice.unifies 0 (.dynamic 0 .empty) trueTwice
      Store.oneLayer.heap.still).isSome = true := by decide
  obtain ⟨verdict, t₁, t₂, s₁, s₂, bound, h₁, h₂, ha₁, ha₂, hsame⟩ :=
    unify_symmetric nameTwice trueTwice rfl rfl .oneLayer ⟨1⟩ false 0 0 ⟨.dynamic 0 .empty, 0⟩ (by
      rw [suspends_unifying_iff _ _ _ _ _ _ rfl rfl]
      exact Option.ne_none_iff_isSome.2 awake)
  exact ⟨t₁, t₂, s₁, s₂, bound, h₁ _ le_rfl, h₂ _ le_rfl, ha₁.trans ha₂.symm, hsame⟩

end Troupe
