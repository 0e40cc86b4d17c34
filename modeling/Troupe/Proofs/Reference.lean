import Troupe.Proofs.SmallStep

/-!
A reference semantics for expressions.

Expressions are evaluated by plain recursion: operands from left to right, arms in order, patterns
on a layer of their own. There is no limit on how deep evaluations nest, and nothing is detached. An
expression has no value here if it makes an actor, if it reads a variable that is not bound, or if
the fuel, a bound on the depth of the recursion, runs out.

* `Reference.eval`, `Reference.apply`: the value of an expression, and of a function applied to a
  value.
* `Reference.eval_gets`, `Reference.apply_gets`: small steps, from left to right, lead to this
  value.
-/

namespace Troupe

open Option

variable {v : Value} {ok : Bool} {g : Goal} {c : Core} {l p r : Pattern}

namespace Reference

mutual

/-- The value of an expression. -/
def eval (now : Millis) : Nat → Expr → Env → Heap → Option (Value × Heap)
  | 0, _, _, _ => none
  | fuel + 1, e, env, h =>
    match e with
    | .const v => some (v, h)
    | .ident name =>
      match h.lookup name env with
      | .value v => some (v, h)
      | .unbound _ => none
    | .lambda param body => some (h.newClosure ⟨param, body, env⟩)
    | .apply function argument => do
      let (f, h) ← eval now fuel function env h
      let (a, h) ← eval now fuel argument env h
      apply now fuel f a h
    | .pair head tail => do
      let (a, h) ← eval now fuel head env h
      let (b, h) ← eval now fuel tail env h
      return (.pair a b, h)
    | .choose subject arms => do
      let (v, h) ← eval now fuel subject env h
      choose now fuel arms v env h
    | .cond left right yes no => do
      let (layer, h) := h.newLayer env
      let (ok, h) ← unify now fuel left right layer h
      if ok then eval now fuel yes layer h else eval now fuel no env h
    | .block vars body => some (h.newBlock ⟨vars, body, env⟩)
    | .now => some (now.toValue, h)
    | .self => some (.ofActor? env.self?, h)
    | .new _ => none

/-- The value of a function applied to an argument; what is no function answers `?`. -/
def apply (now : Millis) : Nat → Value → Value → Heap → Option (Value × Heap)
  | 0, _, _, _ => none
  | fuel + 1, f, a, h =>
    match f with
    | .closure ref =>
      match h.closures[ref]? with
      | some c => do
        let (layer, h) := h.newLayer c.env
        let (ok, h) ← fit now fuel c.param a layer h
        if ok then eval now fuel c.body layer h else return (.undefined, h)
      | none => some (.undefined, h)
    | .native f =>
      match h.natives[f.index]? with
      | some f => some (h.call f a)
      | none => some (.undefined, h)
    | _ => some (.undefined, h)

/-- The value of the first arm that matches; without one the choice is `?`. -/
def choose (now : Millis) : Nat → Arms → Value → Env → Heap → Option (Value × Heap)
  | 0, _, _, _, _ => none
  | fuel + 1, arms, v, env, h =>
    match arms with
    | .nil => some (.undefined, h)
    | .cons p body rest => do
      let (layer, h) := h.newLayer env
      let (ok, h) ← fit now fuel p v layer h
      if ok then eval now fuel body layer h else choose now fuel rest v env h

/-- The value of a pattern that stands for one; names, pairs and the pattern that matches everything
do not. -/
def constant (now : Millis) : Nat → Pattern → Env → Heap → Option (Value × Heap)
  | 0, _, _, _ => none
  | fuel + 1, p, env, h =>
    match p with
    | .const v => some (v, h)
    | .value e => eval now fuel e env h
    | .self => some (.ofActor? env.self?, h)
    | .any | .ident _ | .pair .. => none

/-- Whether a pattern matches a value. -/
def fit (now : Millis) : Nat → Pattern → Value → Env → Heap → Option (Bool × Heap)
  | 0, _, _, _, _ => none
  | fuel + 1, p, v, env, h =>
    match p with
    | .any => some (true, h)
    | .ident name =>
      let (ok, _, h) := h.bind name v env
      some (ok, h)
    | .pair ph pt =>
      match v with
      | .pair a b => do
        let (ok, h) ← fit now fuel ph a env h
        if ok then fit now fuel pt b env h else return (false, h)
      | _ => some (false, h)
    | p => do
      let (w, h) ← constant now fuel p env h
      return (w == v, h)

/-- Whether two patterns unify. -/
def unify (now : Millis) : Nat → Pattern → Pattern → Env → Heap → Option (Bool × Heap)
  | 0, _, _, _, _ => none
  | fuel + 1, left, right, env, h =>
    match left with
    | .any | .ident _ => unifyName now fuel right left env h
    | .pair .. => unifyPair now fuel right left env h
    | left => do
      let (v, h) ← constant now fuel left env h
      fit now fuel right v env h

/-- Unifies with a left side that is a name or matches everything. -/
def unifyName (now : Millis) : Nat → Pattern → Pattern → Env → Heap → Option (Bool × Heap)
  | 0, _, _, _, _ => none
  | fuel + 1, right, left, env, h =>
    match right with
    | .any | .ident _ => some (false, h)
    | .pair .. => do
      let (v?, h) ← resolve now fuel right env h
      match v? with
      | some v => fit now fuel left v env h
      | none => return (false, h)
    | right => do
      let (v, h) ← constant now fuel right env h
      fit now fuel left v env h

/-- Unifies with a left side that is a pair. -/
def unifyPair (now : Millis) : Nat → Pattern → Pattern → Env → Heap → Option (Bool × Heap)
  | 0, _, _, _, _ => none
  | fuel + 1, right, left, env, h =>
    match right with
    | .any | .ident _ => unifyName now fuel left right env h
    | .pair rh rt =>
      match left with
      | .pair lh lt => do
        let (ok, h) ← unify now fuel lh rh env h
        if ok then unify now fuel lt rt env h else return (false, h)
      | _ => some (false, h)
    | right => do
      let (v, h) ← constant now fuel right env h
      fit now fuel left v env h

/-- The value that a pattern stands for, if it stands for one. -/
def resolve (now : Millis) : Nat → Pattern → Env → Heap → Option (Option Value × Heap)
  | 0, _, _, _ => none
  | fuel + 1, p, env, h =>
    match p with
    | .any | .ident _ => some (none, h)
    | .pair ph pt => do
      let (a?, h) ← resolve now fuel ph env h
      let (b?, h) ← resolve now fuel pt env h
      match a?, b? with
      | some a, some b => return (some (.pair a b), h)
      | _, _ => return (none, h)
    | p => do
      let (v, h) ← constant now fuel p env h
      return (if v.isUndefined then none else some v, h)

end

end Reference

/-! ### Small steps to a value -/

namespace Evaluation

variable {cx : Context} {k : Goal} {f f1 f' : Evaluation g} {h1 h' : Heap}

/-- Small steps lead from one tree to the other. Only the heap changes. -/
def Gets (cx : Context) (f : Evaluation g) (c : Core) (f' : Evaluation g) (h' : Heap) : Prop :=
  ∃ n, Steps cx n f c f' [] { c with heap := h' }

namespace Gets

lemma refl (cx : Context) (f : Evaluation g) (c : Core) : Gets cx f c f c.heap := ⟨0, .refl f c⟩

lemma trans (first : Gets cx f c f1 h1) (second : Gets cx f1 { c with heap := h1 } f' h') :
    Gets cx f c f' h' := by
  obtain ⟨n, hn⟩ := first
  obtain ⟨m, hm⟩ := second
  exact ⟨_, hn.trans hm⟩

lemma cons {c1 : Core} (first : Micro cx f c f1 [] c1) (core : c1 = { c with heap := h1 })
    (rest : Gets cx f1 { c with heap := h1 } f' h') : Gets cx f c f' h' := by
  subst core
  exact trans ⟨1, .single first⟩ rest

lemma start {job : Job g} (rest : Gets cx (job.begin cx c.store).1.flat
      { c with heap := (job.begin cx c.store).2.heap } f' h')
    (core : (job.begin cx c.store).2.core = { c with heap := (job.begin cx c.store).2.heap }) :
    Gets cx (.start job) c f' h' :=
  cons (.start job c) core rest

lemma resume {r : k.Result} {frame : Frame k g} (rest : Gets cx (frame.resume r cx c.store).1.flat
      { c with heap := (frame.resume r cx c.store).2.heap } f' h')
    (core : (frame.resume r cx c.store).2.core =
      { c with heap := (frame.resume r cx c.store).2.heap }) :
    Gets cx (.one (.done r) frame) c f' h' :=
  cons (.resume r frame c) core rest

lemma one {part part' : Evaluation k} (frame : Frame k g) (inner : Gets cx part c part' h1) :
    Gets cx (.one part frame) c (.one part' frame) h1 :=
  inner.imp fun _ hn => hn.map (.one · frame) (.one frame)

lemma bothLeft {left left' : Evaluation k} (right : Evaluation k) (join : Join k g)
    (inner : Gets cx left c left' h1) : Gets cx (.both left right join) c
    (.both left' right join) h1 :=
  inner.imp fun _ hn => hn.map (.both · right join) (.bothLeft right join)

lemma bothRight (left : Evaluation k) {right right' : Evaluation k} (join : Join k g)
    (inner : Gets cx right c right' h1) : Gets cx (.both left right join) c
    (.both left right' join) h1 :=
  inner.imp fun _ hn => hn.map (.both left · join) (.bothRight left join)

end Gets

end Evaluation

namespace Reference

open Evaluation (Gets)

/-- Applying a function changes the heap only. -/
lemma core_enter (f a : Value) (depth : Nat)
    (frame : Expr → Place → Frame .verdict .value) (c : Core) :
    (f.enter a depth c.store frame).2.core =
      { c with heap := (f.enter a depth c.store frame).2.heap } := by
  cases f with
  | closure ref =>
    simp only [Value.enter]
    cases c.store.heap.closures[ref]? <;> rfl
  | native f =>
    simp only [Value.enter]
    cases c.store.heap.natives[f.index]? <;> rfl
  | _ => rfl

lemma core_try (arms : Arms) (v : Value) (here : Place) (c : Core) :
    (arms.try v here c.store).2.core = { c with heap := (arms.try v here c.store).2.heap } := by
  cases arms <;> rfl

/-- Small steps do what the reference says, up to this fuel. -/
structure Simulated (cx : Context) (fuel : Nat) : Prop where
  eval : ∀ {e env v h'} (c : Core), eval cx.now fuel e env c.heap = some (v, h') →
    Gets cx (.start (.eval e ⟨env, 0⟩)) c (.done v) h'
  enter : ∀ {f a v h'} (c : Core) (frame : Expr → Place → Frame .verdict .value),
    frame = .enter ∨ frame = .nested → apply cx.now fuel f a c.heap = some (v, h') →
      Gets cx (f.enter a 0 c.store frame).1.flat
        { c with heap := (f.enter a 0 c.store frame).2.heap } (.done v) h'
  choose : ∀ {arms v env w h'} (c : Core), choose cx.now fuel arms v env c.heap = some (w, h') →
    Gets cx (arms.try v ⟨env, 0⟩ c.store).1.flat
      { c with heap := (arms.try v ⟨env, 0⟩ c.store).2.heap } (.done w) h'
  constant : ∀ {g p env v h'} (c : Core) (frame : Frame .value g) (otherwise : g.Result),
    constant cx.now fuel p env c.heap = some (v, h') →
      (p.withConstant cx ⟨env, 0⟩ c.store frame otherwise).2 = c.store ∧
      Gets cx (p.withConstant cx ⟨env, 0⟩ c.store frame otherwise).1.flat c
      (.one (.done v) frame.flat) h'
  fit : ∀ {p v env ok h'} (c : Core), fit cx.now fuel p v env c.heap = some (ok, h') →
    Gets cx (.start (.fit p v ⟨env, 0⟩)) c (.done ok) h'
  unify : ∀ {l r env ok h'} (c : Core), unify cx.now fuel l r env c.heap = some (ok, h') →
    Gets cx (.start (.unify l r ⟨env, 0⟩)) c (.done ok) h'
  unifyName : ∀ {l r env ok h'} (c : Core), unifyName cx.now fuel r l env c.heap = some (ok, h') →
    Gets cx (.start (.unifyName r l ⟨env, 0⟩)) c (.done ok) h'
  unifyPair : ∀ {l r env ok h'} (c : Core), unifyPair cx.now fuel r l env c.heap = some (ok, h') →
    Gets cx (.start (.unifyPair r l ⟨env, 0⟩)) c (.done ok) h'
  resolve : ∀ {p env v? h'} (c : Core), resolve cx.now fuel p env c.heap = some (v?, h') →
    Gets cx (.start (.resolve p ⟨env, 0⟩)) c (.done v?) h'

variable {cx : Context} {fuel : Nat} {env : Env} {h' : Heap}

namespace Simulated

/-- Nothing has a value without fuel. -/
lemma zero (cx : Context) : Simulated cx 0 := by
  constructor
  all_goals
    intros
    rename_i h
    simp [Reference.eval, Reference.apply, Reference.choose, Reference.constant, Reference.fit,
      Reference.unify, Reference.unifyName, Reference.unifyPair, Reference.resolve] at h

variable (ih : Simulated cx fuel)
include ih

lemma eval_succ {e : Expr} (c : Core)
    (h : Reference.eval cx.now (fuel + 1) e env c.heap = some (v, h')) :
    Gets cx (.start (.eval e ⟨env, 0⟩)) c (.done v) h' := by
  cases e with
  | const | now | self =>
    cases h
    exact .start (.refl cx _ c) rfl
  | ident name =>
    simp only [Reference.eval] at h
    split at h
    · rename_i w hw
      cases h
      have hfind : (env.find name c.store).flat = .done v := by
        simp only [Env.find, Core.store, hw]
        rfl
      refine .start ?_ rfl
      exact hfind ▸ .refl cx _ c
    · cases h
  | lambda | block =>
    cases h
    exact .start (.refl cx _ _) rfl
  | apply function argument =>
    simp only [Reference.eval, bind_eq_bind, bind_eq_some_iff] at h
    obtain ⟨⟨f, h1⟩, hf, ⟨a, h2⟩, ha, happly⟩ := h
    refine .start (.trans (.bothLeft _ _ (ih.eval c hf)) ?_) rfl
    refine .trans (.bothRight _ _ (ih.eval { c with heap := h1 } ha)) ?_
    exact .cons (.join f a (.apply 0) _) (core_enter f a 0 .enter { c with heap := h2 })
      (ih.enter { c with heap := h2 } .enter (.inl rfl) happly)
  | pair head tail =>
    simp only [Reference.eval, bind_eq_bind, bind_eq_some_iff] at h
    obtain ⟨⟨a, h1⟩, ha, ⟨b, h2⟩, hb, hpair⟩ := h
    cases hpair
    refine .start (.trans (.bothLeft _ _ (ih.eval c ha)) ?_) rfl
    refine .trans (.bothRight _ _ (ih.eval { c with heap := h1 } hb)) ?_
    exact .cons (.join a b .pair _) rfl (.refl cx _ _)
  | choose subject arms =>
    simp only [Reference.eval, bind_eq_bind, bind_eq_some_iff] at h
    obtain ⟨⟨w, h1⟩, hw, harms⟩ := h
    refine .start (.trans (.one _ (ih.eval c hw)) ?_) rfl
    exact .resume (ih.choose { c with heap := h1 } harms) (core_try arms w _ { c with heap := h1 })
  | cond left right yes no =>
    simp only [Reference.eval, bind_eq_bind, bind_eq_some_iff] at h
    obtain ⟨⟨ok, h1⟩, hok, hbranch⟩ := h
    refine .start (.trans (.one _ (ih.unify { c with heap := (c.heap.newLayer env).2 } hok)) ?_) rfl
    refine .resume ?_ rfl
    cases ok with
    | true | false => exact ih.eval { c with heap := h1 } hbranch
  | new behavior => cases h

lemma enter_succ {f a : Value} (c : Core) (frame : Expr → Place → Frame .verdict .value)
    (hframe : frame = .enter ∨ frame = .nested)
    (h : Reference.apply cx.now (fuel + 1) f a c.heap = some (v, h')) :
    Gets cx (f.enter a 0 c.store frame).1.flat { c with heap := (f.enter a 0 c.store frame).2.heap }
      (.done v) h' := by
  have hstore : c.store.heap = c.heap := rfl
  cases f with
  | closure ref =>
    simp only [Reference.apply] at h
    simp only [Value.enter, hstore]
    cases hc : c.heap.closures[ref]? with
    | none =>
      rw [hc] at h
      cases h
      exact .refl cx _ c
    | some closure =>
      simp only [hc, bind_eq_bind, bind_eq_some_iff] at h
      obtain ⟨⟨ok, h1⟩, hok, hbody⟩ := h
      have hfit := ih.fit { c with heap := (c.heap.newLayer closure.env).2 } hok
      rcases hframe with rfl | rfl
      all_goals
        refine .trans (.one _ hfit) ?_
        cases ok with
        | true => exact .resume (ih.eval { c with heap := h1 } hbody) rfl
        | false =>
          cases hbody
          exact .resume (.refl cx _ _) rfl
  | native f =>
    simp only [Reference.apply] at h
    simp only [Value.enter, hstore]
    cases hf : c.heap.natives[f.index]? with
    | none =>
      rw [hf] at h
      cases h
      exact .refl cx _ c
    | some f =>
      simp only [hf, some.injEq] at h
      obtain rfl : (c.heap.call f a).1 = v := by rw [h]
      obtain rfl : (c.heap.call f a).2 = h' := by rw [h]
      exact .refl cx (.done (g := .value) (c.heap.call f a).1)
        { c with heap := (c.heap.call f a).2 }
  | _ =>
    cases h
    exact .refl cx _ c

lemma choose_succ {arms : Arms} {w : Value} (c : Core)
    (h : Reference.choose cx.now (fuel + 1) arms v env c.heap = some (w, h')) :
    Gets cx (arms.try v ⟨env, 0⟩ c.store).1.flat
      { c with heap := (arms.try v ⟨env, 0⟩ c.store).2.heap } (.done w) h' := by
  cases arms with
  | nil =>
    cases h
    exact .refl cx _ c
  | cons p body rest =>
    simp only [Reference.choose, bind_eq_bind, bind_eq_some_iff] at h
    obtain ⟨⟨ok, h1⟩, hok, hnext⟩ := h
    refine .trans (.one _ (ih.fit { c with heap := (c.heap.newLayer env).2 } hok)) ?_
    cases ok with
    | true => exact .resume (ih.eval { c with heap := h1 } hnext) rfl
    | false =>
      exact .resume (ih.choose { c with heap := h1 } hnext)
        (core_try rest v _ { c with heap := h1 })

lemma constant_succ (c : Core) (frame : Frame .value g) (otherwise : g.Result)
    (h : Reference.constant cx.now (fuel + 1) p env c.heap = some (v, h')) :
    (p.withConstant cx ⟨env, 0⟩ c.store frame otherwise).2 = c.store ∧
      Gets cx (p.withConstant cx ⟨env, 0⟩ c.store frame otherwise).1.flat c
      (.one (.done v) frame.flat) h' := by
  cases p with
  | const | self =>
    cases h
    exact ⟨rfl, .refl cx _ c⟩
  | value e => exact ⟨rfl, .one _ (ih.eval c h)⟩
  | _ => cases h

/-- Goes on with the value of a pattern that stands for one. -/
lemma with_constant {job : Job g} {f' : Evaluation g} {h1 : Heap} (c : Core)
    (frame : Frame .value g) (otherwise : g.Result)
    (hjob : job.begin cx c.store = p.withConstant cx ⟨env, 0⟩ c.store frame otherwise)
    (h : Reference.constant cx.now fuel p env c.heap = some (v, h1))
    (rest : Gets cx (.one (.done v) frame.flat) { c with heap := h1 } f' h') :
    Gets cx (.start job) c f' h' := by
  obtain ⟨hstore, hgets⟩ := ih.constant c frame otherwise h
  have hcore : (job.begin cx c.store).2.core = c := by rw [hjob, hstore]; rfl
  refine .cons (.start job c) hcore ?_
  rw [hjob]
  exact hgets.trans rest

lemma fit_succ (c : Core) (h : Reference.fit cx.now (fuel + 1) p v env c.heap = some (ok, h')) :
    Gets cx (.start (.fit p v ⟨env, 0⟩)) c (.done ok) h' := by
  cases p with
  | any =>
    cases h
    exact .start (.refl cx _ c) rfl
  | ident name =>
    cases h
    exact .cons (.start (.fit (.ident name) v ⟨env, 0⟩) c) (c.store.core_bind name v env)
      (.refl cx _ _)
  | pair ph pt =>
    cases v with
    | pair a b =>
      simp only [Reference.fit, bind_eq_bind, bind_eq_some_iff] at h
      obtain ⟨⟨ok', h1⟩, hok, hnext⟩ := h
      refine .start (.trans (.one _ (ih.fit c hok)) ?_) rfl
      cases ok' with
      | true => exact .resume (ih.fit { c with heap := h1 } hnext) rfl
      | false =>
        cases hnext
        exact .resume (.refl cx _ _) rfl
    | _ =>
      cases h
      exact .start (.refl cx _ c) rfl
  | _ =>
    simp only [Reference.fit, bind_eq_bind, bind_eq_some_iff] at h
    obtain ⟨⟨w, h1⟩, hw, hok⟩ := h
    cases hok
    exact ih.with_constant c (.equals v) false rfl hw (.resume (.refl cx _ _) rfl)

/-- Goes on with a pattern that stands for a value, and matches the other side with it. -/
lemma fit_after {q : Pattern} {job : Job .verdict} (c : Core)
    (hjob : job.begin cx c.store = p.withConstant cx ⟨env, 0⟩ c.store (.fit q ⟨env, 0⟩) false)
    (h : (Reference.constant cx.now fuel p env c.heap).bind
      (fun x => Reference.fit cx.now fuel q x.1 env x.2) = some (ok, h')) :
    Gets cx (.start job) c (.done ok) h' := by
  obtain ⟨⟨w, h1⟩, hw, hok⟩ := bind_eq_some_iff.1 h
  exact ih.with_constant c _ _ hjob hw (.resume (ih.fit { c with heap := h1 } hok) rfl)

lemma unify_succ (c : Core) (h : Reference.unify cx.now (fuel + 1) l r env c.heap = some (ok, h')) :
    Gets cx (.start (.unify l r ⟨env, 0⟩)) c (.done ok) h' := by
  cases l with
  | any | ident => exact .start (ih.unifyName c h) rfl
  | pair lh lt => exact .start (ih.unifyPair c h) rfl
  | _ => exact ih.fit_after c rfl h

lemma unifyName_succ (c : Core)
    (h : Reference.unifyName cx.now (fuel + 1) r l env c.heap = some (ok, h')) :
    Gets cx (.start (.unifyName r l ⟨env, 0⟩)) c (.done ok) h' := by
  cases r with
  | any | ident =>
    cases h
    exact .start (.refl cx _ c) rfl
  | pair rh rt =>
    simp only [Reference.unifyName, bind_eq_bind, bind_eq_some_iff] at h
    obtain ⟨⟨v?, h1⟩, hv, hnext⟩ := h
    refine .start (.trans (.one _ (ih.resolve c hv)) ?_) rfl
    cases v? with
    | some v => exact .resume (ih.fit { c with heap := h1 } hnext) rfl
    | none =>
      cases hnext
      exact .resume (.refl cx _ _) rfl
  | _ => exact ih.fit_after c rfl h

lemma unifyPair_succ (c : Core)
    (h : Reference.unifyPair cx.now (fuel + 1) r l env c.heap = some (ok, h')) :
    Gets cx (.start (.unifyPair r l ⟨env, 0⟩)) c (.done ok) h' := by
  cases r with
  | any | ident => exact .start (ih.unifyName c h) rfl
  | pair rh rt =>
    cases l with
    | pair lh lt =>
      simp only [Reference.unifyPair, bind_eq_bind, bind_eq_some_iff] at h
      obtain ⟨⟨ok', h1⟩, hok, hnext⟩ := h
      refine .start (.trans (.one _ (ih.unify c hok)) ?_) rfl
      cases ok' with
      | true => exact .resume (ih.unify { c with heap := h1 } hnext) rfl
      | false =>
        cases hnext
        exact .resume (.refl cx _ _) rfl
    | _ =>
      cases h
      exact .start (.refl cx _ c) rfl
  | _ => exact ih.fit_after c rfl h

lemma resolve_succ {v? : Option Value} (c : Core)
    (h : Reference.resolve cx.now (fuel + 1) p env c.heap = some (v?, h')) :
    Gets cx (.start (.resolve p ⟨env, 0⟩)) c (.done v?) h' := by
  cases p with
  | any | ident =>
    cases h
    exact .start (.refl cx _ c) rfl
  | pair ph pt =>
    simp only [Reference.resolve, bind_eq_bind, bind_eq_some_iff] at h
    obtain ⟨⟨a?, h1⟩, ha, ⟨b?, h2⟩, hb, hpair⟩ := h
    refine .start (.trans (.bothLeft _ _ (ih.resolve c ha)) ?_) rfl
    refine .trans (.bothRight _ _ (ih.resolve { c with heap := h1 } hb)) ?_
    cases a? <;> cases b? <;> cases hpair <;>
      exact .cons (.join _ _ .meanings _) rfl (.refl cx _ _)
  | _ =>
    simp only [Reference.resolve, bind_eq_bind, bind_eq_some_iff] at h
    obtain ⟨⟨v, h1⟩, hv, hv?⟩ := h
    cases hv?
    exact ih.with_constant c .known none rfl hv (.resume (.refl cx _ _) rfl)

lemma succ : Simulated cx (fuel + 1) where
  eval c := ih.eval_succ c
  enter c frame := ih.enter_succ c frame
  choose c := ih.choose_succ c
  constant c frame otherwise := ih.constant_succ c frame otherwise
  fit c := ih.fit_succ c
  unify c := ih.unify_succ c
  unifyName c := ih.unifyName_succ c
  unifyPair c := ih.unifyPair_succ c
  resolve c := ih.resolve_succ c

end Simulated

/-- Small steps do what the reference says. -/
theorem simulated (cx : Context) (fuel : Nat) : Simulated cx fuel := by
  induction fuel with
  | zero => exact .zero cx
  | succ fuel ih => exact ih.succ

/-- Small steps to the value of an expression. -/
theorem eval_gets (fuel : Nat) {e : Expr} (h : eval cx.now fuel e env c.heap = some (v, h')) :
    Gets cx (.start (.eval e ⟨env, 0⟩)) c (.done v) h' :=
  (simulated cx fuel).eval c h

/-- Small steps to the value of a function applied to an argument. -/
theorem apply_gets (fuel : Nat) {f a : Value} (h : apply cx.now fuel f a c.heap = some (v, h')) :
    Gets cx (.start (.apply f a 0)) c (.done v) h' :=
  .cons (.start (.apply f a 0) c) (core_enter f a 0 .nested c)
    ((simulated cx fuel).enter c .nested (.inr rfl) h)

end Reference

end Troupe
