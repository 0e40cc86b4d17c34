import Troupe.Proofs.FailureRecords
import Troupe.Proofs.Forest

/-!
What evaluations hold, and what steps make of it.

An evaluation holds code, with the environments in which it is to be run, and values (`Item`). A
step takes the code apart and looks things up (`Item.Yields`), and it makes at most one thing: a
frame, a function, a block, a binding or an address (`Item.Gain`). Whatever it leaves, and asks of
its transaction, was held before, or comes with what was made.

So a property of all that is held is kept by every run if it is kept by these few rules.

* `Evaluation.Micro.turns`: small steps.
* `Evaluation.Forest.keeps_items`: small steps on all trees of a task.
-/

namespace Troupe

open Evaluation List Store Subset

variable {g : Goal} {e : Expr} {cx : Context}

/-- Something that an evaluation holds. -/
inductive Item where
  | eval (e : Expr) (env : Env)
  | exec (stmt : Stmt) (env : Env)
  /-- A pattern that binds names. -/
  | bind (p : Pattern) (env : Env)
  /-- A pattern that stands for a value. -/
  | resolve (p : Pattern) (env : Env)
  | choice (arms : Arms) (env : Env)
  /-- Patterns that bind names on a new layer, and the expression that is evaluated there. -/
  | opens (ps : List Pattern) (e : Expr) (env : Env)
  | block (b : Block)
  /-- Where a block is run. -/
  | run (caller : Env)
  /-- Which actor runs the block that a behavior gives. -/
  | perform (self : ActorId) (env : Env)
  /-- The address of a new actor. -/
  | init (id : ActorId) (env : Env)
  | keeps (env : Env)
  | value (v : Value)
  | slot (slot : Nat)

/-! ### What is held -/

/-- What an answer holds. -/
def Goal.items : {g : Goal} → g.Result → List Item
  | .value, v => [.value v]
  | .meaning, some v => [.value v]
  | .outcome, .become v => [.value v]
  | _, _ => []

/-- Answers hold values. -/
lemma Goal.exists_value_of_mem {r : g.Result} {i : Item} (hi : i ∈ Goal.items r) :
    ∃ v, i = .value v := by
  unfold Goal.items at hi
  split at hi
  · exact ⟨_, mem_singleton.1 hi⟩
  · exact ⟨_, mem_singleton.1 hi⟩
  · exact ⟨_, mem_singleton.1 hi⟩
  · cases hi

/-- What a job holds. -/
def Job.items : {g : Goal} → Job g → List Item
  | _, .eval e here => [.eval e here.env]
  | _, .apply f a _ => [.value f, .value a]
  | _, .exec stmt here => [.exec stmt here.env]
  | _, .publish b caller => [.block b, .run caller.env]
  | _, .deliver behavior message self _ here =>
    [.value behavior, .value message, .perform self here.env]
  | _, .fit p v here => [.bind p here.env, .value v]
  | _, .unify left right here => [.bind left here.env, .bind right here.env]
  | _, .unifyName right left here => [.bind right here.env, .bind left here.env]
  | _, .unifyPair right left here => [.bind right here.env, .bind left here.env]
  | _, .resolve p here => [.resolve p here.env]

/-- What a frame holds. -/
def Frame.items : {g k : Goal} → Frame g k → List Item
  | _, _, .choose arms here => [.choice arms here.env]
  | _, _, .arm body layer rest subject here =>
    [.eval body layer, .choice rest here.env, .value subject]
  | _, _, .branch yes layer no here => [.eval yes layer, .eval no here.env]
  | _, _, .enter body layer => [.eval body layer.env]
  | _, _, .nested body layer => [.eval body layer.env]
  | _, _, .new env => [.keeps env]
  | _, _, .equals v => [.value v]
  | _, _, .fit p here => [.bind p here.env]
  | _, _, .resolved p here => [.bind p here.env]
  | _, _, .fitTail p v here => [.bind p here.env, .value v]
  | _, _, .unifyTail left right here => [.bind left here.env, .bind right here.env]
  | _, _, .define p here => [.bind p here.env]
  | _, _, .defined v => [.value v]
  | _, _, .delay message target here => [.eval message here.env, .eval target here.env]
  | _, _, .init id _ env => [.init id env]
  | _, _, .run here => [.run here.env]
  | _, _, .perform self _ here => [.perform self here.env]
  | _, _, .offer _ env => [.keeps env]
  | _, _, .known | _, _, .equated | _, _, .become | _, _, .throw => []

/-- What an evaluation holds. -/
def Evaluation.items : {g : Goal} → Evaluation g → List Item
  | _, .done r => Goal.items r
  | _, .start job => job.items
  | _, .parked slot => [.slot slot]
  | _, .awaiting _ => []
  | _, .one part frame => part.items ++ frame.items
  | _, .both left right _ => left.items ++ right.items
  | _, .race left right => left.items ++ right.items

/-- What a request holds. -/
def Request.items : Request → List Item
  | .init a => [.init a.id a.env, .value a.behavior]
  | .send message target _ => [.value message, .value target]
  | .define _ v => [.value v]
  | .throw exception => [.value exception]

/-- Depths are not held. -/
@[simp] lemma items_flat (e : Evaluation g) : e.flat.items = e.items := by
  induction e with
  | start job => cases job <;> rfl
  | one part frame ih => exact congrArg₂ (· ++ ·) ih (by cases frame <;> rfl)
  | both left right join ih1 ih2 | race left right ih1 ih2 => exact congrArg₂ (· ++ ·) ih1 ih2
  | _ => rfl

/-! ### What steps make of it -/

/-- The frame of a block that the actor runs, and the heap with it. -/
def Heap.enact (h : Heap) (b : Block) (self : ActorId) (base : Env) : Env × Heap :=
  let (caller, h) := h.newActor self base
  h.newScope b.env caller b.vars

/-- The parts of an item. -/
def Item.subs : Item → List Item
  | .eval (.const v) _ => [.value v]
  | .eval (.lambda param body) env => [.opens [param] body env]
  | .eval (.apply function argument) env => [.eval function env, .eval argument env]
  | .eval (.pair head tail) env => [.eval head env, .eval tail env]
  | .eval (.choose subject arms) env => [.eval subject env, .choice arms env]
  | .eval (.cond left right yes no) env => [.opens [left, right] yes env, .eval no env]
  | .eval (.block vars body) env => [.block ⟨vars, body, env⟩]
  | .eval .self env => [.value (.ofActor? env.self?)]
  | .eval (.new behavior) env => [.eval behavior env, .keeps env]
  | .exec (.seq first second) env => [.exec first env, .exec second env]
  | .exec (.define p e) env => [.bind p env, .eval e env]
  | .exec (.equate left right) env => [.bind left env, .bind right env]
  | .exec (.send message target) env => [.eval target env, .eval message env]
  | .exec (.after delay message target) env =>
    [.eval delay env, .eval message env, .eval target env]
  | .exec (.create name behavior) env => [.bind (.ident name) env, .eval behavior env]
  | .exec (.become behavior) env => [.eval behavior env]
  | .exec (.throw exception) env => [.eval exception env]
  | .exec (.expr e) env => [.eval e env, .run env]
  | .bind (.pair head tail) env => [.bind head env, .bind tail env, .resolve (.pair head tail) env]
  | .bind p env => [.resolve p env]
  | .resolve (.const v) _ => [.value v]
  | .resolve (.value e) env => [.eval e env]
  | .resolve (.pair head tail) env => [.resolve head env, .resolve tail env]
  | .resolve .self env => [.value (.ofActor? env.self?)]
  | .choice (.cons p body rest) env => [.opens [p] body env, .choice rest env]
  | .value (.pair head tail) => [.value head, .value tail]
  | _ => []

namespace Item

/-- What can be had from the items in `I` without a change. -/
inductive Yields (h : Heap) (I : List Item) : Item → Prop where
  | keep {i : Item} (hi : i ∈ I) : Yields h I i
  | sub {i j : Item} (hi : Yields h I i) (hj : j ∈ i.subs) : Yields h I j
  | found {name : String} {env : Env} {v : Value} (hi : Yields h I (.eval (.ident name) env))
      (found : h.lookup name env = .value v) : Yields h I (.value v)
  | missed {name : String} {env : Env} {slot : Nat} (hi : Yields h I (.eval (.ident name) env))
      (missed : h.lookup name env = .unbound slot) : Yields h I (.slot slot)
  /-- A variable is offered as a definition. -/
  | offered {name : String} {env : Env} {v : Value} (hi : Yields h I (.keeps env))
      (found : h.lookup? name env = some v) : Yields h I (.value v)
  | read {slot : Nat} {v : Value} (hi : Yields h I (.slot slot)) (bound : h.slot? slot = some v) :
      Yields h I (.value v)
  | closure {ref : ClosureRef} {c : Closure} (hi : Yields h I (.value (.closure ref)))
      (found : h.closures[ref]? = some c) : Yields h I (.opens [c.param] c.body c.env)
  | block {v : Value} {b : Block} (hi : Yields h I (.value v)) (found : h.block? v = some b) :
      Yields h I (.block b)
  | pair {v w : Value} (hv : Yields h I (.value v)) (hw : Yields h I (.value w)) :
      Yields h I (.value (.pair v w))
  | undefined : Yields h I (.value .undefined)
  | symbol (name : String) : Yields h I (.value (.symbol name))
  | number (n : Int64) : Yields h I (.value (.number n))

/-- The one thing that is made from the items in `I`, and the items that come with it. -/
inductive Gain (s : Store) (I : List Item) (h : Heap) (ids : IdSource) : List Item → Prop where
  | still (heap : h = s.heap) (same : ids = s.ids) : Gain s I h ids []
  | layer {ps : List Pattern} {e : Expr} {env : Env} (hi : Yields s.heap I (.opens ps e env))
      (heap : h = (s.heap.newLayer env).2) (same : ids = s.ids) :
      Gain s I h ids (.eval e (s.heap.newLayer env).1 :: ps.map (.bind · (s.heap.newLayer env).1))
  | closure {p : Pattern} {e : Expr} {env : Env} (hi : Yields s.heap I (.opens [p] e env))
      (heap : h = (s.heap.newClosure ⟨p, e, env⟩).2) (same : ids = s.ids) :
      Gain s I h ids [.value (.closure s.heap.closures.size)]
  | block {b : Block} (hi : Yields s.heap I (.block b)) (heap : h = (s.heap.newBlock b).2)
      (same : ids = s.ids) : Gain s I h ids [.value (.block s.heap.blocks.size)]
  | native {ref : NativeRef} {f : Native} {v : Value} (hi : Yields s.heap I (.value (.native ref)))
      (found : s.heap.natives[ref.index]? = some f) (hv : Yields s.heap I (.value v))
      (heap : h = (s.heap.call f v).2) (same : ids = s.ids) :
      Gain s I h ids [.value (s.heap.call f v).1]
  | bind {name : String} {env : Env} {v : Value} (hi : Yields s.heap I (.bind (.ident name) env))
      (hv : Yields s.heap I (.value v)) (heap : h = (s.heap.bind name v env).2.2)
      (same : ids = s.ids) : Gain s I h ids []
  | create {name : String} {env : Env} (hi : Yields s.heap I (.bind (.ident name) env))
      (heap : h = (s.heap.bind name (.actor s.reserve.1) env).2.2)
      (next : ids = s.reserve.2.ids) : Gain s I h ids [.init s.reserve.1 env]
  | new {env : Env} (hi : Yields s.heap I (.keeps env)) (heap : h = s.heap)
      (next : ids = s.reserve.2.ids) :
      Gain s I h ids [.init s.reserve.1 env, .value (.actor s.reserve.1)]
  | scope {b : Block} {caller : Env} (hb : Yields s.heap I (.block b))
      (hi : Yields s.heap I (.run caller))
      (heap : h = (s.heap.newScope b.env caller b.vars).2) (same : ids = s.ids) :
      Gain s I h ids [.exec b.body (s.heap.newScope b.env caller b.vars).1,
        .keeps (s.heap.newScope b.env caller b.vars).1]
  | actor {self : ActorId} {env : Env} (hi : Yields s.heap I (.perform self env))
      (heap : h = (s.heap.newActor self env).2) (same : ids = s.ids) :
      Gain s I h ids [.run (s.heap.newActor self env).1]
  | enact {b : Block} {self : ActorId} {env : Env} (hb : Yields s.heap I (.block b))
      (hi : Yields s.heap I (.perform self env)) (heap : h = (s.heap.enact b self env).2)
      (same : ids = s.ids) : Gain s I h ids [.exec b.body (s.heap.enact b self env).1]

/-- A step that holds `I` leaves, and asks for, what is in `J`. -/
def Turn (s : Store) (I J : List Item) (s' : Store) : Prop :=
  ∃ N, Gain s I s'.heap s'.ids N ∧ ∀ j ∈ J, Yields s.heap I j ∨ j ∈ N

end Item

/-! ### Steps -/

namespace Item.Turn

variable {s s' : Store} {I J : List Item}

/-- A step that makes nothing. -/
lemma still (heap : s'.heap = s.heap) (ids : s'.ids = s.ids) (hJ : ∀ j ∈ J, Yields s.heap I j) :
    Turn s I J s' :=
  ⟨[], .still heap ids, fun j hj => .inl (hJ j hj)⟩

lemma subset {J' : List Item} (h : Turn s I J s') (hJ : J' ⊆ J) : Turn s I J' s' := by
  obtain ⟨N, gain, hN⟩ := h
  exact ⟨N, gain, fun j hj => hN j (hJ hj)⟩

end Item.Turn

/-- A pattern may have to stand for a value instead. -/
lemma Item.Yields.resolve {h : Heap} {I : List Item} {p : Pattern} {env : Env}
    (hp : Yields h I (.bind p env)) : Yields h I (.resolve p env) := by
  cases p <;> exact .sub hp (by simp [subs])

section Steps

open Item

variable {s : Store} {here : Place}

lemma Store.heap_nest (s : Store) (cx : Context) (depth : Nat) (job : Nat → Job g) :
    (s.nest cx depth job).2.heap = s.heap := by
  unfold nest
  split <;> rfl

lemma Stmt.heap_nest (stmt : Stmt) (cx : Context) (here : Place) (s : Store) :
    (stmt.nest cx here s).2.heap = s.heap := Store.heap_nest ..

/-- What is run one level deeper. -/
lemma Store.items_nest {depth : Nat} {job : Nat → Job g} {I : List Item}
    (hI : ∀ depth, (job depth).items ⊆ I) : (s.nest cx depth job).1.items ⊆ I := by
  unfold nest
  split
  · exact hI _
  · exact nil_subset I

lemma Expr.items_nest (e : Expr) (cx : Context) (here : Place) (s : Store) :
    (e.nest cx here s).1.items ⊆ [.eval e here.env] :=
  Store.items_nest fun _ => refl _

lemma Stmt.items_nest (stmt : Stmt) (cx : Context) (here : Place) (s : Store) :
    (stmt.nest cx here s).1.items ⊆ [.exec stmt here.env] :=
  Store.items_nest fun _ => refl _

lemma Expr.mem_items_nestOne {frame : Frame .value g} {j : Item}
    (hj : j ∈ (one (e.nest cx here s).1 frame).items) : j = .eval e here.env ∨ j ∈ frame.items :=
  (mem_append.1 hj).imp_left fun hj => mem_singleton.1 (e.items_nest cx here s hj)

lemma Expr.nestOne_turn {I : List Item} {frame : Frame .value g}
    (he : Yields s.heap I (.eval e here.env)) (hframe : ∀ j ∈ frame.items, Yields s.heap I j) :
    Turn s I (one (e.nest cx here s).1 frame).items (e.nest cx here s).2 := by
  refine .still (s.heap_nest ..) (s.ids_nestExpr ..) fun j hj => ?_
  rcases Expr.mem_items_nestOne hj with rfl | hj
  · exact he
  · exact hframe j hj

lemma Expr.nestBoth_turn {I : List Item} {e' : Expr} {join : Join .value g}
    (he : Yields s.heap I (.eval e here.env)) (he' : Yields s.heap I (.eval e' here.env)) :
    Turn s I (both (e.nest cx here s).1 (e'.nest cx here (e.nest cx here s).2).1 join).items
      (e'.nest cx here (e.nest cx here s).2).2 := by
  refine .still ((heap_nest ..).trans (s.heap_nest ..))
    ((ids_nestExpr ..).trans (s.ids_nestExpr ..)) fun j hj => ?_
  rcases mem_append.1 hj with hj | hj
  · rwa [mem_singleton.1 (e.items_nest cx here s hj)]
  · rwa [mem_singleton.1 (e'.items_nest cx here _ hj)]

lemma Block.nest_turn {I : List Item} {b : Block} (hb : Yields s.heap I (.block b))
    (hi : Yields s.heap I (.run here.env)) :
    Turn s I ((b.nest cx here s).2.1.items ++ [.keeps (b.nest cx here s).1])
    (b.nest cx here s).2.2 := by
  have hheap : (b.nest cx here s).2.2.heap = (s.heap.newScope b.env here.env b.vars).2 :=
    b.body.heap_nest cx ⟨(s.heap.newScope b.env here.env b.vars).1, here.depth⟩ _
  refine ⟨_, .scope hb hi hheap (s.ids_nestBlock ..), fun j hj => .inr ?_⟩
  rcases mem_append.1 hj with hj | hj
  · exact mem_append_left _ (b.body.items_nest cx _ _ hj)
  · exact mem_append_right [_] hj

lemma Item.Turn.layer {I J : List Item} {ps : List Pattern} {e : Expr} {env : Env}
    (hi : Yields s.heap I (.opens ps e env)) (hJ : ∀ j ∈ J, Yields s.heap I j ∨
      j = .eval e (s.heap.newLayer env).1 ∨ ∃ p ∈ ps, j = .bind p (s.heap.newLayer env).1) :
    Turn s I J (s.onHeap (·.newLayer env)).2 := by
  refine ⟨_, .layer hi rfl rfl, fun j hj => (hJ j hj).imp_right ?_⟩
  rintro (rfl | ⟨p, hp, rfl⟩)
  · exact mem_cons_self
  · exact mem_cons_of_mem _ (mem_map_of_mem hp)

lemma Value.enter_turn {I : List Item} {function argument : Value}
    (hf : Yields s.heap I (.value function)) (ha : Yields s.heap I (.value argument)) (depth : Nat)
    {frame : Expr → Place → Frame .verdict .value}
    (hframe : ∀ body here, (frame body here).items = [.eval body here.env]) :
    Turn s I (function.enter argument depth s frame).1.items
      (function.enter argument depth s frame).2 := by
  have hnothing : Turn s I [.value .undefined] s := .still rfl rfl (by simp [Yields.undefined])
  unfold enter
  split
  · split
    · rename_i c hc
      refine .layer (.closure hf hc) ?_
      simp [Closure.open, onHeap, items, Job.items, hframe, ha]
    · exact hnothing
  · split
    · rename_i hfound
      exact ⟨_, .native hf hfound ha rfl rfl, fun j hj => .inr hj⟩
    · exact hnothing
  · exact hnothing

lemma Arms.try_turn {I : List Item} {arms : Arms} {subject : Value}
    (hi : Yields s.heap I (.choice arms here.env)) (hv : Yields s.heap I (.value subject)) :
    Turn s I (arms.try subject here s).1.items (arms.try subject here s).2 := by
  cases arms with
  | nil => exact .still rfl rfl (by simp [Arms.try, items, Goal.items, Yields.undefined])
  | cons p body rest =>
    have hrest : Yields s.heap I (.choice rest here.env) := .sub hi (by simp [subs])
    refine .layer (.sub hi mem_cons_self) ?_
    simp [Arms.try, onHeap, items, Job.items, Frame.items, hv, hrest]

lemma Millis.exists_toValue_eq (t : Millis) : ∃ n, t.toValue = .number n := by
  unfold toValue Value.ofInt? Value.int64?
  split <;> exact ⟨_, rfl⟩

lemma Expr.begin_turn (e : Expr) (cx : Context) (here : Place) (s : Store) :
    Turn s [.eval e here.env] (e.begin cx here s).1.items (e.begin cx here s).2 := by
  have part : ∀ j ∈ (Item.eval e here.env).subs, Yields s.heap [.eval e here.env] j := fun _ =>
    .sub (.keep mem_cons_self)
  cases e with
  | const | self => exact .still rfl rfl part
  | ident name =>
    refine .still rfl rfl ?_
    show ∀ j ∈ (here.env.find name s).items, _
    unfold Env.find
    split
    · rename_i found
      exact forall_mem_singleton.2 (.found (.keep mem_cons_self) found)
    · rename_i missed
      exact forall_mem_singleton.2 (.missed (.keep mem_cons_self) missed)
  | lambda param body =>
    exact ⟨_, .closure (part _ mem_cons_self) rfl rfl, fun _ => .inr⟩
  | apply function argument | pair head tail =>
    exact Expr.nestBoth_turn (part _ (by simp [subs])) (part _ (by simp [subs]))
  | choose | new =>
    exact Expr.nestOne_turn (part _ mem_cons_self)
      (by simpa [Frame.items] using part _ (by simp [subs]))
  | cond left right yes no =>
    have hno := part (.eval no here.env) (by simp [subs])
    refine .layer (part _ mem_cons_self) ?_
    simp [Expr.begin, onHeap, items, Job.items, Frame.items, hno]
  | block vars body => exact ⟨_, .block (part _ mem_cons_self) rfl rfl, fun _ => .inr⟩
  | now =>
    obtain ⟨n, hn⟩ := cx.now.exists_toValue_eq
    refine .still rfl rfl ?_
    simp [Expr.begin, items, Goal.items, hn, Yields.number]

/-- A transaction answers nothing. -/
lemma Request.items_settle (r : Request) (s : Store) (cx : Context) :
    (s.settle cx r.apply).1.items = [] := by
  show Goal.items (g := .outcome) (r.apply (s.transaction cx.transaction)).1 = []
  cases s.transaction cx.transaction with
  | failed x =>
    rw [Transaction.apply_failed]
    rfl
  | gathering e =>
    cases hx : r.exception? with
    | some x =>
      rw [Transaction.apply_of_exception hx]
      rfl
    | none =>
      rw [Transaction.apply_of_no_exception hx]
      rfl

/-- A statement ends with a request. -/
lemma Request.settle_turn {I : List Item} (r : Request) (hr : ∀ j ∈ r.items, Yields s.heap I j) :
    Turn s I ([r].flatMap Request.items ++ (s.settle cx r.apply).1.items)
    (s.settle cx r.apply).2 := by
  refine .still rfl rfl ?_
  rwa [items_settle, flatMap_singleton, append_nil]

/-- An actor gets its address, which is bound to its name. -/
lemma Stmt.create_turn {I : List Item} {name : String} {behavior : Expr}
    (hname : Yields s.heap I (.bind (.ident name) here.env))
    (hbehavior : Yields s.heap I (.eval behavior here.env)) :
    Turn s I (((Job.exec (.create name behavior) here).requests s).flatMap Request.items ++
      ((Stmt.create name behavior).begin cx here s).1.items)
      ((Stmt.create name behavior).begin cx here s).2 := by
  set s1 := (s.reserve.2.bind name (.actor s.reserve.1) here.env).2 with hs1
  have hheap : s1.heap = (s.heap.bind name (.actor s.reserve.1) here.env).2.2 := heap_wakeAll ..
  have hids : s1.ids = s.reserve.2.ids := ids_bind ..
  rw [begin_create]
  dsimp only [Job.requests]
  split
  · refine ⟨_, .create hname ((s1.heap_nest ..).trans hheap) ((s1.ids_nestExpr ..).trans hids), ?_⟩
    intro j hj
    rcases Expr.mem_items_nestOne hj with rfl | hj
    · exact .inl hbehavior
    · exact .inr hj
  · refine ⟨_, .create hname hheap hids, fun j hj => .inl ?_⟩
    have hthrow : (s1.throw cx (.pair (.symbol "conflict") (.symbol name))).1.items = [] :=
      Request.items_settle (.throw _) s1 cx
    rw [hthrow] at hj
    rw [mem_singleton.1 hj]
    exact .pair (.symbol _) (.symbol _)

lemma Stmt.begin_turn (stmt : Stmt) (cx : Context) (here : Place) (s : Store) :
    Turn s [.exec stmt here.env] (((Job.exec stmt here).requests s).flatMap Request.items ++
      (stmt.begin cx here s).1.items) (stmt.begin cx here s).2 := by
  have part : ∀ j ∈ (Item.exec stmt here.env).subs, Yields s.heap [.exec stmt here.env] j :=
    fun _ =>
    .sub (.keep mem_cons_self)
  cases stmt with
  | empty => exact .still rfl rfl part
  | seq first second =>
    refine .still ((Stmt.heap_nest ..).trans (first.heap_nest cx here s))
      ((ids_nestStmt ..).trans (s.ids_nestStmt first cx here)) fun j hj => part j ?_
    have hj : j ∈ (first.nest cx here s).1.items ++
        (second.nest cx here (first.nest cx here s).2).1.items := hj
    rcases mem_append.1 hj with hj | hj
    · exact mem_append_left _ (first.items_nest cx here s hj)
    · exact mem_append_right [_] (second.items_nest cx here _ hj)
  | define p e =>
    exact Expr.nestOne_turn (part _ (by simp [subs])) fun j hj =>
      part j (by simp_all [subs, Frame.items])
  | equate left right =>
    refine .still rfl rfl fun j hj => part j ?_
    simpa [subs, Job.requests, Stmt.begin, items, Job.items, Frame.items] using hj
  | send message target =>
    exact Expr.nestBoth_turn (part _ (by simp [subs])) (part _ (by simp [subs]))
  | after | expr =>
    exact Expr.nestOne_turn (part _ (by simp [subs])) fun j hj => part j (mem_cons_of_mem _ hj)
  | create name behavior => exact create_turn (part _ (by simp [subs])) (part _ (by simp [subs]))
  | become | throw => exact Expr.nestOne_turn (part _ (by simp [subs])) (forall_mem_nil _)

lemma Pattern.withConstant_turn {I : List Item} (cx : Context) {p : Pattern}
    (hp : Yields s.heap I (.resolve p here.env)) (frame : Frame .value g)
    (hframe : ∀ j ∈ frame.items, Yields s.heap I j) (r : g.Result) (hr : Goal.items r = []) :
    Turn s I (p.withConstant cx here s frame r).1.items (p.withConstant cx here s frame r).2 := by
  have hdone : Turn s I (done r).items s := by
    refine .still rfl rfl ?_
    rw [items, hr]
    exact forall_mem_nil _
  have hgiven : ∀ {v : Value}, .value v ∈ (Item.resolve p here.env).subs →
      Turn s I (one (.done v) frame).items s := fun hv =>
    .still rfl rfl (forall_mem_cons.2 ⟨.sub hp hv, hframe⟩)
  cases p with
  | const | self => exact hgiven mem_cons_self
  | value e => exact Expr.nestOne_turn (.sub hp mem_cons_self) hframe
  | _ => exact hdone

/-- What a job begins with. -/
theorem Job.begin_turn (job : Job g) (cx : Context) (s : Store) :
    Turn s job.items ((job.requests s).flatMap Request.items ++ (job.begin cx s).1.items)
      (job.begin cx s).2 := by
  have held : ∀ i ∈ job.items, Yields s.heap job.items i := fun _ => .keep
  have hsame : ∀ {J : List Item}, J ⊆ job.items → Turn s job.items J s := fun hJ =>
    .still rfl rfl fun j hj => held j (hJ hj)
  have hnone : Turn s job.items [] s := hsame (nil_subset _)
  cases job with
  | eval e here => exact e.begin_turn cx here s
  | apply f a depth =>
    exact Value.enter_turn (held _ (by simp [items])) (held _ (by simp [items]))
      depth fun _ _ => rfl
  | exec stmt here => exact stmt.begin_turn cx here s
  | publish b caller => exact Block.nest_turn (held _ (by simp [items])) (held _ (by simp [items]))
  | deliver behavior message self exported here => exact hsame (refl _)
  | fit p v here =>
    have hp := held (.bind p here.env) (by simp [items])
    have hv := held (.value v) (by simp [items])
    cases p with
    | any => exact hnone
    | ident name => exact ⟨[], .bind hp hv (heap_wakeAll ..) (s.ids_bind ..), forall_mem_nil _⟩
    | pair ph pt =>
      cases v with
      | pair h t =>
        refine .still rfl rfl ?_
        have hph := Yields.sub (j := .bind ph here.env) hp (by simp [subs])
        have hpt := Yields.sub (j := .bind pt here.env) hp (by simp [subs])
        have hh := Yields.sub (j := .value h) hv (by simp [subs])
        have ht := Yields.sub (j := .value t) hv (by simp [subs])
        simp_all [requests, Job.begin, Pattern.fit, Evaluation.items, items, Frame.items]
      | _ => exact hnone
    | _ =>
      exact Pattern.withConstant_turn cx hp.resolve (.equals v)
        (forall_mem_singleton.2 hv) false rfl
  | unify left right here =>
    have hl := held (.bind left here.env) (by simp [items])
    have hr := held (.bind right here.env) (by simp [items])
    cases left with
    | any | ident | pair => exact hsame (Perm.swap ..).subset
    | _ =>
      exact Pattern.withConstant_turn cx hl.resolve (.fit right here)
        (forall_mem_singleton.2 hr) false rfl
  | unifyName right left here =>
    have hr := held (.bind right here.env) (by simp [items])
    have hl := held (.bind left here.env) (by simp [items])
    cases right with
    | any | ident => exact hnone
    | pair ph pt => exact .still rfl rfl (forall_mem_cons.2 ⟨hr.resolve, forall_mem_singleton.2 hl⟩)
    | _ =>
      exact Pattern.withConstant_turn cx hr.resolve (.fit left here)
        (forall_mem_singleton.2 hl) false rfl
  | unifyPair right left here =>
    have hr := held (.bind right here.env) (by simp [items])
    have hl := held (.bind left here.env) (by simp [items])
    cases right with
    | any | ident => exact hsame (Perm.swap ..).subset
    | pair rh rt =>
      cases left with
      | pair lh lt =>
        refine .still rfl rfl ?_
        have hrh := Yields.sub (j := .bind rh here.env) hr (by simp [subs])
        have hrt := Yields.sub (j := .bind rt here.env) hr (by simp [subs])
        have hlh := Yields.sub (j := .bind lh here.env) hl (by simp [subs])
        have hlt := Yields.sub (j := .bind lt here.env) hl (by simp [subs])
        simp_all [requests, Job.begin, Pattern.unifyPair, Evaluation.items, items, Frame.items]
      | _ => exact hnone
    | _ =>
      exact Pattern.withConstant_turn cx hr.resolve (.fit left here)
        (forall_mem_singleton.2 hl) false rfl
  | resolve p here =>
    have hp := held (.resolve p here.env) (by simp [items])
    cases p with
    | any | ident => exact hnone
    | pair h t => exact .still rfl rfl fun _ hj => .sub hp hj
    | _ => exact Pattern.withConstant_turn cx hp .known (forall_mem_nil _) none rfl

/-- A behavior has answered: its block runs in a new layer of the actor. -/
lemma Frame.perform_turn {I : List Item} {v : Value} {self : ActorId} {exported : Bool}
    (hv : Yields s.heap I (.value v)) (hi : Yields s.heap I (.perform self here.env)) :
    Turn s I (((Frame.perform self exported here).requests v s).flatMap Request.items ++
      ((Frame.perform self exported here).resume v cx s).1.items)
      ((Frame.perform self exported here).resume v cx s).2 := by
  unfold resume requests
  dsimp only
  cases hb : s.heap.block? v with
  | some b =>
    have hblock := Yields.block hv hb
    dsimp only
    split
    · refine ⟨_, .actor hi rfl rfl, ?_⟩
      simp [Evaluation.items, Job.items, onHeap, hblock]
    · set here' : Place := { here with env := (s.heap.newActor self here.env).1 }
      set s1 := (s.onHeap (·.newActor self here.env)).2
      have hheap : (b.nest cx here' s1).2.2.heap = (s.heap.enact b self here.env).2 :=
        b.body.heap_nest cx ⟨(s.heap.enact b self here.env).1, here.depth⟩ _
      refine ⟨_, .enact hblock hi hheap (s1.ids_nestBlock ..), fun j hj => .inr ?_⟩
      exact b.body.items_nest cx ⟨(s.heap.enact b self here.env).1, here.depth⟩ _ hj
  | none => exact Request.settle_turn (.throw _) (forall_mem_singleton.2 (.symbol _))

/-- A block has run: its variables are offered as definitions. -/
lemma Store.offer_turn {I J : List Item} {env : Env} {vars : List String}
    (henv : Yields s.heap I (.keeps env)) (hJ : ∀ j ∈ J, Yields s.heap I j) :
    Turn s I ((vars.filterMap fun name =>
      (s.heap.lookup? name env).map (Request.define name)).flatMap Request.items ++ J)
      (s.offer cx env vars) := by
  refine .still (by rw [offer_eq]) (s.ids_offer ..) fun j hj => ?_
  rcases mem_append.1 hj with hj | hj
  · obtain ⟨r, hr, hj⟩ := mem_flatMap.1 hj
    obtain ⟨name, _, hname⟩ := mem_filterMap.1 hr
    obtain ⟨v, hv, rfl⟩ := Option.map_eq_some_iff.1 hname
    rw [mem_singleton.1 hj]
    exact .offered henv hv
  · exact hJ j hj

/-- What a frame makes of the answer of a part. -/
theorem Frame.resume_turn {k : Goal} (frame : Frame g k) (r : g.Result) (cx : Context) (s : Store) :
    Turn s (Goal.items r ++ frame.items)
      ((frame.requests r s).flatMap Request.items ++ (frame.resume r cx s).1.items)
      (frame.resume r cx s).2 := by
  have held : ∀ i ∈ Goal.items r ++ frame.items, Yields s.heap (Goal.items r ++ frame.items) i :=
    fun _ => .keep
  have hsame : ∀ {J : List Item}, J ⊆ Goal.items r ++ frame.items →
      Turn s (Goal.items r ++ frame.items) J s :=
      fun hJ => .still rfl rfl fun j hj => held j (hJ hj)
  have hnone : Turn s (Goal.items r ++ frame.items) [] s := hsame (nil_subset _)
  have hthrow : ∀ x, Yields s.heap (Goal.items r ++ frame.items) (.value x) →
      Turn s (Goal.items r ++ frame.items) ([Request.throw x].flatMap Request.items ++
        (s.throw cx x).1.items)
        (s.throw cx x).2 := fun x hx => Request.settle_turn (.throw x) (forall_mem_singleton.2 hx)
  cases frame with
  | choose arms here => exact Arms.try_turn (held _ (by simp [items])) (held _ mem_cons_self)
  | arm body layer rest subject here =>
    cases r with
    | true => exact hsame (by simp [requests, resume, Evaluation.items, Job.items, items])
    | false => exact Arms.try_turn (held _ (by simp [items])) (held _ (by simp [items]))
  | branch yes layer no here =>
    cases r with
    | true | false => exact hsame (by simp [requests, resume, Evaluation.items, Job.items, items])
  | enter body layer =>
    cases r with
    | true => exact hsame (refl _)
    | false => exact .still rfl rfl (forall_mem_singleton.2 .undefined)
  | nested body layer =>
    cases r with
    | true =>
      show Turn s _ _ (body.nest cx layer s).2
      refine .still (s.heap_nest ..) (s.ids_nestExpr ..) fun j hj => ?_
      exact held j (body.items_nest cx layer s hj)
    | false => exact .still rfl rfl (forall_mem_singleton.2 .undefined)
  | new env =>
    refine ⟨_, .new (held (.keeps env) (by simp [items])) rfl rfl, ?_⟩
    simp_all [requests, Request.items, resume, Evaluation.items, Goal.items, create]
  | equals v => exact hnone
  | fit p here => exact hsame (Perm.swap ..).subset
  | resolved p here =>
    cases r with
    | some v => exact hsame (Perm.swap ..).subset
    | none => exact hnone
  | fitTail | unifyTail =>
    cases r with
    | true => exact hsame (refl _)
    | false => exact hnone
  | known =>
    refine .still rfl rfl ?_
    show ∀ j ∈ Goal.items (g := .meaning) (if r.isUndefined then none else some r), _
    split
    · exact forall_mem_nil _
    · exact held
  | define p here =>
    exact hsame (by simp [requests, resume, Evaluation.items, Job.items, items, Goal.items])
  | defined v =>
    cases r with
    | true => exact hnone
    | false => exact hthrow _ (.pair (.symbol _) (held _ (by simp [items])))
  | equated =>
    cases r with
    | true => exact hnone
    | false => exact hthrow _ (.symbol _)
  | delay message target here =>
    unfold resume requests
    dsimp only
    cases Value.natural? r with
    | some ms => exact Expr.nestBoth_turn (held _ (by simp [items])) (held _ (by simp [items]))
    | none => exact hthrow _ (.pair (.symbol _) (held _ mem_cons_self))
  | init id name env =>
    exact Request.settle_turn (.init ⟨id, name, r, env⟩) fun j hj =>
      held j ((Perm.swap ..).subset hj)
  | become => exact hsame (refl _)
  | throw => exact hthrow _ (held _ mem_cons_self)
  | run here =>
    unfold resume
    dsimp only
    split
    · rename_i b hb
      exact (Block.nest_turn (.block (held _ mem_cons_self) hb) (held _ (by simp [items]))).subset
        (subset_append_left ..)
    · exact hnone
  | perform self exported here =>
    exact perform_turn (held _ mem_cons_self) (held _ (by simp [items]))
  | offer vars env =>
    cases r with
    | fail => exact hnone
    | ok => exact offer_turn (held _ mem_cons_self) (forall_mem_nil _)
    | become v =>
      exact offer_turn (held _ (by simp [items])) (forall_mem_singleton.2 (held _ mem_cons_self))

/-- What is made of the answers of two parts. -/
theorem Join.resume_turn {k : Goal} (join : Join g k) (a b : g.Result) (cx : Context) (s : Store) :
    Turn s (Goal.items a ++ Goal.items b)
      ((join.requests a b).flatMap Request.items ++ (join.resume a b cx s).1.items)
      (join.resume a b cx s).2 := by
  cases join with
  | apply depth =>
    exact Value.enter_turn (.keep (by simp [Goal.items])) (.keep (by simp [Goal.items]))
      depth fun _ _ => rfl
  | pair =>
    exact .still rfl rfl
      (forall_mem_singleton.2 (.pair (.keep (by simp [Goal.items])) (.keep (by simp [Goal.items]))))
  | send delay =>
    refine Request.settle_turn (.send b a delay) fun j hj => .keep ((Perm.swap ..).subset hj)
  | meanings =>
    cases a with
    | none => exact .still rfl rfl (forall_mem_nil _)
    | some v =>
      cases b with
      | none => exact .still rfl rfl (forall_mem_nil _)
      | some w =>
        exact .still rfl rfl
          (forall_mem_singleton.2
            (.pair (.keep (by simp [Goal.items])) (.keep (by simp [Goal.items]))))

/-- What is made of the outcomes of two statements. -/
lemma Outcome.join_turn (a b : Outcome) (cx : Context) (s : Store) :
    Turn s (Goal.items (g := .outcome) a ++ Goal.items (g := .outcome) b)
      ((a.requests b).flatMap Request.items ++ (a.join b cx s).1.items) (a.join b cx s).2 := by
  cases a with
  | fail => exact .still rfl rfl (forall_mem_nil _)
  | ok => cases b <;> exact .still rfl rfl fun _ => .keep
  | become v =>
    cases b with
    | fail => exact .still rfl rfl (forall_mem_nil _)
    | ok => exact .still rfl rfl fun _ => .keep
    | become w =>
      exact Request.settle_turn (.throw (.symbol "become-conflict"))
        (forall_mem_singleton.2 (.symbol _))

end Steps

/-! ### Small steps -/

/-- What a number of trees hold. -/
def Work.items (trees : List Work) : List Item := trees.flatMap (·.evaluation.items)

lemma Work.items_start (job : Job g) : Work.items [⟨g, .start job.flat⟩] = job.items := by
  cases job <;> rfl

namespace Item

variable {c c' : Core} {H H' L L' : List Item}

/-- A small step of trees that hold `H`: what they hold then, the items in `L`, they held before, or
it comes of some of that. So does what is asked of the transaction. -/
def Turns (cx : Context) (c : Core) (H L : List Item) (c' : Core) : Prop :=
  ∃ I J log, I ⊆ H ∧ Turn c.store I (log.flatMap Request.items ++ J) c'.store ∧
    c'.transactions = c.transactions.modify cx.transaction (·.replay log) ∧ L ⊆ H ++ J

/-- A step that only gives up items. -/
lemma Turns.of_subset (hL : L ⊆ H) : Turns cx c H L c :=
  ⟨[], [], [], nil_subset _, .still rfl rfl (forall_mem_nil _), (modify_replay_nil _ _).symm,
    subset_append_of_subset_left _ hL⟩

/-- A step among other items. -/
lemma Turns.among (h : Turns cx c H L c') (hH : H ⊆ H') (hL : L' ⊆ L ++ H') :
    Turns cx c H' L' c' := by
  obtain ⟨I, J, log, hI, turn, replays, hJ⟩ := h
  refine ⟨I, J, log, fun i hi => hH (hI hi), turn, replays, fun j hj => ?_⟩
  rcases mem_append.1 (hL hj) with hj | hj
  · exact mem_append.2 ((mem_append.1 (hJ hj)).imp_left (hH ·))
  · exact mem_append_left _ hj

end Item

namespace Evaluation

open Item

variable {c c' : Core}

/-- What a small step leaves, and asks for, was held before, or comes of it. -/
theorem Micro.turns {f f' : Evaluation g} {ds : List Work} (h : Micro cx f c f' ds c') :
    Turns cx c f.items (f'.items ++ Work.items ds) c' := by
  have whole :
    ∀ {g : Goal} {I : List Item} {e : Evaluation g} {log : List Request} {c : Core} {s' : Store},
      Turn c.store I (log.flatMap Request.items ++ e.items) s' →
      s'.transactions = c.transactions.modify cx.transaction (·.replay log) →
      Turns cx c I (e.flat.items ++ Work.items []) s'.core := by
    intro g I e log c s' turn replays
    refine ⟨I, e.items, log, refl _, turn, replays, ?_⟩
    simp [Work.items]
  induction h with
  | start job c => exact whole (job.begin_turn cx c.store) (job.begin_transactions cx c.store)
  | @read slot v c bound =>
    refine @whole .value _ (.done v) [] c c.store ?_ (modify_replay_nil _ _).symm
    exact .still rfl rfl (forall_mem_singleton.2 (.read (.keep mem_cons_self) bound))
  | resume r frame c =>
    exact whole (frame.resume_turn r cx c.store) (frame.resume_transactions cx c.store r)
  | join a b join c =>
    exact whole (join.resume_turn a b cx c.store) (join.resume_transactions cx c.store a b)
  | merge a b c => exact whole (a.join_turn b cx c.store) (a.join_transactions cx c.store b)
  | failLeft | failRight => exact .of_subset (by simp [Work.items, items, Goal.items])
  | one frame _ ih | bothLeft right join _ ih | bothRight left join _ ih | raceLeft right _ ih
  | raceRight left _ ih => exact ih.among (by simp [items]) (by grind [items])

lemma Micro.turns_among {f f' : Evaluation g} {ds : List Work} (h : Micro cx f c f' ds c')
    (before after : List Work) :
    Turns cx c (Work.items (before ++ ⟨g, f⟩ :: after))
    (Work.items (before ++ ⟨g, f'⟩ :: (after ++ ds))) c' :=
  h.turns.among (by simp [Work.items]) (by grind [Work.items])

/-- What every small step keeps, for the state and for all that is held, a run keeps. -/
theorem Forest.keeps_items {n : Nat} {trees trees' : List Work} {S : Core → Prop}
    {Q : Core → Item → Prop}
    (h : Forest cx n trees c trees' c') (park : ∀ {c : Core} (slot : Nat) (who : Waiter), S c →
      S { c with heap := c.heap.park slot who } ∧ ∀ i, Q c i →
      Q { c with heap := c.heap.park slot who } i)
    (step : ∀ {c c' : Core} {H L : List Item}, Turns cx c H L c' → S c → (∀ i ∈ H, Q c i) →
      S c' ∧ ∀ i ∈ L, Q c' i) :
    S c → (∀ i ∈ Work.items trees, Q c i) → S c' ∧ ∀ i ∈ Work.items trees', Q c' i := by
  induction h with
  | refl trees c => exact fun hS hQ => ⟨hS, hQ⟩
  | park slot who _ ih =>
    intro hS hQ
    obtain ⟨hS', hmono⟩ := park slot who hS
    exact ih hS' fun i hi => hmono i (hQ i hi)
  | @step n before after trees' k f f' ds c c1 c' first _ ih =>
    intro hS hQ
    obtain ⟨hS', hQ'⟩ := step (first.turns_among before after) hS hQ
    exact ih hS' hQ'

end Evaluation

end Troupe
