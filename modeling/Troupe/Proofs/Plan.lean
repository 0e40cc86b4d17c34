import Troupe.Evaluation.Begin
import Troupe.Proofs.Space

/-!
Steps of evaluations on spaces.

A step that an evaluation can take next is a `Plan`: an effect, and how the evaluation goes on after
each response. Plans are made without a look at slots. That a slot is bound, or to what, only
decides which responses are allowed, so a plan stays good while others go on.

Steps that fail, or make an actor, are planned as `Effect.lost`, to which there is no response.
Sequences are not planned at all: their statements run side by side from the start.

* `Job.plan`, `Frame.plan`, `Join.plan`
* `Evaluation.Fires`: the plans of all parts of an evaluation.
* `Evaluation.Fires.like`: evaluations that are like each other, in spaces that are like each other,
  have plans that are like each other.
-/

namespace Troupe

open Space

variable {v v' : Value} {g : Goal} {p' q q' : Pattern} {here here' : Place}

/-- A step that can be taken next. -/
structure Plan (g : Goal) where
  effect : Effect
  next : Feedback → Evaluation g

namespace Plan

variable {h : Goal}

/-- Goes on without an effect. -/
def pure (e : Evaluation g) : Plan g := ⟨.none, fun _ => e⟩

/-- Fails, or makes an actor. -/
def lost : Plan g := ⟨.lost, fun _ => .done g.default⟩

/-- A step of a part. -/
def map (C : Evaluation g → Evaluation h) (p : Plan g) : Plan h := ⟨p.effect, fun r => C (p.next r)⟩

end Plan

/-! ### The plans of each step -/

/-- The evaluation of a pattern that stands for a value. -/
def Pattern.constant (p : Pattern) (here : Place) : Option (Evaluation .value) :=
  match p with
  | .const v => some (.done v)
  | .value e => some (.start (.eval e here))
  | .self => some (.done (.ofActor? here.env.self?))
  | .any | .ident _ | .pair .. => none

/-- Goes on with the value that a pattern stands for. -/
def Pattern.planConstant {g : Goal} (p : Pattern) (here : Place) (frame : Frame .value g)
    (otherwise : g.Result) : Plan g :=
  match p.constant here with
  | some e => .pure (.one e frame)
  | none => .pure (.done otherwise)

/-- Binds a name on a layer, or among the variables of a block. -/
def Space.planBind (H : Space) (name : String) (v : Value) : Env → Plan .verdict
  | .dynamic layer _ =>
    match H.layer layer name with
    | some w => .pure (.done (w == v))
    | none =>
      ⟨.put layer fun x => if x = name then some v else H.layer layer x, fun _ => .done true⟩
  | .block scope _ _ =>
    match H.scope scope name with
    | some slot => ⟨.fill slot v, fun _ => .done true⟩
    | none => .lost
  | _ => .lost

/-- Matches a pattern with a value. -/
def Pattern.planFit (p : Pattern) (v : Value) (here : Place) (H : Space) : Plan .verdict :=
  match p with
  | .any => .pure (.done true)
  | .ident name => H.planBind name v here.env
  | .pair ph pt =>
    match v with
    | .pair h t => .pure (.one (.start (.fit ph h here)) (.fitTail pt t here))
    | _ => .pure (.done false)
  | p => p.planConstant here (.equals v) false

/-- Unifies two patterns. -/
def Pattern.planUnify (left right : Pattern) (here : Place) : Plan .verdict :=
  match left with
  | .any | .ident _ => .pure (.start (.unifyName right left here))
  | .pair .. => .pure (.start (.unifyPair right left here))
  | left => left.planConstant here (.fit right here) false

/-- Unifies with a left side that is a name or matches everything. -/
def Pattern.planUnifyName (right left : Pattern) (here : Place) : Plan .verdict :=
  match right with
  | .any | .ident _ => .pure (.done false)
  | .pair .. => .pure (.one (.start (.resolve right here)) (.resolved left here))
  | right => right.planConstant here (.fit left here) false

/-- Unifies with a left side that is a pair. -/
def Pattern.planUnifyPair (right left : Pattern) (here : Place) : Plan .verdict :=
  match right with
  | .any | .ident _ => .pure (.start (.unifyName left right here))
  | .pair rh rt =>
    match left with
    | .pair lh lt => .pure (.one (.start (.unify lh rh here)) (.unifyTail lt rt here))
    | _ => .pure (.done false)
  | right => right.planConstant here (.fit left here) false

/-- The value that a pattern stands for. -/
def Pattern.planResolve (p : Pattern) (here : Place) : Plan .meaning :=
  match p with
  | .any | .ident _ => .pure (.done none)
  | .pair h t => .pure (.both (.start (.resolve h here)) (.start (.resolve t here)) .meanings)
  | p => p.planConstant here .known none

/-- Goes on, on a fresh layer on top of an environment. -/
def Env.planLayer {g : Goal} (base : Env) (next : Env → Evaluation g) : Plan g :=
  ⟨.make (.layer fun _ => none), fun r => next (.dynamic r.id base)⟩

/-- Applies a function. -/
def Value.planEnter (function argument : Value) (depth : Nat) (H : Space)
    (frame : Expr → Place → Frame .verdict .value) : Plan .value :=
  match function with
  | .closure ref =>
    match H.closure? ref with
    | some c => c.env.planLayer fun env =>
        .one (.start (.fit c.param argument ⟨env, depth⟩)) (frame c.body ⟨env, depth⟩)
    | none => .pure (.done .undefined)
  | .native f =>
    match H.native? f.index with
    | some f =>
      match H.call f argument with
      | .inl v => .pure (.done v)
      | .inr f => ⟨.make (.native f), fun r => .done (.native ⟨r.id, f.name⟩)⟩
    | none => .pure (.done .undefined)
  | _ => .pure (.done .undefined)

/-- Tries the next arm of a choice. -/
def Arms.planTry (arms : Arms) (subject : Value) (here : Place) : Plan .value :=
  match arms with
  | .nil => .pure (.done .undefined)
  | .cons p body rest => here.env.planLayer fun layer =>
      .one (.start (.fit p subject { here with env := layer })) (.arm body layer rest subject here)

/-- Begins an expression. -/
def Expr.plan (e : Expr) (now : Millis) (here : Place) (H : Space) : Plan .value :=
  match e with
  | .const v => .pure (.done v)
  | .ident name =>
    match H.find name here.env with
    | .value v => .pure (.done v)
    | .slot i => .pure (.parked i)
  | .lambda param body =>
    ⟨.make (.closure ⟨param, body, here.env⟩), fun r => .done (.closure r.id)⟩
  | .apply function argument =>
    .pure (.both (.start (.eval function here)) (.start (.eval argument here)) (.apply here.depth))
  | .pair head tail => .pure (.both (.start (.eval head here)) (.start (.eval tail here)) .pair)
  | .choose subject arms => .pure (.one (.start (.eval subject here)) (.choose arms here))
  | .cond left right yes no => here.env.planLayer fun layer =>
      .one (.start (.unify left right { here with env := layer })) (.branch yes layer no here)
  | .block vars body => ⟨.make (.block ⟨vars, body, here.env⟩), fun r => .done (.block r.id)⟩
  | .now => .pure (.done now.toValue)
  | .self => .pure (.done (.ofActor? here.env.self?))
  | .new behavior => .pure (.one (.start (.eval behavior here)) (.new here.env))

/-- Evaluates the target and the message of a send. -/
def Stmt.planSend (message target : Expr) (delay : Option Millis) (here : Place) : Plan .outcome :=
  .pure (.both (.start (.eval target here)) (.start (.eval message here)) (.send delay))

/-- Begins a statement that is no sequence. -/
def Stmt.plan (stmt : Stmt) (here : Place) : Plan .outcome :=
  match stmt with
  | .empty | .seq .. | .create .. => .lost
  | .define p e => .pure (.one (.start (.eval e here)) (.define p here))
  | .equate left right => .pure (.one (.start (.unify left right here)) .equated)
  | .send message target => Stmt.planSend message target none here
  | .after delay message target =>
    .pure (.one (.start (.eval delay here)) (.delay message target here))
  | .become behavior => .pure (.one (.start (.eval behavior here)) .become)
  | .throw exception => .pure (.one (.start (.eval exception here)) .throw)
  | .expr e => .pure (.one (.start (.eval e here)) (.run here))

/-- Runs a block on a fresh frame of its variables. -/
def Block.plan (b : Block) (caller : Place) : Plan .outcome :=
  ⟨.scope b.vars, fun r =>
    .start (.exec b.body { caller with env := .block r.id b.env caller.env })⟩

/-- Begins an evaluation. -/
def Job.plan {g : Goal} (job : Job g) (now : Millis) (H : Space) : Plan g :=
  match job with
  | .eval e here => e.plan now here H
  | .apply f a depth => f.planEnter a depth H .nested
  | .exec stmt here => stmt.plan here
  | .publish .. | .deliver .. => .lost
  | .fit p v here => p.planFit v here H
  | .unify left right here => left.planUnify right here
  | .unifyName right left here => right.planUnifyName left here
  | .unifyPair right left here => right.planUnifyPair left here
  | .resolve p here => p.planResolve here

/-- Goes on with the answer of a part. -/
def Frame.plan {g h : Goal} (frame : Frame g h) (answer : g.Result) (H : Space) : Plan h :=
  match frame, answer with
  | .choose arms here, v => arms.planTry v here
  | .arm body layer rest subject here, ok =>
    if ok then .pure (.start (.eval body { here with env := layer })) else rest.planTry subject here
  | .branch yes layer no here, ok =>
    .pure (.start (if ok then .eval yes { here with env := layer } else .eval no here))
  | .enter body layer, ok => .pure (if ok then .start (.eval body layer) else .done .undefined)
  | .nested body layer, ok => .pure (if ok then .start (.eval body layer) else .done .undefined)
  | .equals v, w => .pure (.done (w == v))
  | .fit p here, v => .pure (.start (.fit p v here))
  | .resolved p here, some v => .pure (.start (.fit p v here))
  | .resolved _ _, none => .pure (.done false)
  | .fitTail p v here, ok => .pure (if ok then .start (.fit p v here) else .done false)
  | .unifyTail left right here, ok =>
    .pure (if ok then .start (.unify left right here) else .done false)
  | .known, v => .pure (.done (if v.isUndefined then none else some v))
  | .define p here, v => .pure (.one (.start (.fit p v here)) (.defined v))
  | .defined _, ok => if ok then .pure (.done .ok) else .lost
  | .equated, ok => if ok then .pure (.done .ok) else .lost
  | .delay message target here, v =>
    match v.natural? with
    | some ms => Stmt.planSend message target (some ms) here
    | none => .lost
  | .become, v => .pure (.done (.become v))
  | .run here, v =>
    match H.block? v with
    | some b => b.plan here
    | none => .pure (.done .ok)
  | .new _, _ | .init .., _ | .throw, _ | .perform .., _ | .offer .., _ => .lost

/-- Goes on with the answers of two parts. -/
def Join.plan {g h : Goal} (join : Join g h) (left right : g.Result) (H : Space) : Plan h :=
  match join, left, right with
  | .apply depth, f, a => f.planEnter a depth H .enter
  | .pair, h, t => .pure (.done (.pair h t))
  | .send delay, .actor id, message => ⟨.send ⟨message, id, delay⟩, fun _ => .done .ok⟩
  | .send _, _, _ => .lost
  | .meanings, some h, some t => .pure (.done (some (.pair h t)))
  | .meanings, _, _ => .pure (.done none)

/-- The plans of all parts of an evaluation. -/
inductive Evaluation.Fires (now : Millis) (H : Space) :
    {g : Goal} → Evaluation g → Plan g → Prop where
  | start {g : Goal} (job : Job g) : Fires now H (.start job) (job.plan now H)
  | read (slot : Nat) : Fires now H (.parked slot) ⟨.read slot, fun r => .done r.value⟩
  | resume {g h : Goal} (r : g.Result) (frame : Frame g h) :
      Fires now H (.one (.done r) frame) (frame.plan r H)
  | join {g h : Goal} (a b : g.Result) (join : Join g h) :
      Fires now H (.both (.done a) (.done b) join) (join.plan a b H)
  | one {g h : Goal} {part : Evaluation g} {p : Plan g} (frame : Frame g h)
      (inner : Fires now H part p) : Fires now H (.one part frame) (p.map (.one · frame))
  | bothLeft {g h : Goal} {left : Evaluation g} {p : Plan g} (right : Evaluation g)
      (join : Join g h)
      (inner : Fires now H left p) : Fires now H (.both left right join)
      (p.map (.both · right join))
  | bothRight {g h : Goal} {right : Evaluation g} {p : Plan g} (left : Evaluation g)
      (join : Join g h)
      (inner : Fires now H right p) : Fires now H (.both left right join)
      (p.map (.both left · join))

lemma Evaluation.not_fires_done {now : Millis} {H : Space} {r : g.Result} {p : Plan g} :
    ¬ Fires now H (.done r) p := by
  intro h
  cases h

/-! ### Plans that are like each other -/

/-- Two plans are like each other. -/
structure Plan.Like (R : Likeness) (level : Level) {g : Goal} (p p' : Plan g) : Prop where
  effect : p.effect.Like R p'.effect
  next : ∀ {R' : Likeness} {r r' : Feedback}, R ≤ R' → p.effect.Replies R' r r' →
    (p.next r).Like R' level (p'.next r')

variable {R : Likeness} {level inner outer : Level} {h : Goal} {H H' : Space} {now : Millis}

namespace Plan.Like

lemma pure {e e' : Evaluation g} (he : e.Like R level e') :
    (Plan.pure e).Like R level (Plan.pure e') :=
  ⟨.none, fun hR _ => he.mono hR⟩

lemma lost : (Plan.lost : Plan g).Like R level Plan.lost := by
  refine ⟨.lost, fun _ _ => .done ?_⟩
  cases g with
  | value => exact Value.Like.undefined
  | verdict => exact rfl
  | meaning => exact Option.Rel.none
  | outcome => exact Outcome.Like.ok

end Plan.Like

lemma Pattern.planConstant_like {otherwise : g.Result} (hotherwise : g.Like R otherwise otherwise)
    {p p' : Pattern} {here here' : Place} {frame frame' : Frame .value g} (hp : p.Like R p')
    (hplace : here.Like R here') (hframe : frame.Like R .layer level frame') :
    (p.planConstant here frame otherwise).Like R level
    (p'.planConstant here' frame' otherwise) := by
  cases hp with
  | const v => exact .pure (.one (.done v) hframe)
  | value e => exact .pure (.one (.start (.eval e hplace)) hframe)
  | self =>
    refine .pure (.one (.done ?_) hframe)
    rw [hplace.env.self?_eq]
    exact Value.Like.ofActor? _
  | _ => exact .pure (.done hotherwise)

section Reading

variable (unique : R.Unique) (hH : H.Sees R H')
include unique hH

lemma Space.planBind_like (name : String) (hv : v.Like R v') {env env' : Env}
    (henv : env.Like R env') : (H.planBind name v env).Like R level (H'.planBind name v' env') := by
  cases henv with
  | @dynamic i j base base' same rest =>
    have hlayer := fun x => layer_like hH same x
    have hname := hlayer name
    rw [planBind, planBind]
    generalize H.layer i name = x at hname ⊢
    generalize H'.layer j name = y at hname ⊢
    cases hname with
    | some hw =>
      refine .pure (.done ?_)
      exact hw.beq_eq unique hv
    | none =>
      refine ⟨.put same fun x => ?_, fun _ _ => .done rfl⟩
      by_cases hx : x = name
      · rw [if_pos hx, if_pos hx]
        exact .some hv
      · rw [if_neg hx, if_neg hx]
        exact hlayer x
  | @block i j _ _ _ _ same rest outer =>
    have hscope := scope_like hH same name
    rw [planBind, planBind]
    generalize H.scope i name = x at hscope ⊢
    generalize H'.scope j name = y at hscope ⊢
    cases hscope with
    | some hslot => exact ⟨.fill hslot hv, fun _ _ => .done rfl⟩
    | none => exact .lost
  | _ => exact .lost

lemma Pattern.planFit_like {p : Pattern} (hp : p.Like R p') (hv : v.Like R v')
    (hplace : here.LikeAt R level here') :
    (p.planFit v here H).Like R level (p'.planFit v' here' H') := by
  have hconstant := @Pattern.planConstant_like .verdict R level false rfl
  have hp' := hp
  cases hp with
  | any => exact .pure (.done rfl)
  | ident name => exact planBind_like unique hH name hv hplace.env
  | pair head tail =>
    cases hv with
    | pair h t => exact .pure (.one (.start (.fit head h hplace)) (.fitTail tail t hplace))
    | _ => exact .pure (.done rfl)
  | const | value | self => exact hconstant hp' hplace.toLike (.equals hv)

end Reading

lemma Env.planLayer_like {base base' : Env} {next next' : Env → Evaluation g}
    (hbase : base.Like R base')
    (hnext : ∀ {R' : Likeness} {env env' : Env}, R ≤ R' → env.Like R' env' →
      env.level? = some .layer → (next env).Like R' level (next' env')) :
    (base.planLayer next).Like R level (base'.planLayer next') :=
  ⟨.make (.layer fun _ => .none), fun hR hid => hnext hR (.dynamic hid (hbase.mono hR)) rfl⟩

lemma Arms.planTry_like {x x' : Arms} (hx : x.Like R x') (hv : v.Like R v')
    (hplace : here.Like R here') : (x.planTry v here).Like R level (x'.planTry v' here') := by
  cases hx with
  | nil => exact .pure (.done .undefined)
  | cons p e rest =>
    simp only [Arms.planTry]
    refine Env.planLayer_like hplace.env fun hR henv hlevel => ?_
    exact .one (.start (.fit (p.mono hR) (hv.mono hR) ⟨⟨henv, hplace.depth⟩, hlevel⟩))
      (.arm (e.mono hR) henv (rest.mono hR) (hv.mono hR) (hplace.mono hR))

lemma Stmt.planSend_like {m m' t t' : Expr} (delay : Option Millis) (hm : m.Like R m')
    (ht : t.Like R t') (hplace : here.Like R here') :
    (Stmt.planSend m t delay here).Like R level (Stmt.planSend m' t' delay here') := by
  have heval := @Job.Like.eval R .layer
  exact .pure (.both (.start (heval ht hplace)) (.start (heval hm hplace)) (.send delay))

lemma Stmt.plan_like {s s' : Stmt} (hs : s.Like R s') (hplace : here.LikeAt R .block here') :
    (s.plan here).Like R level (s'.plan here') := by
  have heval : ∀ {e e' : Expr}, e.Like R e' →
      (Evaluation.start (.eval e here)).Like R .layer (.start (.eval e' here')) :=
    fun he => .start (.eval he hplace.toLike)
  cases hs with
  | define p e => exact .pure (.one (heval e) (.define p hplace))
  | equate p q => exact .pure (.one (.start (.unify p q hplace)) .equated)
  | send m t => exact Stmt.planSend_like none m t hplace.toLike
  | after d m t => exact .pure (.one (heval d) (.delay m t hplace.toLike))
  | become e => exact .pure (.one (heval e) .become)
  | throw e => exact .pure (.one (heval e) .throw)
  | expr e => exact .pure (.one (heval e) (.run hplace.toLike))
  | _ => exact .lost

lemma Block.plan_like {b b' : Block} (hb : b.Like R b') (hplace : here.Like R here') :
    (b.plan here).Like R level (b'.plan here') := by
  refine ⟨?_, fun hR hid => .start (.exec (hb.body.mono hR) ⟨⟨?_, hplace.depth⟩, rfl⟩)⟩
  · rw [Block.plan, Block.plan, hb.vars]
    exact .scope _
  · exact .block hid.1 (hb.env.mono hR) (hplace.env.mono hR)

section Reading

variable (unique : R.Unique) (hH : H.Sees R H')
include hH

lemma Expr.plan_like {e e' : Expr} (he : e.Like R e') (hplace : here.Like R here') :
    (e.plan now here H).Like R level (e'.plan now here' H') := by
  have heval : ∀ {e e' : Expr}, e.Like R e' →
      (Evaluation.start (.eval e here)).Like R .layer (.start (.eval e' here')) :=
    fun he => .start (.eval he hplace)
  cases he with
  | const v => exact .pure (.done v)
  | ident name =>
    have hfind := find_like hH name hplace.env
    simp only [Expr.plan]
    generalize H.find name here.env = x at hfind ⊢
    generalize H'.find name here'.env = y at hfind ⊢
    cases hfind with
    | value hv => exact .pure (.done hv)
    | slot hslot => exact .pure (.parked hslot)
  | lambda p e =>
    exact ⟨.make (.closure ⟨p, e, hplace.env⟩), fun _ hid => .done (.closure hid)⟩
  | apply f a =>
    simp only [Expr.plan, hplace.depth]
    exact .pure (.both (heval f) (heval a) (.apply _))
  | pair a b => exact .pure (.both (heval a) (heval b) .pair)
  | choose e x => exact .pure (.one (heval e) (.choose x hplace))
  | cond p q a b =>
    simp only [Expr.plan]
    refine Env.planLayer_like hplace.env fun hR henv hlevel => ?_
    exact .one (.start (.unify (p.mono hR) (q.mono hR) ⟨⟨henv, hplace.depth⟩, hlevel⟩))
      (.branch (a.mono hR) henv (b.mono hR) (hplace.mono hR))
  | block vars s =>
    exact ⟨.make (.block ⟨rfl, s, hplace.env⟩), fun _ hid => .done (.block hid)⟩
  | now =>
    refine .pure (.done ?_)
    unfold Millis.toValue
    cases hn : Value.ofInt? now with
    | none => exact Value.Like.number _
    | some v => exact Value.Like.ofInt? hn
  | self =>
    simp only [Expr.plan, hplace.env.self?_eq]
    exact .pure (.done (Value.Like.ofActor? _))
  | new e => exact .pure (.one (heval e) (.new hplace.env))

include unique

lemma Value.planEnter_like {f f' a a' : Value} (depth : Nat)
    {frame : Expr → Place → Frame .verdict .value} (hf : f.Like R f') (ha : a.Like R a')
    (hframe : ∀ {R' : Likeness} {e e' : Expr} {here here' : Place}, e.Like R' e' →
      here.Like R' here' → (frame e here).Like R' .layer level (frame e' here')) :
    (f.planEnter a depth H frame).Like R level (f'.planEnter a' depth H' frame) := by
  cases hf with
  | @closure i j same =>
    have hclosure := closure?_like hH same
    simp only [Value.planEnter]
    generalize H.closure? i = x at hclosure ⊢
    generalize H'.closure? j = y at hclosure ⊢
    cases hclosure with
    | some hc =>
      refine Env.planLayer_like hc.env fun hR henv hlevel => ?_
      exact .one (.start (.fit (hc.param.mono hR) (ha.mono hR) ⟨⟨henv, rfl⟩, hlevel⟩))
        (hframe (hc.body.mono hR) ⟨henv, rfl⟩)
    | none => exact .pure (.done .undefined)
  | @native i j name same =>
    have hnative := native?_like hH same
    simp only [Value.planEnter]
    generalize H.native? i = x at hnative ⊢
    generalize H'.native? j = y at hnative ⊢
    cases hnative with
    | @some f f' hf =>
      have hcall := call_like hH unique hf ha
      dsimp only
      generalize H.call f a = x at hcall ⊢
      generalize H'.call f' a' = y at hcall ⊢
      cases hcall with
      | inl hv => exact .pure (.done hv)
      | @inr n n' hn =>
        refine ⟨.make (.native hn), fun _ hid => .done ?_⟩
        rw [hn.name_eq]
        exact Value.Like.native _ hid
    | none => exact .pure (.done .undefined)
  | _ => exact .pure (.done .undefined)

lemma Job.plan_like {job job' : Job g} (hj : job.Like R level job') :
    (job.plan now H).Like R level (job'.plan now H') := by
  have hconstant := @Pattern.planConstant_like .verdict R level false rfl
  have hresolve := @Job.Like.resolve R .layer
  cases hj with
  | eval e place => exact Expr.plan_like hH e place
  | apply f a depth => exact Value.planEnter_like unique hH depth f a .nested
  | exec s place => exact Stmt.plan_like s place
  | fit p v place => exact Pattern.planFit_like unique hH p v place
  | unify p q place =>
    have hp := p
    cases p with
    | any => exact .pure (.start (.unifyName q .any place))
    | ident name => exact .pure (.start (.unifyName q (.ident name) place))
    | pair head tail => exact .pure (.start (.unifyPair q (.pair head tail) place))
    | const | value | self => exact hconstant hp place.toLike (.fit q place)
  | unifyName p q place =>
    have hp := p
    cases p with
    | any | ident => exact .pure (.done rfl)
    | pair => exact .pure (.one (.start (hresolve hp place.toLike)) (.resolved q place))
    | const | value | self => exact hconstant hp place.toLike (.fit q place)
  | unifyPair p q place =>
    have hp := p
    cases p with
    | any => exact .pure (.start (.unifyName q .any place))
    | ident name => exact .pure (.start (.unifyName q (.ident name) place))
    | pair head tail =>
      cases q with
      | pair head' tail' =>
        exact .pure (.one (.start (.unify head' head place)) (.unifyTail tail' tail place))
      | _ => exact .pure (.done rfl)
    | const | value | self => exact hconstant hp place.toLike (.fit q place)
  | resolve p place =>
    have hp := p
    cases p with
    | any | ident => exact .pure (.done .none)
    | pair head tail =>
      exact .pure (.both (.start (hresolve head place)) (.start (hresolve tail place)) .meanings)
    | const | value | self =>
      exact @Pattern.planConstant_like .meaning R level none .none _ _ _ _ _ _ hp place .known

lemma Frame.plan_like {frame frame' : Frame g h} {r r' : g.Result}
    (hf : frame.Like R inner outer frame') (hr : g.Like R r r') :
    (frame.plan r H).Like R outer (frame'.plan r' H') := by
  cases hf with
  | choose x place => exact Arms.planTry_like x hr place
  | arm e env x v place =>
    cases hr
    cases r with
    | false => exact Arms.planTry_like x v place
    | true => exact .pure (.start (.eval e ⟨env, place.depth⟩))
  | branch a env b place =>
    cases hr
    cases r with
    | false => exact .pure (.start (.eval b place))
    | true => exact .pure (.start (.eval a ⟨env, place.depth⟩))
  | enter e place | nested e place =>
    cases hr
    cases r with
    | false => exact .pure (.done .undefined)
    | true => exact .pure (.start (.eval e place))
  | new | throw => exact .lost
  | equals v =>
    refine .pure (.done ?_)
    exact Value.Like.beq_eq unique hr v
  | fit p place => exact .pure (.start (.fit p hr place))
  | resolved p place =>
    cases hr with
    | some hv => exact .pure (.start (.fit p hv place))
    | none => exact .pure (.done rfl)
  | fitTail p v place =>
    cases hr
    cases r with
    | false => exact .pure (.done rfl)
    | true => exact .pure (.start (.fit p v place))
  | unifyTail p q place =>
    cases hr
    cases r with
    | false => exact .pure (.done rfl)
    | true => exact .pure (.start (.unify p q place))
  | known =>
    refine .pure (.done ?_)
    rw [Value.Like.isUndefined_eq hr]
    split
    · exact Option.Rel.none
    · exact Option.Rel.some hr
  | define p place => exact .pure (.one (.start (.fit p hr place)) (.defined hr))
  | defined | equated =>
    cases hr
    cases r with
    | false => exact .lost
    | true => exact .pure (.done .ok)
  | delay m t place =>
    simp only [Frame.plan, Value.Like.natural?_eq hr]
    split
    · exact Stmt.planSend_like _ m t place
    · exact .lost
  | become => exact .pure (.done (.become hr))
  | run place =>
    have hblock := block?_like hH hr
    simp only [Frame.plan]
    generalize H.block? r = x at hblock ⊢
    generalize H'.block? r' = y at hblock ⊢
    cases hblock with
    | some hb => exact Block.plan_like hb place
    | none => exact .pure (.done .ok)

lemma Join.plan_like (join : Join g h) {a a' b b' : g.Result} (ha : g.Like R a a')
    (hb : g.Like R b b') : (join.plan a b H).Like R level (join.plan a' b' H') := by
  cases join with
  | apply depth => exact Value.planEnter_like unique hH depth ha hb .enter
  | pair => exact .pure (.done (Value.Like.pair ha hb))
  | send delay =>
    cases ha with
    | actor id => exact ⟨.send ⟨hb, rfl, rfl⟩, fun _ _ => .done .ok⟩
    | _ => exact .lost
  | meanings =>
    cases ha with
    | some ha =>
      cases hb with
      | some hb => exact .pure (.done (.some (.pair ha hb)))
      | none => exact .pure (.done .none)
    | none => exact .pure (.done .none)

/-- Evaluations that are like each other have plans that are like each other. -/
theorem Evaluation.Fires.like {e e' : Evaluation g} {p : Plan g} (hfires : e.Fires now H p)
    (he : e.Like R level e') : ∃ p', e'.Fires now H' p' ∧ p.Like R level p' := by
  induction hfires generalizing level with
  | start job =>
    cases he with
    | start hj => exact ⟨_, .start _, Job.plan_like unique hH hj⟩
  | read slot =>
    cases he with
    | parked same => exact ⟨_, .read _, .read same, fun _ hv => .done hv⟩
  | resume r frame =>
    cases he with
    | one hpart hframe =>
      cases hpart with
      | done hr => exact ⟨_, .resume _ _, Frame.plan_like unique hH hframe hr⟩
  | join a b join =>
    cases he with
    | both first second =>
      cases first with
      | done ha =>
        cases second with
        | done hb => exact ⟨_, .join _ _ _, Join.plan_like unique hH join ha hb⟩
  | one frame _ ih =>
    cases he with
    | one hpart hframe =>
      obtain ⟨p', hp', hlike⟩ := ih hpart
      exact ⟨_, .one _ hp', hlike.effect, fun hR hr => .one (hlike.next hR hr) (hframe.mono hR)⟩
  | bothLeft right join _ ih =>
    cases he with
    | both first second =>
      obtain ⟨p', hp', hlike⟩ := ih first
      exact ⟨_, .bothLeft _ _ hp', hlike.effect, fun hR hr =>
        .both (hlike.next hR hr) (second.mono hR) join⟩
  | bothRight left join _ ih =>
    cases he with
    | both first second =>
      obtain ⟨p', hp', hlike⟩ := ih second
      exact ⟨_, .bothRight _ _ hp', hlike.effect, fun hR hr =>
        .both (first.mono hR) (hlike.next hR hr) join⟩

end Reading

end Troupe
