import Troupe.Store

/-!
The meaning of the language, one step at a time.

* `Job.begin` begins an evaluation: it does what can be done at once and says what is to run next.
* `Frame.resume` and `Join.resume` go on with the answers of the parts.

None of them runs a part: that is left to `Evaluation.advance`.
-/

namespace Troupe

/-- What an evaluation needs to know besides the environment: its task, its transaction, the
time. -/
structure Context where
  task : Nat
  transaction : Nat
  now : Millis

/-- How deep evaluations nest before one is detached. -/
def maxNesting : Nat := 32

/-- Runs a job one level deeper; beyond the limit it is detached and starts at the top again. -/
def Store.nest {g : Goal} (s : Store) (cx : Context) (depth : Nat) (job : Nat → Job g) :
    Evaluation g × Store :=
  if depth < maxNesting then (.start (job (depth + 1)), s) else s.detach cx.task (job 0)

/-- Evaluates an expression one level deeper. -/
def Expr.nest (e : Expr) (cx : Context) (here : Place) (s : Store) : Evaluation .value × Store :=
  s.nest cx here.depth fun depth => .eval e { here with depth }

/-- Runs a statement one level deeper. -/
def Stmt.nest (stmt : Stmt) (cx : Context) (here : Place) (s : Store) :
    Evaluation .outcome × Store :=
  s.nest cx here.depth fun depth => .exec stmt { here with depth }

/-- Runs a block on a fresh frame of its variables; answers that frame, too. -/
def Block.nest (b : Block) (cx : Context) (caller : Place) (s : Store) :
    Env × Evaluation .outcome × Store :=
  let (env, s) := s.onHeap (·.newScope b.env caller.env b.vars)
  let (e, s) := b.body.nest cx { caller with env } s
  (env, e, s)

/-- The result of a transaction's operation, which ends a statement. -/
def Store.settle (s : Store) (cx : Context) (f : Transaction → Outcome × Transaction) :
    Evaluation .outcome × Store :=
  let (o, s) := s.onTransaction cx.transaction f
  (.done o, s)

/-- Ends a statement with an exception. -/
def Store.throw (s : Store) (cx : Context) (exception : Value) : Evaluation .outcome × Store :=
  s.settle cx (·.throw exception)

/-! ### Patterns -/

/-- The evaluation of a pattern that stands for a value; names, pairs and the pattern that matches
everything do not. -/
def Pattern.constant? (p : Pattern) (cx : Context) (here : Place) (s : Store) :
    Option (Evaluation .value × Store) :=
  match p with
  | .const v => some (.done v, s)
  | .value e => some (e.nest cx here s)
  | .self => some (.done (.ofActor? here.env.self?), s)
  | .any | .ident _ | .pair .. => none

/-- Goes on with the value that a pattern stands for. -/
def Pattern.withConstant {g : Goal} (p : Pattern) (cx : Context) (here : Place) (s : Store)
    (frame : Frame .value g) (otherwise : g.Result) : Evaluation g × Store :=
  match p.constant? cx here s with
  | some (e, s) => (.one e frame, s)
  | none => (.done otherwise, s)

/-- Matches a pattern with a value. -/
def Pattern.fit (p : Pattern) (v : Value) (cx : Context) (here : Place) (s : Store) :
    Evaluation .verdict × Store :=
  match p with
  | .any => (.done true, s)
  | .ident name =>
    let (ok, s) := s.bind name v here.env
    (.done ok, s)
  | .pair ph pt =>
    match v with
    | .pair h t => (.one (.start (.fit ph h here)) (.fitTail pt t here), s)
    | _ => (.done false, s)
  | p => p.withConstant cx here s (.equals v) false

/-- Unifies two patterns: what the left one is decides how. -/
def Pattern.unify (left right : Pattern) (cx : Context) (here : Place) (s : Store) :
    Evaluation .verdict × Store :=
  match left with
  | .any | .ident _ => (.start (.unifyName right left here), s)
  | .pair .. => (.start (.unifyPair right left here), s)
  | left => left.withConstant cx here s (.fit right here) false

/-- Unifies with a left side that is a name or matches everything: the right side has to stand for a
value. -/
def Pattern.unifyName (right left : Pattern) (cx : Context) (here : Place) (s : Store) :
    Evaluation .verdict × Store :=
  match right with
  | .any | .ident _ => (.done false, s)
  | .pair .. => (.one (.start (.resolve right here)) (.resolved left here), s)
  | right => right.withConstant cx here s (.fit left here) false

/-- Unifies with a left side that is a pair. -/
def Pattern.unifyPair (right left : Pattern) (cx : Context) (here : Place) (s : Store) :
    Evaluation .verdict × Store :=
  match right with
  | .any | .ident _ => (.start (.unifyName left right here), s)
  | .pair rh rt =>
    match left with
    | .pair lh lt => (.one (.start (.unify lh rh here)) (.unifyTail lt rt here), s)
    | _ => (.done false, s)
  | right => right.withConstant cx here s (.fit left here) false

/-- The value that a pattern stands for. The parts of a pair are evaluated side by side. -/
def Pattern.resolve (p : Pattern) (cx : Context) (here : Place) (s : Store) :
    Evaluation .meaning × Store :=
  match p with
  | .any | .ident _ => (.done none, s)
  | .pair h t => (.both (.start (.resolve h here)) (.start (.resolve t here)) .meanings, s)
  | p => p.withConstant cx here s .known none

/-! ### Expressions -/

/-- Matches the parameter of a function on a fresh layer over its environment. -/
def Closure.open (c : Closure) (argument : Value) (depth : Nat) (s : Store)
    (frame : Place → Frame .verdict .value) : Evaluation .value × Store :=
  let (env, s) := s.onHeap (·.newLayer c.env)
  let layer : Place := ⟨env, depth⟩
  (.one (.start (.fit c.param argument layer)) (frame layer), s)

/-- Applies a function; what is no function answers `?`. -/
def Value.enter (function argument : Value) (depth : Nat) (s : Store)
    (frame : Expr → Place → Frame .verdict .value) : Evaluation .value × Store :=
  match function with
  | .closure ref =>
    match s.heap.closures[ref]? with
    | some c => c.open argument depth s (frame c.body)
    | none => (.done .undefined, s)
  | .native f =>
    match s.heap.natives[f.index]? with
    | some f =>
      let (v, s) := s.onHeap (·.call f argument)
      (.done v, s)
    | none => (.done .undefined, s)
  | _ => (.done .undefined, s)

/-- Tries the next arm of a choice on a fresh layer; without an arm the choice is `?`. -/
def Arms.try (arms : Arms) (subject : Value) (here : Place) (s : Store) :
    Evaluation .value × Store :=
  match arms with
  | .nil => (.done .undefined, s)
  | .cons p body rest =>
    let (layer, s) := s.onHeap (·.newLayer here.env)
    (.one (.start (.fit p subject { here with env := layer }))
      (.arm body layer rest subject here), s)

/-- Looks a name up, or waits for it. -/
def Env.find (env : Env) (name : String) (s : Store) : Evaluation .value :=
  match s.heap.lookup name env with
  | .value v => .done v
  | .unbound slot => .parked slot

/-- A time as a number; times beyond the numbers are the largest one. -/
def Millis.toValue (t : Millis) : Value :=
  (Value.ofInt? t).getD (.number Int64.maxValue)

/-- Begins an expression. -/
def Expr.begin (e : Expr) (cx : Context) (here : Place) (s : Store) : Evaluation .value × Store :=
  match e with
  | .const v => (.done v, s)
  | .ident name => (here.env.find name s, s)
  | .lambda param body =>
    let (v, s) := s.onHeap (·.newClosure ⟨param, body, here.env⟩)
    (.done v, s)
  | .apply function argument =>
    let (f, s) := function.nest cx here s
    let (a, s) := argument.nest cx here s
    (.both f a (.apply here.depth), s)
  | .pair head tail =>
    let (h, s) := head.nest cx here s
    let (t, s) := tail.nest cx here s
    (.both h t .pair, s)
  | .choose subject arms =>
    let (v, s) := subject.nest cx here s
    (.one v (.choose arms here), s)
  | .cond left right yes no =>
    let (layer, s) := s.onHeap (·.newLayer here.env)
    (.one (.start (.unify left right { here with env := layer })) (.branch yes layer no here), s)
  | .block vars body =>
    let (v, s) := s.onHeap (·.newBlock ⟨vars, body, here.env⟩)
    (.done v, s)
  | .now => (.done cx.now.toValue, s)
  | .self => (.done (.ofActor? here.env.self?), s)
  | .new behavior =>
    let (v, s) := behavior.nest cx here s
    (.one v (.new here.env), s)

/-! ### Statements -/

/-- Evaluates the target and the message of a send side by side. -/
def Stmt.beginSend (message target : Expr) (delay : Option Millis) (cx : Context) (here : Place)
    (s : Store) : Evaluation .outcome × Store :=
  let (t, s) := target.nest cx here s
  let (m, s) := message.nest cx here s
  (.both t m (.send delay), s)

/-- Begins a statement. -/
def Stmt.begin (stmt : Stmt) (cx : Context) (here : Place) (s : Store) :
    Evaluation .outcome × Store :=
  match stmt with
  | .empty => (.done .ok, s)
  | .seq first second =>
    let (a, s) := first.nest cx here s
    let (b, s) := second.nest cx here s
    (.race a b, s)
  | .define p e =>
    let (v, s) := e.nest cx here s
    (.one v (.define p here), s)
  | .equate left right => (.one (.start (.unify left right here)) .equated, s)
  | .send message target => Stmt.beginSend message target none cx here s
  | .after delay message target =>
    let (d, s) := delay.nest cx here s
    (.one d (.delay message target here), s)
  | .create name behavior =>
    let (id, s) := s.reserve
    match s.bind name (.actor id) here.env with
    | (true, s) =>
      let (v, s) := behavior.nest cx here s
      (.one v (.init id ("@" ++ name) here.env), s)
    | (false, s) => s.throw cx (.pair (.symbol "conflict") (.symbol name))
  | .become behavior =>
    let (v, s) := behavior.nest cx here s
    (.one v .become, s)
  | .throw exception =>
    let (v, s) := exception.nest cx here s
    (.one v .throw, s)
  | .expr e =>
    let (v, s) := e.nest cx here s
    (.one v (.run here), s)

/-- Offers the variables that are bound as definitions. -/
def Store.offer (s : Store) (cx : Context) (env : Env) (vars : List String) : Store :=
  vars.foldl (fun s name =>
    match s.heap.lookup? name env with
    | some v => (s.onTransaction cx.transaction (·.define name v)).2
    | none => s) s

/-- Runs a block, then offers its variables. -/
def Block.publish (b : Block) (cx : Context) (caller : Place) (s : Store) :
    Evaluation .outcome × Store :=
  let (env, e, s) := b.nest cx caller s
  (.one e (.offer b.vars env), s)

/-! ### Beginning and going on -/

/-- Begins an evaluation. -/
def Job.begin {g : Goal} (job : Job g) (cx : Context) (s : Store) : Evaluation g × Store :=
  match job with
  | .eval e here => e.begin cx here s
  | .apply f a depth => f.enter a depth s .nested
  | .exec stmt here => stmt.begin cx here s
  | .publish b caller => b.publish cx caller s
  | .deliver behavior message self exported here =>
    (.one (.start (.apply behavior message here.depth)) (.perform self exported here), s)
  | .fit p v here => p.fit v cx here s
  | .unify left right here => left.unify right cx here s
  | .unifyName right left here => right.unifyName left cx here s
  | .unifyPair right left here => right.unifyPair left cx here s
  | .resolve p here => p.resolve cx here s

/-- Goes on with the answer of a part. -/
def Frame.resume {g h : Goal} (frame : Frame g h) (answer : g.Result) (cx : Context) (s : Store) :
    Evaluation h × Store :=
  match frame, answer with
  | .choose arms here, v => arms.try v here s
  | .arm body layer rest subject here, ok =>
    if ok then (.start (.eval body { here with env := layer }), s) else rest.try subject here s
  | .branch yes layer no here, ok =>
    (.start (if ok then .eval yes { here with env := layer } else .eval no here), s)
  | .enter body layer, ok => (if ok then .start (.eval body layer) else .done .undefined, s)
  | .nested body layer, ok => if ok then body.nest cx layer s else (.done .undefined, s)
  | .new env, v =>
    let (a, s) := s.create cx.transaction v env "new"
    (.done a, s)
  | .equals v, w => (.done (w == v), s)
  | .fit p here, v => (.start (.fit p v here), s)
  | .resolved p here, v? =>
    match v? with
    | some v => (.start (.fit p v here), s)
    | none => (.done false, s)
  | .fitTail p v here, ok => (if ok then .start (.fit p v here) else .done false, s)
  | .unifyTail left right here, ok =>
    (if ok then .start (.unify left right here) else .done false, s)
  | .known, v => (.done (if v.isUndefined then none else some v), s)
  | .define p here, v => (.one (.start (.fit p v here)) (.defined v), s)
  | .defined v, ok =>
    if ok then (.done .ok, s) else s.throw cx (.pair (.symbol "mismatch") v)
  | .equated, ok => if ok then (.done .ok, s) else s.throw cx (.symbol "conflict")
  | .delay message target here, v =>
    match v.natural? with
    | some ms => Stmt.beginSend message target (some ms) cx here s
    | none => s.throw cx (.pair (.symbol "bad-delay") v)
  | .init id name env, v => s.settle cx (·.init ⟨id, name, v, env⟩)
  | .become, v => (.done (.become v), s)
  | .throw, v => s.throw cx v
  | .run here, v =>
    match s.heap.block? v with
    | some b => (b.nest cx here s).2
    | none => (.done .ok, s)
  | .perform self exported here, v =>
    match s.heap.block? v with
    | some b =>
      let (env, s) := s.onHeap (·.newActor self here.env)
      let caller := { here with env }
      if exported then (.start (.publish b caller), s) else (b.nest cx caller s).2
    | none => s.throw cx (.symbol "behavior-block-required")
  | .offer vars env, o =>
    match o with
    | .fail => (.done .fail, s)
    | o => (.done o, s.offer cx env vars)

/-- Goes on with the answers of two parts. -/
def Join.resume {g h : Goal} (join : Join g h) (left right : g.Result) (cx : Context) (s : Store) :
    Evaluation h × Store :=
  match join, left, right with
  | .apply depth, f, a => f.enter a depth s .enter
  | .pair, h, t => (.done (.pair h t), s)
  | .send delay, target, message => s.settle cx (·.send message target delay)
  | .meanings, h?, t? =>
    match h?, t? with
    | some h, some t => (.done (some (.pair h t)), s)
    | _, _ => (.done none, s)

/-- Goes on when both statements of a sequence have finished. -/
def Outcome.join (a b : Outcome) (cx : Context) (s : Store) : Evaluation .outcome × Store :=
  match a.merge? b with
  | some o => (.done o, s)
  | none => s.throw cx (.symbol "become-conflict")

end Troupe
