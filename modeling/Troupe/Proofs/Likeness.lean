import Mathlib.Data.Option.Basic
import Mathlib.Order.Basic
import Mathlib.Tactic.Common
import Troupe.Store

/-!
States that are the same but for the numbers in them.

What is allocated when depends on the order in which things are run, so two runs of one program put
the same things under different numbers. A `Likeness` says which number stands for which, kind by
kind; two values, terms, environments or evaluations are like each other if one becomes the other by
exchanging numbers in this way.

A likeness may relate numbers to themselves only (`Likeness.on`). What is like itself then mentions
no numbers but these.

Evaluations that are like each other are also well placed: patterns are matched on a layer inside of
an expression, and on the variables of a block inside of a statement (`Level`).

* `Value.Like`, `Env.Like`, `Expr.Like`, `Evaluation.Like`
* `Value.Like.eq_iff`: equality of values does not depend on the numbers.
* `Operation.apply_like`: nor do the functions that only compute.
-/

namespace Troupe

variable {here here' : Place} {g : Goal}

/-- Something in the heap, by kind and number. -/
structure Address where
  kind : Kind
  number : Nat
deriving DecidableEq

namespace Likeness

/-- Numbers are only related to themselves. -/
structure Diagonal (R : Likeness) : Prop where
  eq : ∀ {k : Kind} {i j : Nat}, R k i j → i = j

/-- The numbers in `K`, each related to itself. -/
def on (K : Set Address) : Likeness := fun k i j => i = j ∧ ⟨k, i⟩ ∈ K

lemma diagonal_on (K : Set Address) : (on K).Diagonal := ⟨fun h => h.1⟩

lemma unique_on (K : Set Address) : (on K).Unique := by
  constructor
  rintro k i j i' j' ⟨rfl, _⟩ ⟨rfl, _⟩
  exact Iff.rfl

lemma on_mono {K K' : Set Address} (h : K ⊆ K') : on K ≤ on K' := fun _ _ _ hij => ⟨hij.1, h hij.2⟩

end Likeness

variable {R R' : Likeness}

/-! ### Values -/

namespace Value.Like

variable {v w v' w' : Value}

lemma mono (hR : R ≤ R') (h : v.Like R w) : v.Like R' w := by
  induction h with
  | undefined => exact .undefined
  | nil => exact .nil
  | bool b => exact .bool b
  | number n => exact .number n
  | symbol name => exact .symbol name
  | pair _ _ ih1 ih2 => exact .pair ih1 ih2
  | actor id => exact .actor id
  | closure same => exact .closure (hR _ _ _ same)
  | native name same => exact .native name (hR _ _ _ same)
  | block same => exact .block (hR _ _ _ same)

lemma eq (hR : R.Diagonal) (h : v.Like R w) : v = w := by
  induction h with
  | pair _ _ ih1 ih2 => rw [ih1, ih2]
  | closure same | native name same | block same => rw [hR.eq same]
  | _ => rfl

/-- Equality of values does not depend on the numbers. -/
theorem eq_iff (unique : R.Unique) (h : v.Like R w) (h' : v'.Like R w') : v = v' ↔ w = w' := by
  induction h generalizing v' w' with
  | pair _ _ ih1 ih2 =>
    cases h' with
    | pair head tail => simp only [Value.pair.injEq, ih1 head, ih2 tail]
    | _ => simp
  | closure same =>
    cases h' with
    | closure same' => simpa using unique.iff same same'
    | _ => simp
  | native name same =>
    cases h' with
    | native name' same' =>
      simp only [Value.native.injEq, NativeRef.mk.injEq, unique.iff same same']
    | _ => simp
  | block same =>
    cases h' with
    | block same' => simpa using unique.iff same same'
    | _ => simp
  | _ => cases h' <;> simp

lemma beq_eq (unique : R.Unique) (h : v.Like R w) (h' : v'.Like R w') : (v == v') = (w == w') := by
  rw [Bool.eq_iff_iff, beq_iff_eq, beq_iff_eq]
  exact h.eq_iff unique h'

lemma isUndefined_eq (h : v.Like R w) : v.isUndefined = w.isUndefined := by
  cases h <;> rfl

lemma natural?_eq (h : v.Like R w) : v.natural? = w.natural? := by
  cases h <;> rfl

lemma bool?_eq (h : v.Like R w) : v.bool? = w.bool? := by
  cases h <;> rfl

lemma ofInt? {n : Int} (h : Value.ofInt? n = some v) : v.Like R v := by
  obtain ⟨n, _, rfl⟩ := Option.map_eq_some_iff.1 h
  exact .number n

lemma ofActor? (id : Option ActorId) : (Value.ofActor? id).Like R (Value.ofActor? id) := by
  cases id with
  | none => exact .undefined
  | some id => exact .actor id

end Value.Like

namespace Operation

variable {v w : Value}

lemma map_like {α : Type} {f : α → Value} (same : ∀ x, (f x).Like R (f x)) (x? : Option α) :
    Option.Rel (Value.Like R) (x?.map f) (x?.map f) := by
  cases x? with
  | none => exact .none
  | some x => exact .some (same x)

lemma arithmetic_like (f : Int64 → Int64 → Option Int64) (h : v.Like R w) :
    Option.Rel (Value.Like R) (arithmetic f v) (arithmetic f w) := by
  cases h with
  | pair head tail => cases head <;> cases tail <;> first | exact map_like .number _ | exact .none
  | _ => exact .none

lemma ordering?_eq (unique : R.Unique) (h : v.Like R w) : ordering? v = ordering? w := by
  cases h with
  | pair head tail =>
    simp only [ordering?, head.beq_eq unique tail]
    congr 1
    cases head <;> cases tail <;> rfl
  | _ => rfl

lemma readDigits?_eq (base n : Int64) (h : v.Like R w) :
    readDigits? base n v = readDigits? base n w := by
  induction h generalizing n with
  | pair head _ _ ih => cases head <;> simp only [readDigits?, ih]
  | _ => rfl

lemma readChars?_eq (acc : String) (h : v.Like R w) : readChars? acc v = readChars? acc w := by
  induction h generalizing acc with
  | pair head _ _ ih => cases head <;> simp only [readChars?, ih]
  | _ => rfl

lemma inRanges?_eq (n : Int64) (h : v.Like R w) : inRanges? n v = inRanges? n w := by
  induction h with
  | pair head _ _ ih =>
    cases head with
    | pair first second => cases first <;> cases second <;> simp only [inRanges?, ih] <;> rfl
    | _ => simp only [inRanges?, ih] <;> rfl
  | _ => rfl

lemma answer?_like (unique : R.Unique) (o : Operation) (h : v.Like R w) :
    Option.Rel (Value.Like R) (o.answer? v) (o.answer? w) := by
  cases o with
  | add | sub | mul | div => simpa only [answer?] using arithmetic_like _ h
  | neg =>
    cases h with
    | number n => exact map_like .number _
    | _ => exact .none
  | eq =>
    cases h with
    | pair head tail =>
      simp only [answer?, head.beq_eq unique tail]
      exact .some (.bool _)
    | _ => exact .none
  | compare =>
    simp only [answer?, ordering?_eq unique h]
    cases ordering? w with
    | none => exact .none
    | some o => exact map_like .number _
  | less | lessEqual | greater | greaterEqual =>
    simpa only [answer?, ordering?_eq unique h] using map_like (fun _ => .bool _) _
  | not =>
    cases h with
    | bool b => exact .some (.bool _)
    | _ => exact .none
  | and | or =>
    cases h with
    | pair head tail =>
      simp only [answer?, head.bool?_eq, tail.bool?_eq]
      split <;> first | exact .some (.bool _) | exact .none
    | _ => exact .none
  | tupleToNumber =>
    cases h with
    | pair head tail =>
      cases head with
      | number base =>
        simp only [answer?, readDigits?_eq _ _ tail]
        exact map_like .number _
      | _ => exact .none
    | _ => exact .none
  | tupleToSymbol =>
    simp only [answer?, readChars?_eq _ h]
    exact map_like .symbol _
  | inRangeSet =>
    cases h with
    | pair head tail =>
      cases tail with
      | number n =>
        simp only [answer?, inRanges?_eq _ head]
        exact map_like .bool _
      | _ => exact .none
    | _ => exact .none
  | mapEmpty => cases h <;> exact .none

/-- Functions that only compute do not look at the numbers. -/
theorem apply_like (unique : R.Unique) (o : Operation) (h : v.Like R w) :
    (o.apply v).Like R (o.apply w) := by
  have hanswer := answer?_like unique o h
  unfold apply
  generalize o.answer? v = x at hanswer ⊢
  generalize o.answer? w = y at hanswer ⊢
  cases hanswer with
  | some h => exact h
  | none => exact .undefined

end Operation

/-! ### Environments and terms -/

/-- Two environments are like each other. -/
inductive Env.Like (R : Likeness) : Env → Env → Prop where
  | empty : Like R .empty .empty
  | dynamic {i j : Nat} {base base' : Env} (same : R .layer i j) (rest : Like R base base') :
      Like R (.dynamic i base) (.dynamic j base')
  | block {i j : Nat} {captured captured' caller caller' : Env} (same : R .scope i j)
      (rest : Like R captured captured') (outer : Like R caller caller') :
      Like R (.block i captured caller) (.block j captured' caller')
  | actor (stamp : Nat) (id : ActorId) {next next' : Env} (rest : Like R next next') :
      Like R (.actor stamp id next) (.actor stamp id next')
  | global {i j : Nat} {next next' : Env} (same : R .dict i j) (rest : Like R next next') :
      Like R (.global i next) (.global j next')

namespace Env.Like

variable {env env' : Env}

lemma mono (hR : R ≤ R') (h : env.Like R env') : env.Like R' env' := by
  induction h with
  | empty => exact .empty
  | dynamic same _ ih => exact .dynamic (hR _ _ _ same) ih
  | block same _ _ ih1 ih2 => exact .block (hR _ _ _ same) ih1 ih2
  | actor stamp id _ ih => exact .actor stamp id ih
  | global same _ ih => exact .global (hR _ _ _ same) ih

lemma eq (hR : R.Diagonal) (h : env.Like R env') : env = env' := by
  induction h with
  | empty => rfl
  | dynamic same _ ih | global same _ ih => rw [hR.eq same, ih]
  | block same _ _ ih1 ih2 => rw [hR.eq same, ih1, ih2]
  | actor stamp id _ ih => rw [ih]

lemma self?_eq (h : env.Like R env') : env.self? = env'.self? := by
  induction h with
  | empty | actor => rfl
  | dynamic _ _ ih | block _ _ _ _ ih | global _ _ ih => exact ih

end Env.Like

mutual

/-- Two patterns are like each other. -/
inductive Pattern.Like (R : Likeness) : Pattern → Pattern → Prop where
  | any : Pattern.Like R .any .any
  | ident (name : String) : Pattern.Like R (.ident name) (.ident name)
  | const {v v' : Value} (v_like : v.Like R v') : Pattern.Like R (.const v) (.const v')
  | value {e e' : Expr} (e_like : Expr.Like R e e') : Pattern.Like R (.value e) (.value e')
  | pair {p q p' q' : Pattern} (head : Pattern.Like R p p') (tail : Pattern.Like R q q') :
      Pattern.Like R (.pair p q) (.pair p' q')
  | self : Pattern.Like R .self .self

/-- Two expressions are like each other. -/
inductive Expr.Like (R : Likeness) : Expr → Expr → Prop where
  | const {v v' : Value} (v_like : v.Like R v') : Expr.Like R (.const v) (.const v')
  | ident (name : String) : Expr.Like R (.ident name) (.ident name)
  | lambda {p p' : Pattern} {e e' : Expr} (param : Pattern.Like R p p') (body : Expr.Like R e e') :
      Expr.Like R (.lambda p e) (.lambda p' e')
  | apply {f f' a a' : Expr} (function : Expr.Like R f f') (argument : Expr.Like R a a') :
      Expr.Like R (.apply f a) (.apply f' a')
  | pair {a a' b b' : Expr} (head : Expr.Like R a a') (tail : Expr.Like R b b') :
      Expr.Like R (.pair a b) (.pair a' b')
  | choose {e e' : Expr} {x x' : Arms} (subject : Expr.Like R e e') (arms : Arms.Like R x x') :
      Expr.Like R (.choose e x) (.choose e' x')
  | cond {p p' q q' : Pattern} {a a' b b' : Expr} (left : Pattern.Like R p p')
      (right : Pattern.Like R q q') (yes : Expr.Like R a a') (no : Expr.Like R b b') :
      Expr.Like R (.cond p q a b) (.cond p' q' a' b')
  | block (vars : List String) {s s' : Stmt} (body : Stmt.Like R s s') :
      Expr.Like R (.block vars s) (.block vars s')
  | now : Expr.Like R .now .now
  | self : Expr.Like R .self .self
  | new {e e' : Expr} (behavior : Expr.Like R e e') : Expr.Like R (.new e) (.new e')

/-- The arms of two choices are like each other. -/
inductive Arms.Like (R : Likeness) : Arms → Arms → Prop where
  | nil : Arms.Like R .nil .nil
  | cons {p p' : Pattern} {e e' : Expr} {x x' : Arms} (pattern : Pattern.Like R p p')
      (body : Expr.Like R e e') (rest : Arms.Like R x x') :
      Arms.Like R (.cons p e x) (.cons p' e' x')

/-- Two statements are like each other. -/
inductive Stmt.Like (R : Likeness) : Stmt → Stmt → Prop where
  | empty : Stmt.Like R .empty .empty
  | seq {a a' b b' : Stmt} (first : Stmt.Like R a a') (second : Stmt.Like R b b') :
      Stmt.Like R (.seq a b) (.seq a' b')
  | define {p p' : Pattern} {e e' : Expr} (pattern : Pattern.Like R p p')
      (e_like : Expr.Like R e e') :
      Stmt.Like R (.define p e) (.define p' e')
  | equate {p p' q q' : Pattern} (left : Pattern.Like R p p') (right : Pattern.Like R q q') :
      Stmt.Like R (.equate p q) (.equate p' q')
  | send {m m' t t' : Expr} (message : Expr.Like R m m') (target : Expr.Like R t t') :
      Stmt.Like R (.send m t) (.send m' t')
  | after {d d' m m' t t' : Expr} (delay : Expr.Like R d d') (message : Expr.Like R m m')
      (target : Expr.Like R t t') : Stmt.Like R (.after d m t) (.after d' m' t')
  | create (name : String) {e e' : Expr} (behavior : Expr.Like R e e') :
      Stmt.Like R (.create name e) (.create name e')
  | become {e e' : Expr} (behavior : Expr.Like R e e') : Stmt.Like R (.become e) (.become e')
  | throw {e e' : Expr} (exception : Expr.Like R e e') : Stmt.Like R (.throw e) (.throw e')
  | expr {e e' : Expr} (e_like : Expr.Like R e e') : Stmt.Like R (.expr e) (.expr e')

end

mutual

lemma Pattern.Like.mono (hR : R ≤ R') : ∀ {p p' : Pattern}, p.Like R p' → p.Like R' p'
  | _, _, .any => .any
  | _, _, .ident name => .ident name
  | _, _, .const v => .const (v.mono hR)
  | _, _, .value e => .value (e.mono hR)
  | _, _, .pair h t => .pair (h.mono hR) (t.mono hR)
  | _, _, .self => .self

lemma Expr.Like.mono (hR : R ≤ R') : ∀ {e e' : Expr}, e.Like R e' → e.Like R' e'
  | _, _, .const v => .const (v.mono hR)
  | _, _, .ident name => .ident name
  | _, _, .lambda p e => .lambda (p.mono hR) (e.mono hR)
  | _, _, .apply f a => .apply (f.mono hR) (a.mono hR)
  | _, _, .pair h t => .pair (h.mono hR) (t.mono hR)
  | _, _, .choose e x => .choose (e.mono hR) (x.mono hR)
  | _, _, .cond p q a b => .cond (p.mono hR) (q.mono hR) (a.mono hR) (b.mono hR)
  | _, _, .block vars s => .block vars (s.mono hR)
  | _, _, .now => .now
  | _, _, .self => .self
  | _, _, .new e => .new (e.mono hR)

lemma Arms.Like.mono (hR : R ≤ R') : ∀ {x x' : Arms}, x.Like R x' → x.Like R' x'
  | _, _, .nil => .nil
  | _, _, .cons p e x => .cons (p.mono hR) (e.mono hR) (x.mono hR)

lemma Stmt.Like.mono (hR : R ≤ R') : ∀ {s s' : Stmt}, s.Like R s' → s.Like R' s'
  | _, _, .empty => .empty
  | _, _, .seq a b => .seq (a.mono hR) (b.mono hR)
  | _, _, .define p e => .define (p.mono hR) (e.mono hR)
  | _, _, .equate p q => .equate (p.mono hR) (q.mono hR)
  | _, _, .send m t => .send (m.mono hR) (t.mono hR)
  | _, _, .after d m t => .after (d.mono hR) (m.mono hR) (t.mono hR)
  | _, _, .create name e => .create name (e.mono hR)
  | _, _, .become e => .become (e.mono hR)
  | _, _, .throw e => .throw (e.mono hR)
  | _, _, .expr e => .expr (e.mono hR)

end

mutual

lemma Pattern.Like.eq (hR : R.Diagonal) : ∀ {p p' : Pattern}, p.Like R p' → p = p'
  | _, _, .any => rfl
  | _, _, .ident _ => rfl
  | _, _, .const v => congrArg _ (v.eq hR)
  | _, _, .value e => congrArg _ (e.eq hR)
  | _, _, .pair h t => congrArg₂ _ (h.eq hR) (t.eq hR)
  | _, _, .self => rfl

lemma Expr.Like.eq (hR : R.Diagonal) : ∀ {e e' : Expr}, e.Like R e' → e = e'
  | _, _, .const v => congrArg _ (v.eq hR)
  | _, _, .ident _ => rfl
  | _, _, .lambda p e => congrArg₂ _ (p.eq hR) (e.eq hR)
  | _, _, .apply f a => congrArg₂ _ (f.eq hR) (a.eq hR)
  | _, _, .pair h t => congrArg₂ _ (h.eq hR) (t.eq hR)
  | _, _, .choose e x => congrArg₂ _ (e.eq hR) (x.eq hR)
  | _, _, .cond p q a b => by rw [p.eq hR, q.eq hR, a.eq hR, b.eq hR]
  | _, _, .block vars s => congrArg _ (s.eq hR)
  | _, _, .now => rfl
  | _, _, .self => rfl
  | _, _, .new e => congrArg _ (e.eq hR)

lemma Arms.Like.eq (hR : R.Diagonal) : ∀ {x x' : Arms}, x.Like R x' → x = x'
  | _, _, .nil => rfl
  | _, _, .cons p e x => by rw [p.eq hR, e.eq hR, x.eq hR]

lemma Stmt.Like.eq (hR : R.Diagonal) : ∀ {s s' : Stmt}, s.Like R s' → s = s'
  | _, _, .empty => rfl
  | _, _, .seq a b => congrArg₂ _ (a.eq hR) (b.eq hR)
  | _, _, .define p e => congrArg₂ _ (p.eq hR) (e.eq hR)
  | _, _, .equate p q => congrArg₂ _ (p.eq hR) (q.eq hR)
  | _, _, .send m t => congrArg₂ _ (m.eq hR) (t.eq hR)
  | _, _, .after d m t => by rw [d.eq hR, m.eq hR, t.eq hR]
  | _, _, .create _ e => congrArg _ (e.eq hR)
  | _, _, .become e => congrArg _ (e.eq hR)
  | _, _, .throw e => congrArg _ (e.eq hR)
  | _, _, .expr e => congrArg _ (e.eq hR)

end

/-! ### Code in the heap -/

/-- Two functions are like each other. -/
structure Closure.Like (R : Likeness) (c c' : Closure) : Prop where
  param : c.param.Like R c'.param
  body : c.body.Like R c'.body
  env : c.env.Like R c'.env

/-- Two blocks are like each other. -/
structure Block.Like (R : Likeness) (b b' : Block) : Prop where
  vars : b.vars = b'.vars
  body : b.body.Like R b'.body
  env : b.env.Like R b'.env

/-- Two native functions are like each other. -/
inductive Native.Like (R : Likeness) : Native → Native → Prop where
  | operation (o : Operation) : Like R (.operation o) (.operation o)
  | mapBind : Like R .mapBind .mapBind
  | map {key key' value value' : Value} {rest rest' : Native} (key_like : key.Like R key')
      (value_like : value.Like R value') (rest_like : Like R rest rest') :
      Like R (.map key value rest) (.map key' value' rest')
  | identity : Like R .identity .identity
  | host (f : HostFunction) {held held' : Value} (held_like : held.Like R held') :
      Like R (.host f held) (.host f held')

lemma Closure.Like.mono {c c' : Closure} (hR : R ≤ R') (h : c.Like R c') : c.Like R' c' :=
  ⟨h.param.mono hR, h.body.mono hR, h.env.mono hR⟩

lemma Closure.Like.eq {c c' : Closure} (hR : R.Diagonal) (h : c.Like R c') : c = c' := by
  cases c
  cases c'
  simp only [Closure.mk.injEq]
  exact ⟨h.param.eq hR, h.body.eq hR, h.env.eq hR⟩

lemma Block.Like.mono {b b' : Block} (hR : R ≤ R') (h : b.Like R b') : b.Like R' b' :=
  ⟨h.vars, h.body.mono hR, h.env.mono hR⟩

lemma Block.Like.eq {b b' : Block} (hR : R.Diagonal) (h : b.Like R b') : b = b' := by
  cases b
  cases b'
  simp only [Block.mk.injEq]
  exact ⟨h.vars, h.body.eq hR, h.env.eq hR⟩

namespace Native.Like

variable {f f' : Native}

lemma mono (hR : R ≤ R') (h : f.Like R f') : f.Like R' f' := by
  induction h with
  | operation o => exact .operation o
  | mapBind => exact .mapBind
  | map key value _ ih => exact .map (key.mono hR) (value.mono hR) ih
  | identity => exact .identity
  | host f held => exact .host f (held.mono hR)

lemma eq (hR : R.Diagonal) (h : f.Like R f') : f = f' := by
  induction h with
  | map key value _ ih => rw [key.eq hR, value.eq hR, ih]
  | host f held => rw [held.eq hR]
  | _ => rfl

lemma name_eq (h : f.Like R f') : f.name = f'.name := by
  cases h <;> rfl

end Native.Like

/-! ### Evaluations -/

/-- What patterns are matched on: a layer inside of an expression, the variables of a block inside
of a statement. -/
inductive Level where
  | layer | block

/-- What patterns are matched on in an environment. -/
def Env.level? : Env → Option Level
  | .dynamic .. => some .layer
  | .block .. => some .block
  | _ => none

/-- Two places are like each other. -/
structure Place.Like (R : Likeness) (here here' : Place) : Prop where
  env : here.env.Like R here'.env
  depth : here.depth = here'.depth

/-- Two places to match patterns at are like each other. -/
structure Place.LikeAt (R : Likeness) (level : Level) (here here' : Place) : Prop extends
    Place.Like R here here' where
  level : here.env.level? = some level

lemma Place.Like.mono (hR : R ≤ R') (h : here.Like R here') : here.Like R' here' :=
  ⟨h.env.mono hR, h.depth⟩

lemma Place.Like.eq (hR : R.Diagonal) (h : here.Like R here') : here = here' := by
  cases here
  cases here'
  simp only [Place.mk.injEq]
  exact ⟨h.env.eq hR, h.depth⟩

lemma Place.LikeAt.mono {level : Level} (hR : R ≤ R') (h : here.LikeAt R level here') :
    here.LikeAt R' level here' :=
  ⟨h.toLike.mono hR, h.level⟩

/-- Two results of statements that have not failed are like each other. -/
inductive Outcome.Like (R : Likeness) : Outcome → Outcome → Prop where
  | ok : Like R .ok .ok
  | become {v v' : Value} (behavior : v.Like R v') : Like R (.become v) (.become v')

/-- Two answers are like each other. -/
def Goal.Like (R : Likeness) : (g : Goal) → g.Result → g.Result → Prop
  | .value => Value.Like R
  | .verdict => Eq
  | .meaning => Option.Rel (Value.Like R)
  | .outcome => Outcome.Like R

lemma Goal.Like.mono {r r' : g.Result} (hR : R ≤ R') (h : g.Like R r r') : g.Like R' r r' := by
  cases g with
  | value => exact Value.Like.mono hR h
  | verdict => exact h
  | meaning =>
    cases h with
    | some h => exact .some (h.mono hR)
    | none => exact .none
  | outcome =>
    cases h with
    | ok => exact .ok
    | become h => exact .become (h.mono hR)

lemma Goal.Like.eq {r r' : g.Result} (hR : R.Diagonal) (h : g.Like R r r') : r = r' := by
  cases g with
  | value => exact Value.Like.eq hR h
  | verdict => exact h
  | meaning =>
    cases h with
    | some h => rw [h.eq hR]
    | none => rfl
  | outcome =>
    cases h with
    | ok => rfl
    | become h => rw [h.eq hR]

/-- Two jobs are like each other. The level is that of the patterns that a job matches. -/
inductive Job.Like (R : Likeness) : Level → {g : Goal} → Job g → Job g → Prop where
  | eval {level : Level} {e e' : Expr} {here here' : Place} (e_like : e.Like R e')
      (place : here.Like R here') : Like R level (.eval e here) (.eval e' here')
  | apply {level : Level} {f f' a a' : Value} (function : f.Like R f') (argument : a.Like R a')
      (depth : Nat) : Like R level (.apply f a depth) (.apply f' a' depth)
  | exec {level : Level} {s s' : Stmt} {here here' : Place} (s_like : s.Like R s')
      (place : here.LikeAt R .block here') : Like R level (.exec s here) (.exec s' here')
  | fit {level : Level} {p p' : Pattern} {v v' : Value} {here here' : Place} (p_like : p.Like R p')
      (v_like : v.Like R v') (place : here.LikeAt R level here') :
      Like R level (.fit p v here) (.fit p' v' here')
  | unify {level : Level} {p p' q q' : Pattern} {here here' : Place} (left : p.Like R p')
      (right : q.Like R q') (place : here.LikeAt R level here') :
      Like R level (.unify p q here) (.unify p' q' here')
  | unifyName {level : Level} {p p' q q' : Pattern} {here here' : Place} (right : p.Like R p')
      (left : q.Like R q') (place : here.LikeAt R level here') :
      Like R level (.unifyName p q here) (.unifyName p' q' here')
  | unifyPair {level : Level} {p p' q q' : Pattern} {here here' : Place} (right : p.Like R p')
      (left : q.Like R q') (place : here.LikeAt R level here') :
      Like R level (.unifyPair p q here) (.unifyPair p' q' here')
  | resolve {level : Level} {p p' : Pattern} {here here' : Place} (p_like : p.Like R p')
      (place : here.Like R here') : Like R level (.resolve p here) (.resolve p' here')

/-- Two frames are like each other. The levels are those of the patterns that the part matches, and
of those that are matched after it. -/
inductive Frame.Like (R : Likeness) :
    Level → Level → {g h : Goal} → Frame g h → Frame g h → Prop where
  | choose {inner outer : Level} {x x' : Arms} {here here' : Place} (arms : x.Like R x')
      (place : here.Like R here') : Like R inner outer (.choose x here) (.choose x' here')
  | arm {outer : Level} {e e' : Expr} {layer layer' : Env} {x x' : Arms} {v v' : Value}
      {here here' : Place} (body : e.Like R e') (env : layer.Like R layer') (rest : x.Like R x')
      (subject : v.Like R v') (place : here.Like R here') :
      Like R .layer outer (.arm e layer x v here) (.arm e' layer' x' v' here')
  | branch {outer : Level} {a a' b b' : Expr} {layer layer' : Env} {here here' : Place}
      (yes : a.Like R a') (env : layer.Like R layer') (no : b.Like R b')
      (place : here.Like R here') :
      Like R .layer outer (.branch a layer b here) (.branch a' layer' b' here')
  | enter {outer : Level} {e e' : Expr} {here here' : Place} (body : e.Like R e')
      (place : here.Like R here') : Like R .layer outer (.enter e here) (.enter e' here')
  | nested {outer : Level} {e e' : Expr} {here here' : Place} (body : e.Like R e')
      (place : here.Like R here') : Like R .layer outer (.nested e here) (.nested e' here')
  | new {inner outer : Level} {env env' : Env} (env_like : env.Like R env') :
      Like R inner outer (.new env) (.new env')
  | equals {inner outer : Level} {v v' : Value} (v_like : v.Like R v') :
      Like R inner outer (.equals v) (.equals v')
  | fit {inner outer : Level} {p p' : Pattern} {here here' : Place} (p_like : p.Like R p')
      (place : here.LikeAt R outer here') : Like R inner outer (.fit p here) (.fit p' here')
  | resolved {inner outer : Level} {p p' : Pattern} {here here' : Place} (p_like : p.Like R p')
      (place : here.LikeAt R outer here') :
      Like R inner outer (.resolved p here) (.resolved p' here')
  | fitTail {level : Level} {p p' : Pattern} {v v' : Value} {here here' : Place}
      (p_like : p.Like R p') (v_like : v.Like R v') (place : here.LikeAt R level here') :
      Like R level level (.fitTail p v here) (.fitTail p' v' here')
  | unifyTail {level : Level} {p p' q q' : Pattern} {here here' : Place} (left : p.Like R p')
      (right : q.Like R q') (place : here.LikeAt R level here') :
      Like R level level (.unifyTail p q here) (.unifyTail p' q' here')
  | known {inner outer : Level} : Like R inner outer .known .known
  | define {inner outer : Level} {p p' : Pattern} {here here' : Place} (p_like : p.Like R p')
      (place : here.LikeAt R .block here') :
      Like R inner outer (.define p here) (.define p' here')
  | defined {outer : Level} {v v' : Value} (v_like : v.Like R v') :
      Like R .block outer (.defined v) (.defined v')
  | equated {outer : Level} : Like R .block outer .equated .equated
  | delay {inner outer : Level} {m m' t t' : Expr} {here here' : Place} (message : m.Like R m')
      (target : t.Like R t') (place : here.Like R here') :
      Like R inner outer (.delay m t here) (.delay m' t' here')
  | become {inner outer : Level} : Like R inner outer .become .become
  | throw {inner outer : Level} : Like R inner outer .throw .throw
  | run {inner outer : Level} {here here' : Place} (place : here.Like R here') :
      Like R inner outer (.run here) (.run here')

/-- Two evaluations are like each other. None of them is detached or a sequence. -/
inductive Evaluation.Like (R : Likeness) :
    Level → {g : Goal} → Evaluation g → Evaluation g → Prop where
  | done {level : Level} {g : Goal} {r r' : g.Result} (answer : g.Like R r r') :
      Like R level (.done r) (.done r')
  | start {level : Level} {g : Goal} {job job' : Job g} (job_like : job.Like R level job') :
      Like R level (.start job) (.start job')
  | parked {level : Level} {i j : Nat} (same : R .slot i j) : Like R level (.parked i) (.parked j)
  | one {inner outer : Level} {g h : Goal} {part part' : Evaluation g} {frame frame' : Frame g h}
      (part_like : Like R inner part part') (frame_like : frame.Like R inner outer frame') :
      Like R outer (.one part frame) (.one part' frame')
  | both {inner outer : Level} {g h : Goal} {left left' right right' : Evaluation g}
      (first : Like R inner left left') (second : Like R inner right right') (join : Join g h) :
      Like R outer (.both left right join) (.both left' right' join)

lemma Job.Like.mono {level : Level} {job job' : Job g} (hR : R ≤ R') (h : job.Like R level job') :
    job.Like R' level job' := by
  cases h with
  | eval e place => exact .eval (e.mono hR) (place.mono hR)
  | apply f a depth => exact .apply (f.mono hR) (a.mono hR) depth
  | exec s place => exact .exec (s.mono hR) (place.mono hR)
  | fit p v place => exact .fit (p.mono hR) (v.mono hR) (place.mono hR)
  | unify p q place => exact .unify (p.mono hR) (q.mono hR) (place.mono hR)
  | unifyName p q place => exact .unifyName (p.mono hR) (q.mono hR) (place.mono hR)
  | unifyPair p q place => exact .unifyPair (p.mono hR) (q.mono hR) (place.mono hR)
  | resolve p place => exact .resolve (p.mono hR) (place.mono hR)

lemma Job.Like.eq {level : Level} {job job' : Job g} (hR : R.Diagonal) (h : job.Like R level job') :
    job = job' := by
  cases h with
  | eval e place => rw [e.eq hR, place.eq hR]
  | apply f a depth => rw [f.eq hR, a.eq hR]
  | exec s place => rw [s.eq hR, place.eq hR]
  | fit p v place => rw [p.eq hR, v.eq hR, place.eq hR]
  | unify p q place | unifyName p q place | unifyPair p q place =>
    rw [p.eq hR, q.eq hR, place.eq hR]
  | resolve p place => rw [p.eq hR, place.eq hR]

lemma Frame.Like.mono {inner outer : Level} {h : Goal} {frame frame' : Frame g h} (hR : R ≤ R')
    (hf : frame.Like R inner outer frame') : frame.Like R' inner outer frame' := by
  cases hf with
  | choose x place => exact .choose (x.mono hR) (place.mono hR)
  | arm e env x v place =>
    exact .arm (e.mono hR) (env.mono hR) (x.mono hR) (v.mono hR) (place.mono hR)
  | branch a env b place => exact .branch (a.mono hR) (env.mono hR) (b.mono hR) (place.mono hR)
  | enter e place => exact .enter (e.mono hR) (place.mono hR)
  | nested e place => exact .nested (e.mono hR) (place.mono hR)
  | new env => exact .new (env.mono hR)
  | equals v => exact .equals (v.mono hR)
  | fit p place => exact .fit (p.mono hR) (place.mono hR)
  | resolved p place => exact .resolved (p.mono hR) (place.mono hR)
  | fitTail p v place => exact .fitTail (p.mono hR) (v.mono hR) (place.mono hR)
  | unifyTail p q place => exact .unifyTail (p.mono hR) (q.mono hR) (place.mono hR)
  | known => exact .known
  | define p place => exact .define (p.mono hR) (place.mono hR)
  | defined v => exact .defined (v.mono hR)
  | equated => exact .equated
  | delay m t place => exact .delay (m.mono hR) (t.mono hR) (place.mono hR)
  | become => exact .become
  | throw => exact .throw
  | run place => exact .run (place.mono hR)

lemma Frame.Like.eq {inner outer : Level} {h : Goal} {frame frame' : Frame g h} (hR : R.Diagonal)
    (hf : frame.Like R inner outer frame') : frame = frame' := by
  cases hf with
  | choose x place => rw [x.eq hR, place.eq hR]
  | arm e env x v place => rw [e.eq hR, env.eq hR, x.eq hR, v.eq hR, place.eq hR]
  | branch a env b place => rw [a.eq hR, env.eq hR, b.eq hR, place.eq hR]
  | enter e place | nested e place => rw [e.eq hR, place.eq hR]
  | new env => rw [env.eq hR]
  | equals v => rw [v.eq hR]
  | fit p place | resolved p place | define p place => rw [p.eq hR, place.eq hR]
  | fitTail p v place => rw [p.eq hR, v.eq hR, place.eq hR]
  | unifyTail p q place => rw [p.eq hR, q.eq hR, place.eq hR]
  | defined v => rw [v.eq hR]
  | delay m t place => rw [m.eq hR, t.eq hR, place.eq hR]
  | run place => rw [place.eq hR]
  | _ => rfl

namespace Evaluation.Like

variable {level : Level} {e e' : Evaluation g}

lemma mono (hR : R ≤ R') (h : e.Like R level e') : e.Like R' level e' := by
  induction h with
  | done answer => exact .done (answer.mono hR)
  | start job => exact .start (job.mono hR)
  | parked same => exact .parked (hR _ _ _ same)
  | one _ frame ih => exact .one ih (frame.mono hR)
  | both _ _ join ih1 ih2 => exact .both ih1 ih2 join

lemma eq (hR : R.Diagonal) (h : e.Like R level e') : e = e' := by
  induction h with
  | done answer => rw [answer.eq hR]
  | start job => rw [job.eq hR]
  | parked same => rw [hR.eq same]
  | one _ frame ih => rw [ih, frame.eq hR]
  | both _ _ join ih1 ih2 => rw [ih1, ih2]

end Evaluation.Like

/-- Two sends are like each other. -/
structure PendingSend.Like (R : Likeness) (x x' : PendingSend) : Prop where
  message : x.message.Like R x'.message
  target : x.target = x'.target
  delay : x.delay = x'.delay

lemma PendingSend.Like.mono {x x' : PendingSend} (hR : R ≤ R') (h : x.Like R x') : x.Like R' x' :=
  ⟨h.message.mono hR, h.target, h.delay⟩

lemma PendingSend.Like.eq {x x' : PendingSend} (hR : R.Diagonal) (h : x.Like R x') : x = x' := by
  cases x
  cases x'
  simp only [PendingSend.mk.injEq]
  exact ⟨h.message.eq hR, h.target, h.delay⟩

end Troupe
