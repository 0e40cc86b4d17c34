import Mathlib.Algebra.Order.Group.Multiset
import Troupe.Proofs.Unfold

/-!
What a step asks for agrees with what it leaves.

Failure is recorded twice: in the transaction, and in the outcome that travels up the tree of a
statement (`Evaluation.Fails`). An address that was handed out is held by the tree that will stage
an actor under it (`Evaluation.reserved`), and then by the transaction. Only statements fail or
reserve addresses (`Evaluation.modest_of_ne`), so most steps touch neither record.

* `Job.begin_honest`, `Frame.resume_honest`, `Join.resume_honest`, `Outcome.join_honest`: the
  records agree after each step.
-/

namespace Troupe

open Evaluation Request Store Transaction

variable {g h : Goal}

/-! ### Failures and addresses in trees -/

/-- The answer of a statement that has failed. -/
def Goal.Failure : {g : Goal} → g.Result → Prop
  | .outcome, o => o = Outcome.fail
  | .value, _ => False
  | .verdict, _ => False
  | .meaning, _ => False

/-- The address that waits for the behavior of an actor. -/
def Frame.reserved {g h : Goal} : Frame g h → Multiset ActorId
  | .init id _ _ => {id}
  | _ => 0

namespace Evaluation

/-- The tree holds the outcome of a statement that has failed. -/
def Fails : {g : Goal} → Evaluation g → Prop
  | _, .done r => Goal.Failure r
  | _, .one part _ => part.Fails
  | _, .both left right _ => left.Fails ∨ right.Fails
  | _, .race left right => left.Fails ∨ right.Fails
  | _, _ => False

/-- The addresses under which a tree will stage actors. -/
def reserved : {g : Goal} → Evaluation g → Multiset ActorId
  | _, .one part frame => frame.reserved + part.reserved
  | _, .both left right _ => left.reserved + right.reserved
  | _, .race left right => left.reserved + right.reserved
  | _, _ => 0

@[simp] lemma fails_flat (e : Evaluation g) : e.flat.Fails ↔ e.Fails := by
  induction e with
  | one part frame ih => exact ih
  | both left right join ih1 ih2 | race left right ih1 ih2 => exact or_congr ih1 ih2
  | _ => exact Iff.rfl

@[simp] lemma reserved_flat (e : Evaluation g) : e.flat.reserved = e.reserved := by
  have hframe : ∀ {g h : Goal} (frame : Frame g h), frame.flat.reserved = frame.reserved := by
    intro g h frame
    cases frame <;> rfl
  induction e with
  | one part frame ih => rw [flat, reserved, reserved, hframe, ih]
  | both left right join ih1 ih2 | race left right ih1 ih2 =>
    rw [flat, reserved, reserved, ih1, ih2]
  | _ => rfl

/-- The tree holds no failure and no address. -/
structure Modest (e : Evaluation g) : Prop where
  sound : ¬ e.Fails
  free : e.reserved = 0

lemma Modest.one {part : Evaluation g} {frame : Frame g h} (inner : part.Modest)
    (free : frame.reserved = 0) : (one part frame).Modest :=
  ⟨inner.sound, by rw [reserved, free, inner.free, add_zero]⟩

lemma Modest.both {left right : Evaluation g} (first : left.Modest) (second : right.Modest)
    (join : Join g h) : (both left right join).Modest :=
  ⟨not_or.2 ⟨first.sound, second.sound⟩, by rw [reserved, first.free, second.free, add_zero]⟩

lemma Modest.race {left right : Evaluation .outcome} (first : left.Modest) (second : right.Modest) :
    (race left right).Modest :=
  ⟨not_or.2 ⟨first.sound, second.sound⟩, by rw [reserved, first.free, second.free, add_zero]⟩

/-- Only statements fail, and stage actors under addresses reserved before. -/
lemma modest_of_ne (hg : g ≠ .outcome) (e : Evaluation g) : e.Modest := by
  induction e with
  | @done g r => cases g <;> first | exact ⟨id, rfl⟩ | exact absurd rfl hg
  | start | parked | awaiting => exact ⟨id, rfl⟩
  | one part frame ih => cases frame <;> first | exact absurd rfl hg | exact .one (ih (by simp)) rfl
  | both left right join ih1 ih2 => cases join <;> exact .both (ih1 (by simp)) (ih2 (by simp)) _
  | race left right => exact absurd rfl hg

/-- Two parts side by side are no statements. -/
lemma modest_part (join : Join g h) (e : Evaluation g) : e.Modest := by
  cases join <;> exact modest_of_ne (by simp) e

lemma modest_both (left right : Evaluation g) (join : Join g h) : (both left right join).Modest :=
  .both (modest_part join left) (modest_part join right) join

lemma modest_one (part : Evaluation g) (frame : Frame g h) (hg : g ≠ .outcome)
    (free : frame.reserved = 0) : (one part frame).Modest :=
  (modest_of_ne hg part).one free

lemma modest_nest (s : Store) (cx : Context) (depth : Nat) (job : Nat → Job g) :
    (s.nest cx depth job).1.Modest := by
  unfold nest
  split <;> exact ⟨id, rfl⟩

lemma modest_nestBlock (b : Block) (cx : Context) (caller : Place) (s : Store) :
    (b.nest cx caller s).2.1.Modest :=
  modest_nest _ cx caller.depth fun depth => .exec b.body { caller with env := _, depth }

end Evaluation

/-! ### Who hands out addresses -/

namespace Store

variable (s : Store)

@[simp] lemma ids_bind (name : String) (v : Value) (env : Env) :
    (s.bind name v env).2.ids = s.ids := by
  simp [bind]

@[simp] lemma ids_nest (cx : Context) (depth : Nat) (job : Nat → Job g) :
    (s.nest cx depth job).2.ids = s.ids := by
  unfold nest
  split <;> rfl

@[simp] lemma ids_nestExpr (e : Expr) (cx : Context) (here : Place) :
    (e.nest cx here s).2.ids = s.ids := ids_nest ..

@[simp] lemma ids_nestStmt (stmt : Stmt) (cx : Context) (here : Place) :
    (stmt.nest cx here s).2.ids = s.ids := ids_nest ..

@[simp] lemma ids_nestBlock (b : Block) (cx : Context) (caller : Place) :
    (b.nest cx caller s).2.2.ids = s.ids := by
  simp [Block.nest, onHeap]

lemma ids_withConstant (p : Pattern) (cx : Context) (here : Place) (frame : Frame .value g)
    (otherwise : g.Result) : (p.withConstant cx here s frame otherwise).2.ids = s.ids := by
  cases p <;> simp [Pattern.withConstant, Pattern.constant?]

lemma ids_enter (function argument : Value) (depth : Nat)
    (frame : Expr → Place → Frame .verdict .value) :
    (function.enter argument depth s frame).2.ids = s.ids := by
  unfold Value.enter
  split
  · split
    · simp [Closure.open, onHeap]
    · rfl
  · split <;> simp [onHeap]
  · rfl

lemma ids_try (arms : Arms) (subject : Value) (here : Place) :
    (arms.try subject here s).2.ids = s.ids := by
  cases arms <;> simp [Arms.try, onHeap]

lemma ids_offer (cx : Context) (env : Env) (vars : List String) :
    (s.offer cx env vars).ids = s.ids := by
  rw [offer_eq]

end Store

/-! ### The two records -/

namespace Transaction

/-- A request is answered with a failure exactly if the transaction has failed then. -/
lemma apply_eq_fail_iff (r : Request) (t : Transaction) :
    (r.apply t).1 = .fail ↔ (r.apply t).2.isFailed = true := by
  cases t with
  | failed x => simp [isFailed]
  | gathering e =>
    cases h : r.exception? with
    | some x => simp [apply_of_exception h, isFailed]
    | none => simp [apply_of_no_exception h, isFailed]

/-- A transaction has failed after a log if it had failed before, or if the log throws. -/
lemma isFailed_replay (t : Transaction) (log : List Request) :
    (t.replay log).isFailed = true ↔
      t.isFailed = true ∨ (firstException? log).isSome = true := by
  cases t with
  | failed x => simp [isFailed]
  | gathering e =>
    rw [replay_gathering]
    cases firstException? log <;> simp [isFailed]

end Transaction

/-- The requests of a step and what it leaves agree: if this holds a failure, the transaction has
failed then; if a request throws, this holds a failure. -/
structure Candid (t : Transaction) (log : List Request) {g : Goal} (e : Evaluation g) : Prop where
  recorded : e.Fails → (t.replay log).isFailed = true
  shown : (Request.firstException? log).isSome = true → e.Fails

/-- The answer of the transaction ends a statement. -/
lemma Candid.request {t : Transaction} (r : Request) :
    Candid t [r] (.done (g := .outcome) (r.apply t).1) := by
  refine ⟨fun hf => (apply_eq_fail_iff r t).1 hf, fun hx => ?_⟩
  exact (apply_eq_fail_iff r t).2 ((isFailed_replay t [r]).2 (.inr hx))

/-- The addresses of the actors that a log stages. -/
def Request.stages (log : List Request) : Multiset ActorId :=
  ↑((log.filterMap created?).map (·.id))

/-- Addresses are passed on, all of them unless some are `lost`. -/
def Passed (lost : Prop) (old new : Multiset ActorId) : Prop := new ≤ old ∧ (new = old ∨ lost)

/-- Addresses are passed on; the next one may join them. -/
def Passes (lost : Prop) (ids : IdSource) (old new : Multiset ActorId) (ids' : IdSource) : Prop :=
  ids' = ids ∧ Passed lost old new ∨ ids' = ids.next.2 ∧ Passed lost (ids.next.1 ::ₘ old) new

lemma Passed.of_eq {lost : Prop} {old new : Multiset ActorId} (h : new = old) :
    Passed lost old new :=
  ⟨le_of_eq h, .inl h⟩

/-- The requests of a step agree with what it leaves, unless it passes on a failure, and the
addresses `old` are passed on; they are lost only if a request throws. -/
structure Honest (sound : Prop) (t : Transaction) (ids : IdSource) (old : Multiset ActorId)
    (log : List Request) {g : Goal} (e : Evaluation g) (ids' : IdSource) : Prop where
  candid : sound → Candid t log e
  passes : Passes ((Request.firstException? log).isSome = true) ids old
    (Request.stages log + e.reserved) ids'

namespace Honest

variable {sound : Prop} {t : Transaction} {ids ids' : IdSource} {old : Multiset ActorId}

lemma quiet {e : Evaluation g} (modest : e.Modest) (same : ids' = ids) :
    Honest sound t ids 0 [] e ids' :=
  ⟨fun _ => ⟨fun hf => absurd hf modest.sound, fun hx => by cases hx⟩,
    .inl ⟨same, .of_eq (by simp [modest.free, stages])⟩⟩

lemma request {r : Request} (hold : stages [r] = old) :
    Honest sound t ids old [r] (.done (g := .outcome) (r.apply t).1) ids :=
  ⟨fun _ => .request r, .inl ⟨rfl, .of_eq ((add_zero _).trans hold)⟩⟩

end Honest

/-! ### Steps -/

/-- Of all evaluations that begin, only that of a new actor with a name takes an address, and fails
at once if the name is taken. -/
theorem Job.begin_honest (job : Job g) (cx : Context) (s : Store) :
    Honest True (s.transaction cx.transaction) s.ids 0 (job.requests s) (job.begin cx s).1
      (job.begin cx s).2.ids := by
  cases job with
  | eval e here =>
    exact .quiet (modest_of_ne (by simp) _) (by cases e <;> simp [begin, Expr.begin, Store.onHeap])
  | apply f a depth => exact .quiet (modest_of_ne (by simp) _) (ids_enter ..)
  | exec stmt here =>
    cases stmt with
    | create name behavior =>
      rw [requests, begin, Stmt.begin]
      cases hb : s.reserve.2.bind name (.actor s.reserve.1) here.env with
      | mk ok s1 =>
        have hids : s1.ids = s.ids.next.2 := by
          have h := s.reserve.2.ids_bind name (.actor s.reserve.1) here.env
          rwa [hb] at h
        cases ok with
        | true =>
          simp only [hb, if_true]
          have hmodest := modest_of_ne (by simp) (behavior.nest cx here s1).1
          refine ⟨fun _ => ⟨fun hf => absurd hf hmodest.sound, fun hx => by cases hx⟩,
            .inr ⟨(ids_nestExpr ..).trans hids, .of_eq ?_⟩⟩
          rw [reserved, hmodest.free, add_zero]
          exact zero_add _
        | false =>
          have hs1 : s1.transactions = s.transactions := by
            rw [← s.transactions_reserve, ← s.reserve.2.transactions_bind name (.actor s.reserve.1)
              here.env, hb]
          simp only [hb, Bool.false_eq_true, if_false]
          refine ⟨fun _ => ?_, .inr ⟨hids, Multiset.zero_le _, .inr rfl⟩⟩
          rw [transaction, ← hs1]
          exact .request (.throw _)
    | seq first second =>
      have hfirst : (first.nest cx here s).1.Modest := modest_nest ..
      have hsecond : (second.nest cx here (first.nest cx here s).2).1.Modest :=
        modest_nest ..
      exact .quiet (hfirst.race hsecond) (by simp [begin, Stmt.begin])
    | empty => exact .quiet ⟨Outcome.noConfusion, rfl⟩ rfl
    | send message target =>
      exact .quiet (modest_both _ _ (.send none))
        (by simp [begin, Stmt.begin, Stmt.beginSend])
    | equate left right => exact .quiet (modest_one _ .equated (by simp) rfl) rfl
    | define | after | become | throw | expr =>
      exact .quiet (modest_one _ _ (by simp) rfl) (by simp [begin, Stmt.begin])
  | publish b caller =>
    exact .quiet ((modest_nestBlock b cx caller s).one rfl) (by simp [begin, Block.publish])
  | deliver behavior message self exported here => exact .quiet ⟨id, rfl⟩ rfl
  | fit p v here =>
    refine .quiet (modest_of_ne (by simp) _) ?_
    cases p with
    | pair ph pt => cases v <;> rfl
    | _ => simp [begin, Pattern.fit, ids_withConstant]
  | unify p _ here | unifyName p _ here | resolve p here =>
    refine .quiet (modest_of_ne (by simp) _) ?_
    cases p <;> simp [begin, Pattern.unify, Pattern.unifyName, Pattern.resolve, ids_withConstant]
  | unifyPair right left here =>
    refine .quiet (modest_of_ne (by simp) _) ?_
    cases right with
    | pair rh rt => cases left <;> rfl
    | _ => simp [begin, Pattern.unifyPair, ids_withConstant]

/-- A log of definitions throws nothing and stages no actor. -/
lemma defines_modest {f : String → Option Value} (vars : List String) :
    firstException? (vars.filterMap fun name => (f name).map (.define name)) = none ∧
      stages (vars.filterMap fun name => (f name).map (.define name)) = 0 := by
  have hdefine : ∀ r ∈ vars.filterMap fun name => (f name).map (define name),
      r.exception? = none ∧ r.created? = none := by
    intro r hr
    obtain ⟨name, _, hname⟩ := List.mem_filterMap.1 hr
    obtain ⟨v, _, rfl⟩ := Option.map_eq_some_iff.1 hname
    exact ⟨rfl, rfl⟩
  refine ⟨List.findSome?_eq_none_iff.2 fun r hr => (hdefine r hr).1, ?_⟩
  rw [stages, List.filterMap_eq_nil_iff.2 fun r hr => (hdefine r hr).2]
  rfl

/-- A statement that goes on throws exactly if it fails; only a failure that was passed on is not
its own. The address of a new actor is passed to the transaction. -/
theorem Frame.resume_honest (frame : Frame g h) (r : g.Result) (cx : Context) (s : Store) :
    Honest (¬ Goal.Failure r) (s.transaction cx.transaction) s.ids frame.reserved
      (frame.requests r s) (frame.resume r cx s).1 (frame.resume r cx s).2.ids := by
  cases frame with
  | choose arms here => exact .quiet (modest_of_ne (by simp) _) (ids_try ..)
  | arm body layer rest subject here =>
    refine .quiet (modest_of_ne (by simp) _) ?_
    cases r with
    | true => rfl
    | false => exact ids_try ..
  | nested body layer =>
    refine .quiet (modest_of_ne (by simp) _) ?_
    cases r with
    | true => exact ids_nestExpr ..
    | false => rfl
  | new env =>
    exact ⟨fun _ => ⟨fun hf => hf.elim, fun hx => by cases hx⟩, .inr ⟨rfl, .of_eq (add_zero _)⟩⟩
  | resolved p here =>
    refine .quiet (modest_of_ne (by simp) _) ?_
    cases r <;> rfl
  | define p here => exact .quiet (modest_one _ (.defined r) (by simp) rfl) rfl
  | defined | equated =>
    cases r with
    | true => exact .quiet ⟨Outcome.noConfusion, rfl⟩ rfl
    | false => exact .request rfl
  | delay message target here =>
    simp only [resume, requests]
    cases r.natural? with
    | some ms =>
      exact .quiet (modest_both _ _ (.send (some ms))) (by simp [Stmt.beginSend])
    | none => exact .request rfl
  | init | throw => exact .request rfl
  | become => exact .quiet ⟨Outcome.noConfusion, rfl⟩ rfl
  | run here =>
    simp only [resume, requests]
    split
    · exact .quiet (modest_nestBlock _ cx here s) (ids_nestBlock ..)
    · exact .quiet ⟨Outcome.noConfusion, rfl⟩ rfl
  | perform self exported here =>
    simp only [resume, requests]
    cases s.heap.block? r with
    | some b =>
      dsimp only
      split
      · exact .quiet ⟨id, rfl⟩ rfl
      · exact .quiet (modest_nestBlock b cx _ _) (ids_nestBlock ..)
    | none => exact .request rfl
  | offer vars env =>
    obtain ⟨hthrows, hstages⟩ := defines_modest (f := fun name => s.heap.lookup? name env) vars
    have hcandid : ∀ {o : Outcome}, o ≠ .fail → Candid (s.transaction cx.transaction)
        (vars.filterMap fun name => (s.heap.lookup? name env).map (.define name))
        (.done (g := .outcome) o) := by
      refine fun ho => ⟨fun hf => absurd hf ho, fun hx => ?_⟩
      rw [hthrows] at hx
      cases hx
    cases r with
    | fail => exact ⟨fun sound => absurd rfl sound, .inl ⟨rfl, .of_eq (add_zero _)⟩⟩
    | ok | become =>
      exact ⟨fun sound => hcandid sound, .inl ⟨ids_offer .., .of_eq ((add_zero _).trans hstages)⟩⟩
  | _ => exact .quiet (modest_of_ne (by simp) _) rfl

theorem Join.resume_honest (join : Join g h) (a b : g.Result) (cx : Context) (s : Store) :
    Honest True (s.transaction cx.transaction) s.ids 0 (join.requests a b) (join.resume a b cx s).1
      (join.resume a b cx s).2.ids := by
  cases join with
  | apply depth => exact .quiet (modest_of_ne (by simp) _) (ids_enter ..)
  | pair => exact .quiet ⟨id, rfl⟩ rfl
  | send delay => exact .request rfl
  | meanings =>
    refine .quiet (modest_of_ne (by simp) _) ?_
    cases a <;> cases b <;> rfl

theorem Outcome.join_honest (a b : Outcome) (cx : Context) (s : Store) :
    Honest (a ≠ .fail ∧ b ≠ .fail) (s.transaction cx.transaction) s.ids 0 (a.requests b)
      (a.join b cx s).1 (a.join b cx s).2.ids := by
  unfold join requests
  cases hm : a.merge? b with
  | some o =>
    refine ⟨fun hsound => ⟨fun ho => ?_, fun hx => by cases hx⟩, .inl ⟨rfl, .of_eq (add_zero _)⟩⟩
    cases a <;> cases b <;> simp_all [merge?, Fails, Goal.Failure]
  | none => exact .request rfl

end Troupe
