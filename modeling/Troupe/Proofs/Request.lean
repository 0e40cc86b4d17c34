import Troupe.Evaluation.Begin
import Troupe.Proofs.Agenda

/-!
What evaluations ask of their transaction.

A `Request` is one thing asked of a transaction; a log of requests is replayed on a transaction in
order. The requests of each step of an evaluation are listed beside the step (`Job.requests`,
`Frame.requests`, `Join.requests`, `Outcome.requests`).

* `Transaction.replay_gathering`: a log that throws nothing is gathered in order; otherwise the
  first exception stays.
-/

namespace Troupe

open Array

/-! ### Requests -/

/-- One thing asked of a transaction. -/
inductive Request where
  | init (a : StagedActor)
  | send (message target : Value) (delay : Option Millis)
  | define (name : String) (v : Value)
  | throw (exception : Value)

namespace Request

/-- Asks it of a transaction. -/
def apply (r : Request) (t : Transaction) : Outcome × Transaction :=
  match r with
  | init a => t.init a
  | send message target delay => t.send message target delay
  | define name v => t.define name v
  | throw exception => t.throw exception

/-- The exception that a request throws, if it throws one. -/
def exception? : Request → Option Value
  | throw exception => some exception
  | send _ (.actor _) _ => none
  | send _ target _ => some (.pair (.symbol "not-an-actor") target)
  | _ => none

/-- The send that a request adds. -/
def send? : Request → Option PendingSend
  | send message (.actor id) delay => some ⟨message, id, delay⟩
  | _ => none

/-- The new actor that a request adds. -/
def created? : Request → Option StagedActor
  | init a => some a
  | _ => none

/-- The definition that a request adds. -/
def definition? : Request → Option (String × Value)
  | define name v => some (name, v)
  | _ => none

end Request

/-- What was gathered, and then what a log adds to it. -/
def Effects.extend (e : Effects) (log : List Request) : Effects where
  sends := e.sends ++ (log.filterMap Request.send?).toArray
  created := e.created ++ (log.filterMap Request.created?).toArray
  defines := e.defines ++ (log.filterMap Request.definition?).toArray

@[simp] lemma Effects.extend_nil (e : Effects) : e.extend [] = e := by
  simp [extend]

lemma Effects.extend_extend (e : Effects) (log log' : List Request) :
    (e.extend log).extend log' = e.extend (log ++ log') := by
  simp [extend]

/-- The first exception that a log throws. -/
def Request.firstException? (log : List Request) : Option Value := log.findSome? exception?

namespace Transaction

/-- Asks the requests of a log, one after the other. -/
def replay (t : Transaction) (log : List Request) : Transaction :=
  log.foldl (fun t r => (r.apply t).2) t

lemma replay_cons (t : Transaction) (r : Request) (log : List Request) :
    t.replay (r :: log) = (r.apply t).2.replay log := rfl

lemma replay_append (t : Transaction) (log log' : List Request) :
    t.replay (log ++ log') = (t.replay log).replay log' := List.foldl_append

/-- A failed transaction refuses everything. -/
@[simp] lemma apply_failed (r : Request) (x : Value) :
    r.apply (.failed x) = (.fail, .failed x) := by
  cases r with
  | send message target delay => cases target <;> rfl
  | _ => rfl

/-- A failed transaction stays as it is. -/
@[simp] lemma replay_failed (x : Value) (log : List Request) :
    (failed x).replay log = failed x := by
  induction log with
  | nil => rfl
  | cons r log ih => rw [replay_cons, apply_failed, ih]

/-- A request that throws fails the transaction with its exception. -/
lemma apply_of_exception {r : Request} {x : Value} (h : r.exception? = some x) (e : Effects) :
    r.apply (.gathering e) = (.fail, .failed x) := by
  cases r with
  | init | define => simp [Request.exception?] at h
  | throw exception =>
    cases h
    rfl
  | send message target delay =>
    cases target <;> first | (cases h; rfl) | simp [Request.exception?] at h

/-- A request that throws nothing is gathered. -/
lemma apply_of_no_exception {r : Request} (h : r.exception? = none) (e : Effects) :
    r.apply (.gathering e) = (.ok, .gathering (e.extend [r])) := by
  cases r with
  | init a => simp [Request.apply, init, gather, Effects.extend, Request.send?, Request.created?,
      Request.definition?]
  | define name v => simp [Request.apply, define, gather, Effects.extend, Request.send?,
      Request.created?, Request.definition?]
  | throw exception => simp [Request.exception?] at h
  | send message target delay =>
    cases target with
    | actor id => simp [Request.apply, send, gather, Effects.extend, Request.send?,
        Request.created?, Request.definition?]
    | _ => simp [Request.exception?] at h

/-- A log on a transaction that has not failed: the first exception decides; without one, all is
gathered in order. -/
theorem replay_gathering (e : Effects) (log : List Request) :
    (gathering e).replay log =
      match Request.firstException? log with
      | some x => failed x
      | none => gathering (e.extend log) := by
  induction log generalizing e with
  | nil => simp [replay, Request.firstException?]
  | cons r log ih =>
    rw [replay_cons]
    cases h : r.exception? with
    | some x =>
      rw [apply_of_exception h, replay_failed]
      simp [Request.firstException?, h]
    | none =>
      rw [apply_of_no_exception h, ih]
      have hfirst : Request.firstException? (r :: log) = Request.firstException? log := by
        simp [Request.firstException?, h]
      rw [hfirst, Effects.extend_extend, List.singleton_append]

end Transaction

/-! ### The requests of each step -/

/-- What is asked when an evaluation begins: only a new actor whose name is taken throws. -/
def Job.requests {g : Goal} (job : Job g) (s : Store) : List Request :=
  match job with
  | .exec (.create name _) here =>
    let (id, s) := s.reserve
    if (s.bind name (.actor id) here.env).1 then []
    else [.throw (.pair (.symbol "conflict") (.symbol name))]
  | _ => []

/-- What is asked when an evaluation goes on with the answer of a part. -/
def Frame.requests {g h : Goal} (frame : Frame g h) (answer : g.Result) (s : Store) :
    List Request :=
  match frame, answer with
  | .new env, v => [.init ⟨s.reserve.1, "new", v, env⟩]
  | .defined v, ok => if ok then [] else [.throw (.pair (.symbol "mismatch") v)]
  | .equated, ok => if ok then [] else [.throw (.symbol "conflict")]
  | .delay .., v =>
    match v.natural? with
    | some _ => []
    | none => [.throw (.pair (.symbol "bad-delay") v)]
  | .init id name env, v => [.init ⟨id, name, v, env⟩]
  | .throw, v => [.throw v]
  | .perform .., v =>
    match s.heap.block? v with
    | some _ => []
    | none => [.throw (.symbol "behavior-block-required")]
  | .offer vars env, o =>
    match o with
    | .fail => []
    | _ => vars.filterMap fun name => (s.heap.lookup? name env).map (.define name)
  | _, _ => []

/-- What is asked when an evaluation goes on with the answers of two parts. -/
def Join.requests {g h : Goal} (join : Join g h) (left right : g.Result) : List Request :=
  match join, left, right with
  | .send delay, target, message => [.send message target delay]
  | _, _, _ => []

/-- What is asked when both statements of a sequence have finished. -/
def Outcome.requests (a b : Outcome) : List Request :=
  match a.merge? b with
  | some _ => []
  | none => [.throw (.symbol "become-conflict")]

namespace Store

/-! ### What operations leave alone -/

variable (s : Store)

@[simp] lemma transactions_bind (name : String) (v : Value) (env : Env) :
    (s.bind name v env).2.transactions = s.transactions := by
  simp [bind]

@[simp] lemma transactions_reserve : s.reserve.2.transactions = s.transactions := rfl

@[simp] lemma transactions_readAnswer (task ticket : Nat) (who : Waiter) :
    (s.readAnswer task ticket who).2.transactions = s.transactions := by
  rw [readAnswer_eq]
  rfl

/-- An operation of a transaction changes this transaction only. -/
@[simp] lemma transactions_onTransaction {α : Type} (i : Nat) (f : Transaction → α × Transaction) :
    (s.onTransaction i f).2.transactions = s.transactions.modify i fun t => (f t).2 := by
  unfold onTransaction transaction
  apply ext_getElem?
  intro j
  simp only [getElem?_setIfInBounds, getElem?_modify, size_setIfInBounds]
  by_cases hj : i = j
  · subst hj
    by_cases hs : i < s.transactions.size
    · simp [hs]
    · simp [hs]
  · simp [hj]

end Store

/-! ### Replaying in a store -/

/-- Replaying nothing changes nothing. -/
lemma modify_replay_nil (ts : Array Transaction) (i : Nat) : ts.modify i (·.replay []) = ts := by
  apply ext_getElem?
  intro j
  simp [Transaction.replay, getElem?_modify]

/-- Replaying two logs one after the other is replaying them in one. -/
lemma modify_replay_append (ts : Array Transaction) (i : Nat) (log log' : List Request) :
    (ts.modify i (·.replay log)).modify i (·.replay log') = ts.modify i
    (·.replay (log ++ log')) := by
  apply ext_getElem?
  intro j
  simp only [getElem?_modify, Transaction.replay_append]
  split <;> simp [Function.comp_def]

/-- The transaction on which a log was replayed. -/
lemma Store.transaction_of_replay {s s' : Store} {i : Nat} {log : List Request}
    (h : s'.transactions = s.transactions.modify i (·.replay log)) (hi : i < s.transactions.size) :
    s'.transaction i = (s.transaction i).replay log := by
  rw [transaction, transaction, h, getElem?_modify, if_pos rfl, getElem?_eq_getElem hi]
  rfl

end Troupe
