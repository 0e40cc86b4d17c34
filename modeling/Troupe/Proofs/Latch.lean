import Mathlib.Data.List.DropRight
import Troupe.Proofs.Request

/-!
Transactions as a log with a latch.

Whoever holds the number of a transaction may call it, in any order and as often as they like. What
a call is answered can be read off the calls before it, without a look at the transaction. As long
as nothing was thrown, everything is accepted, and a commit hands over what was asked for since the
last commit or revert. The first exception closes the latch: from then on everything is refused, and
every revert answers that exception.

* `Transaction.Turn.Answered`: the answer to a call, given the calls and answers before it.
* `Store.calls_answered`: all calls, and the addresses that were handed out.
-/

namespace Troupe

open List Request Store

namespace Transaction

/-- A call of whoever holds a transaction. -/
inductive Call where
  /-- Takes an address. -/
  | reserve
  /-- Takes an address and asks for an actor under it. -/
  | create (behavior : Value) (env : Env) (name : String)
  /-- Asks for a new actor, a send or a definition, or throws. -/
  | ask (r : Request)
  | commit
  | revert

/-- What a call is answered. -/
inductive Receipt where
  | address (id : ActorId)
  | value (v : Value)
  | outcome (o : Outcome)
  | effects (e : Effects)
  | exception (x : Option Value)

/-- A call and its answer. -/
abbrev Turn := Call × Receipt

/-- Calls the transaction `i` of a store. -/
def Call.on (i : Nat) (c : Call) (s : Store) : Receipt × Store :=
  match c with
  | reserve => s.reserve.map .address id
  | create behavior env name => (s.create i behavior env name).map .value id
  | ask r => (s.onTransaction i r.apply).map .outcome id
  | commit => (s.onTransaction i (·.commit)).map .effects id
  | revert => (s.onTransaction i (·.revert)).map .exception id

namespace Turn

/-- What was asked for. -/
def request? : Turn → Option Request
  | (.ask r, _) => some r
  | (.create behavior env name, .value (.actor id)) => some (.init ⟨id, name, behavior, env⟩)
  | _ => none

/-- The call was a commit or a revert. -/
def settles : Turn → Bool
  | (.commit, _) | (.revert, _) => true
  | _ => false

/-- The address that was handed out. -/
def address? : Turn → Option ActorId
  | (_, .address id) => some id
  | (_, .value v) => v.actor?
  | _ => none

/-- The exception that has closed the latch. -/
def latch? (past : List Turn) : Option Value := firstException? (past.filterMap request?)

/-- What was asked for since the last commit or revert. -/
def unsettled (past : List Turn) : List Request :=
  (past.rtakeWhile (!settles ·)).filterMap request?

/-- The call was answered as the turns before it say. -/
def Answered (past : List Turn) : Turn → Prop
  | (.reserve, .address _) => True
  | (.create .., .value v) => ∃ id, v = .actor id
  | (.ask r, .outcome o) => o = if latch? past = none ∧ r.exception? = none then .ok else .fail
  | (.commit, .effects e) =>
    if latch? past = none then
      e.sends.toList = (unsettled past).filterMap send? ∧
        e.created.toList = (unsettled past).filterMap created? ∧
        e.defines.toList = (unsettled past).filterMap definition?
    else e.isEmpty = true
  | (.revert, .exception x) => x = latch? past
  | _ => False

end Turn

/-- The transaction that the turns so far leave. -/
def after (past : List Turn) : Transaction :=
  match Turn.latch? past with
  | some x => failed x
  | none => gathering (({} : Effects).extend (Turn.unsettled past))

lemma Turn.latch?_concat (past : List Turn) (turn : Turn) :
    latch? (past ++ [turn]) = (latch? past).or (turn.request?.bind exception?) := by
  rw [latch?, latch?, firstException?, filterMap_append, findSome?_append]
  congr 1
  cases h : turn.request? with
  | none | some => simp [h]

/-- A commit or a revert leaves nothing but an exception. -/
lemma after_concat_settles (past : List Turn) {turn : Turn} (h : turn.settles = true) :
    after (past ++ [turn]) = (after past).revert.2 := by
  have hrequest : turn.request? = none := by
    obtain ⟨c, r⟩ := turn
    cases c with
    | commit | revert => rfl
    | _ => cases h
  rw [after, after, Turn.latch?_concat, hrequest, Option.bind_none, Option.or_none, Turn.unsettled,
    rtakeWhile_concat_neg _ _ _ (by simp [h])]
  cases Turn.latch? past with
  | none => exact congrArg gathering (Effects.extend_nil _)
  | some x => rfl

/-- Everything else is asked of the transaction, if it asks for anything. -/
lemma after_concat (past : List Turn) {turn : Turn} (h : turn.settles = false) :
    after (past ++ [turn]) = (after past).replay turn.request?.toList := by
  rw [after, after, Turn.latch?_concat, Turn.unsettled, rtakeWhile_concat_pos _ _ _ (by simp [h]),
    filterMap_append]
  cases Turn.latch? past with
  | some x => exact (replay_failed x _).symm
  | none =>
    rw [replay_gathering, Effects.extend_extend]
    cases hr : turn.request? with
    | none => simp [hr, firstException?, Turn.unsettled]
    | some r =>
      cases hx : r.exception? <;> simp [hr, hx, firstException?, Turn.unsettled]

end Transaction

open Transaction

/-- Calls a transaction again and again; the turns, in order. -/
def Store.calls (i : Nat) : List Call → Store → List Turn
  | [], _ => []
  | c :: cs, s => (c, (c.on i s).1) :: calls i cs (c.on i s).2

section Calls

variable {i : Nat} {s : Store} {past : List Turn}

lemma Store.transaction_onTransaction {α : Type} (hi : i < s.transactions.size)
    (f : Transaction → α × Transaction) :
    (s.onTransaction i f).2.transaction i = (f (s.transaction i)).2 := by
  rw [transaction, transactions_onTransaction, Array.getElem?_modify, if_pos rfl, transaction,
    Array.getElem?_eq_getElem hi]
  rfl

lemma Transaction.Call.size_on (i : Nat) (c : Call) (s : Store) :
    (c.on i s).2.transactions.size = s.transactions.size := by
  cases c <;> simp [on, Store.create]

/-- One call is answered as the turns before it say, and they say what it leaves. -/
lemma Transaction.Call.on_answered (c : Call) (hi : i < s.transactions.size)
    (ht : s.transaction i = after past) :
    Turn.Answered past (c, (c.on i s).1) ∧
      (c.on i s).2.transaction i = after (past ++ [(c, (c.on i s).1)]) := by
  cases c with
  | reserve =>
    refine ⟨trivial, ?_⟩
    rwa [after_concat _ rfl]
  | create behavior env name =>
    have hr : i < s.reserve.2.transactions.size := hi
    refine ⟨⟨_, rfl⟩, ?_⟩
    rw [after_concat _ rfl, ← ht]
    exact transaction_onTransaction hr (·.init ⟨s.reserve.1, name, behavior, env⟩)
  | ask r =>
    refine ⟨?_, ?_⟩
    · show (r.apply (s.transaction i)).1 = _
      rw [ht, after]
      cases Turn.latch? past with
      | some x => simp
      | none =>
        cases hx : r.exception? with
        | some x => simp [apply_of_exception hx]
        | none => simp [apply_of_no_exception hx]
    · rw [after_concat _ rfl, ← ht]
      exact transaction_onTransaction hi r.apply
  | commit =>
    refine ⟨?_, ?_⟩
    · show Turn.Answered past (.commit, .effects (s.transaction i).commit.1)
      rw [ht, after, Turn.Answered]
      cases Turn.latch? past with
      | some x => rfl
      | none => simp [Transaction.commit, Effects.extend]
    · rw [after_concat_settles _ rfl, ← ht]
      refine (transaction_onTransaction hi (·.commit)).trans ?_
      cases s.transaction i <;> rfl
  | revert =>
    refine ⟨?_, ?_⟩
    · show (s.transaction i).revert.1 = Turn.latch? past
      rw [ht, after]
      cases Turn.latch? past <;> rfl
    · rw [after_concat_settles _ rfl, ← ht]
      exact transaction_onTransaction hi (·.revert)

/-- A call hands out the next address or none. -/
lemma Transaction.Call.on_issued (i : Nat) (c : Call) (s : Store) :
    (Turn.address? (c, (c.on i s).1) = none ∧ (c.on i s).2.ids = s.ids) ∨
      Turn.address? (c, (c.on i s).1) = some ⟨s.ids.issued + 1⟩ ∧
        (c.on i s).2.ids = ⟨s.ids.issued + 1⟩ := by
  cases c with
  | reserve | create => exact .inr ⟨rfl, rfl⟩
  | ask | commit | revert => exact .inl ⟨rfl, rfl⟩

/-- Addresses are handed out in order. -/
lemma Store.calls_issued (i : Nat) (cs : List Call) (s : Store) :
    ((s.calls i cs).filterMap Turn.address?).Pairwise (·.raw < ·.raw) ∧
      ∀ id ∈ (s.calls i cs).filterMap Turn.address?, s.ids.issued < id.raw := by
  induction cs generalizing s with
  | nil => exact ⟨.nil, by simp [calls]⟩
  | cons c cs ih =>
    obtain ⟨hpairwise, hlarger⟩ := ih (c.on i s).2
    rcases c.on_issued i s with ⟨haddress, hids⟩ | ⟨haddress, hids⟩
    · rw [hids] at hlarger
      rw [calls, filterMap_cons_none haddress]
      exact ⟨hpairwise, hlarger⟩
    · rw [hids] at hlarger
      rw [calls, filterMap_cons_some haddress]
      refine ⟨pairwise_cons.2 ⟨hlarger, hpairwise⟩, ?_⟩
      intro id hid
      rcases mem_cons.1 hid with rfl | hid
      · exact Nat.lt_succ_self _
      · exact (Nat.lt_succ_self _).trans (hlarger id hid)

/-- All calls are answered as the turns before them say. -/
lemma Store.calls_answered (cs : List Call) (hi : i < s.transactions.size)
    (ht : s.transaction i = after past) {before : List Turn} {turn : Turn} {later : List Turn}
    (h : s.calls i cs = before ++ turn :: later) : turn.Answered (past ++ before) := by
  induction cs generalizing s past before with
  | nil => simp [calls] at h
  | cons c cs ih =>
    obtain ⟨hanswered, hafter⟩ := c.on_answered hi ht
    rw [calls] at h
    cases before with
    | nil =>
      obtain ⟨rfl, -⟩ := cons_eq_cons.1 h
      rwa [append_nil]
    | cons first before =>
      obtain ⟨rfl, hrest⟩ := cons_eq_cons.1 h
      simpa using ih (c.size_on i s ▸ hi) hafter hrest

end Calls

/-- **Transactions are a log with a latch**: whatever calls a new transaction gets, each is answered
as the calls before it say, and all addresses that are handed out are different. -/
theorem Transaction.calls_latched (s : Store) (cs : List Call) :
    let (i, s) := s.newTransaction
    (∀ past turn future, s.calls i cs = past ++ turn :: future → turn.Answered past) ∧
      ((s.calls i cs).filterMap Turn.address?).Nodup := by
  refine ⟨fun past turn future h => ?_, ?_⟩
  · have hafter : s.newTransaction.2.transaction s.newTransaction.1 = after [] := by
      simp [newTransaction, transaction, after, Turn.latch?, Turn.unsettled,
        firstException?, empty]
    exact calls_answered cs (by simp [newTransaction]) hafter h
  · exact (calls_issued _ cs _).1.imp fun hlt heq => (heq ▸ hlt).false

/-- A send to something that is no actor closes the latch. -/
theorem Transaction.send_to_nil_latched :
    Turn.Answered
      [(.ask (.define "x" .nil), .outcome .ok), (.ask (.send .nil .nil none), .outcome .fail)]
      (.revert, .exception (some (.pair (.symbol "not-an-actor") .nil))) :=
  (calls_latched {} [.ask (.define "x" .nil), .ask (.send .nil .nil none), .revert]).1 _ _ [] rfl

end Troupe
