import Mathlib.Algebra.Order.Group.Multiset
import Troupe.Proofs.Unification

/-!
Statements that send.

`Stmt.sends` is a sequence of sends of constants to one actor. Whatever order its parts are run in,
no message gets lost and none is sent twice: what a tree still has to send (`Evaluation.Sending`)
and what the transaction has gathered are together the same messages all the time.

* `Evaluation.Sending.micro`: a small step sends a message that was left, or none.
* `Evaluation.Sending.halts`: the sends come to an end.
* `Evaluation.Sending.steps`: along all steps, what was sent and what is left add up.
-/

namespace Troupe

open List Multiset Store

variable {f : Evaluation .outcome} {n : Nat} {id : ActorId} {ms : Multiset Value} {ds : List Work}
  {env : Env}

/-- Sends of constants to one target, side by side. -/
def Stmt.sends (target : Expr) (ms : List Value) : Stmt :=
  .ofList (ms.map fun m => .send (.const m) target)

/-- Several sends are the first one and the others beside it. -/
lemma Stmt.sends_cons (target : Expr) (m : Value) {ms : List Value} (some : ms ≠ []) :
    Stmt.sends target (m :: ms) = .seq (.send (.const m) target) (.sends target ms) := by
  cases ms with
  | nil => exact absurd rfl some
  | cons m' ms => rfl

/-- The expression is the address of an actor, or a name that stands for it. -/
inductive Expr.Points (env : Env) (h : Heap) (id : ActorId) : Expr → Prop where
  | const : Points env h id (.const (.actor id))
  | ident {name : String} (found : h.lookup name env = .value (.actor id)) :
      Points env h id (.ident name)

lemma Expr.Points.congr {env' : Env} {h h' : Heap} {e : Expr} (points : e.Points env h id)
    (same : ∀ name, h'.lookup name env' = h.lookup name env) : e.Points env' h' id := by
  cases points with
  | const => exact .const
  | ident found => exact .ident ((same _).trans found)

/-- The transaction has gathered these messages to the actor, in this order, and nothing else. -/
def Core.Outbox (cx : Context) (id : ActorId) (c : Core) (ms : List Value) : Prop :=
  c.transactions[cx.transaction]? =
    some (.gathering { sends := (ms.map fun m => ⟨m, id, none⟩).toArray })

lemma Core.Outbox.congr {cx : Context} {s s' : Store} {ms : List Value} (h : s.core.Outbox cx id ms)
    (same : s'.transactions = s.transactions) : s'.core.Outbox cx id ms :=
  (congrArg (·[cx.transaction]?) same).trans h

/-- A send is gathered behind the others. -/
lemma Core.Outbox.send {cx : Context} {id : ActorId} {s : Store} {ms : List Value}
    (h : s.core.Outbox cx id ms) (m : Value) :
    ∃ s', s.settle cx (·.send m (.actor id) none) = (.done .ok, s') ∧ s'.heap = s.heap ∧
      s'.agendas = s.agendas ∧ s'.core.Outbox cx id (ms ++ [m]) := by
  have hget : s.transactions[cx.transaction]? = _ := h
  have hlt : cx.transaction < s.transactions.size := by
    by_contra hge
    rw [Array.getElem?_eq_none (Nat.le_of_not_lt hge)] at hget
    cases hget
  have htransaction : s.transaction cx.transaction =
      .gathering { sends := (ms.map fun m => ⟨m, id, none⟩).toArray } := by
    simp [transaction, hget]
  refine ⟨(s.settle cx (·.send m (.actor id) none)).2, ?_, rfl, rfl, ?_⟩
  · rw [settle, onTransaction, htransaction]
    rfl
  · rw [Outbox, settle, onTransaction, htransaction]
    simp [core, Transaction.send, Transaction.gather, hlt]

namespace Evaluation

/-- An operand of a send: its value is known, or it has not begun. The number bounds its steps. -/
inductive Operand (target : Expr) (env : Env) (id : ActorId) :
    Evaluation .value → Value → Nat → Prop where
  | done (v : Value) : Operand target env id (.done v) v 0
  | const (v : Value) : Operand target env id (.start (.eval (.const v) ⟨env, 0⟩)) v 1
  | target : Operand target env id (.start (.eval target ⟨env, 0⟩)) (.actor id) 1

/-- A tree that has these messages left to send to the actor. The number bounds its steps. -/
inductive Sending (target : Expr) (env : Env) (id : ActorId) :
    Evaluation .outcome → Multiset Value → Nat → Prop where
  | done : Sending target env id (.done .ok) 0 0
  | empty : Sending target env id (.start (.exec .empty ⟨env, 0⟩)) 0 1
  | stmt {ms : List Value} (some : ms ≠ []) :
      Sending target env id (.start (.exec (.sends target ms) ⟨env, 0⟩)) ms (8 * ms.length - 2)
  | send {left right : Evaluation .value} {m : Value} {a b : Nat}
      (first : Operand target env id left (.actor id) a)
      (second : Operand target env id right m b) :
      Sending target env id (.both left right (.send none)) {m} (a + b + 1)
  | race {left right : Evaluation .outcome} {ms ms' : Multiset Value} {a b : Nat}
      (first : Sending target env id left ms a) (second : Sending target env id right ms' b) :
      Sending target env id (.race left right) (ms + ms') (a + b + 1)

variable {cx : Context} {target : Expr} {c c' : Core}

lemma Operand.micro {e e' : Evaluation .value} {v : Value} {a : Nat}
    (ho : Operand target env id e v a) (step : Micro cx e c e' ds c')
    (points : target.Points env c.heap id) :
    ds = [] ∧ c' = c ∧ ∃ b < a, Operand target env id e' v b := by
  cases ho with
  | done v => cases step
  | const v =>
    cases step
    exact ⟨rfl, rfl, 0, one_pos, .done v⟩
  | target =>
    cases step
    cases points with
    | const => exact ⟨rfl, rfl, 0, one_pos, .done _⟩
    | @ident name found =>
      refine ⟨rfl, rfl, 0, one_pos, ?_⟩
      have hfound : c.store.heap.lookup name env = _ := found
      simp only [Job.begin, Expr.begin, Env.find, hfound]
      exact .done _

/-- A small step sends a message that was left, or none. -/
theorem Sending.micro {f' : Evaluation .outcome} {sent : List Value}
    (hf : Sending target env id f ms n) (step : Micro cx f c f' ds c')
    (points : target.Points env c.heap id) (out : c.Outbox cx id sent) :
    ds = [] ∧ c'.heap = c.heap ∧ ∃ ms' n' more, Sending target env id f' ms' n' ∧ n' < n ∧
      ms = ofList more + ms' ∧ c'.Outbox cx id (sent ++ more) := by
  -- a step that sends nothing
  have quiet {f' : Evaluation .outcome} {ms : Multiset Value} {n n' : Nat}
      (hf' : Sending target env id f' ms n') (less : n' < n) :
      c.heap = c.heap ∧ ∃ ms' n' more, Sending target env id f' ms' n' ∧ n' < n ∧
        ms = ofList more + ms' ∧ c.Outbox cx id (sent ++ more) :=
    ⟨rfl, ms, n', [], hf', less, (zero_add ms).symm, (append_nil sent).symm ▸ out⟩
  induction hf generalizing f' with
  | done => cases step
  | empty =>
    cases step
    exact ⟨rfl, quiet .done one_pos⟩
  | @stmt ms some =>
    cases step
    rcases ms with _ | ⟨m, _ | ⟨m', l⟩⟩
    · exact absurd rfl some
    · exact ⟨rfl, quiet (.send .target (.const m)) (by decide : 3 < 6)⟩
    · have hrace : Sending target env id (.race (.start (.exec (.sends target [m]) ⟨env, 0⟩))
          (.start (.exec (.sends target (m' :: l)) ⟨env, 0⟩)))
          (([m] : List Value) + (m' :: l : List Value)) _ :=
        .race (.stmt (cons_ne_nil m [])) (.stmt (cons_ne_nil m' l))
      refine ⟨rfl, quiet hrace ?_⟩
      simp only [length_cons, length_nil]
      omega
  | @send left right m a b first second =>
    cases step with
    | join x y join c =>
      cases first
      cases second
      obtain ⟨s', hsettle, hheap, _, hout⟩ := Core.Outbox.send (s := c.store) out m
      refine ⟨rfl, ?_⟩
      simp only [Join.resume, hsettle]
      exact ⟨hheap, 0, 0, [m], .done, by omega, rfl, hout⟩
    | bothLeft right join inner =>
      obtain ⟨rfl, rfl, a', ha', first'⟩ := first.micro inner points
      exact ⟨rfl, quiet (.send first' second) (by omega)⟩
    | bothRight left join inner =>
      obtain ⟨rfl, rfl, b', hb', second'⟩ := second.micro inner points
      exact ⟨rfl, quiet (.send first second') (by omega)⟩
  | @race left right ms ms' a b first second ih1 ih2 =>
    cases step with
    | merge x y c =>
      cases first
      cases second
      exact ⟨rfl, quiet .done (by omega)⟩
    | failLeft right c => cases first
    | failRight left c => cases second
    | raceLeft right inner =>
      obtain ⟨rfl, hheap, ms1, n1, more, first', hn, rfl, hout⟩ := ih1 inner
      exact ⟨rfl, hheap, ms1 + ms', n1 + b + 1, more, .race first' second, by omega,
        by rw [add_assoc], hout⟩
    | raceRight left inner =>
      obtain ⟨rfl, hheap, ms1, n1, more, second', hn, rfl, hout⟩ := ih2 inner
      exact ⟨rfl, hheap, ms + ms1, a + n1 + 1, more, .race first second', by omega,
        by rw [add_left_comm], hout⟩

/-- Names stand for what they did when someone waits for a slot. -/
lemma points_park {e : Expr} {h : Heap} (points : e.Points env h id) (slot : Nat) (who : Waiter) :
    e.Points env (h.park slot who) id := by
  refine points.congr fun name => ?_
  rw [← Heap.lookup_still, Heap.still_park, Heap.lookup_still]

/-- The sends come to an end. -/
lemma Sending.halts {sent : List Value} (hf : Sending target env id f ms n)
    (points : target.Points env c.heap id) (out : c.Outbox cx id sent) : Halts cx f c := by
  refine Halts.of_invariant (fun a f c => ∃ ms sent, Sending target env id f ms a ∧
    target.Points env c.heap id ∧ c.Outbox cx id sent) ?_ ?_ ⟨ms, sent, hf, points, out⟩
  · rintro a f c slot who ⟨ms, sent, hf, points, out⟩
    exact ⟨ms, sent, hf, points_park points slot who, out⟩
  · rintro a f c f' ds c' ⟨ms, sent, hf, points, out⟩ step
    obtain ⟨hds, hheap, ms', n', more, hf', hn, _, out'⟩ := hf.micro step points out
    exact ⟨hds, n', hn, ms', sent ++ more, hf', hheap ▸ points, out'⟩

/-- Along small steps, what was sent and what is left add up. -/
theorem Sending.steps {k : Nat} {f' : Evaluation .outcome} (hs : Steps cx k f c f' ds c') :
    ∀ {ms : Multiset Value} {n : Nat} {sent : List Value},
      Sending target env id f ms n → target.Points env c.heap id → c.Outbox cx id sent →
        ∃ ms' n' more, Sending target env id f' ms' n' ∧ ms = ofList more + ms' ∧
          c'.Outbox cx id (sent ++ more) := by
  induction hs with
  | refl f c =>
    exact fun hf _ out => ⟨_, _, [], hf, (zero_add _).symm, (append_nil _).symm ▸ out⟩
  | park slot who _ ih => exact fun hf points out => ih hf (points_park points slot who) out
  | step first _ ih =>
    intro ms n sent hf points out
    obtain ⟨_, hheap, ms1, n1, more, hf1, _, rfl, out1⟩ := hf.micro first points out
    obtain ⟨ms', n', more', hf', rfl, out'⟩ := ih hf1 (hheap ▸ points) out1
    refine ⟨ms', n', more ++ more', hf', ?_, by rwa [← append_assoc]⟩
    rw [← coe_add, add_assoc]

lemma sending_start (target : Expr) (env : Env) (id : ActorId) (ms : List Value) :
    ∃ n, Sending target env id (.start (.exec (.sends target ms) ⟨env, 0⟩)) ms n := by
  cases ms with
  | nil => exact ⟨_, .empty⟩
  | cons m ms => exact ⟨_, .stmt (cons_ne_nil m ms)⟩

/-- No part of such a tree has to wait. -/
lemma Sending.not_idle {R P : Nat → Prop} (hf : Sending target env id f ms n) : ¬ f.Idle R P := by
  have operand {e : Evaluation .value} {v : Value} {a : Nat} (ho : Operand target env id e v a) :
      ¬ e.Idle R P := by
    intro idle
    cases ho <;> cases idle
  induction hf with
  | done | empty | stmt => nofun
  | send first second =>
    intro idle
    cases idle with
    | both _ h _ | bothLeft _ h _ => exact operand first h
    | bothRight _ _ h => exact operand second h
  | race first second ih1 ih2 =>
    intro idle
    cases idle with
    | race h _ => exact ih1 h
    | raceLeft h _ => exact ih1 h
    | raceRight _ h => exact ih2 h

end Evaluation

namespace Task

open Evaluation

/-- A task that sends messages finishes, and has sent each of them once. -/
theorem exists_sends {target : Expr} {s : Store} (points : target.Points env s.heap id)
    (ms : List Value) (actor : ActorId) (muted : Bool) (now : Millis) (depth : Nat) :
    ∃ (log : List Request) (t' : Task .outcome) (s' : Store) (sent : List Value),
      Poll (spawn s.newTransaction.2 actor muted s.newTransaction.1 now
          (.start (.exec (.sends target ms) ⟨env, depth⟩))).1
        (spawn s.newTransaction.2 actor muted s.newTransaction.1 now
          (.start (.exec (.sends target ms) ⟨env, depth⟩))).2 log t' s' ∧
      t'.main = .done .ok ∧ sent.Perm ms ∧
      s'.core.Outbox t'.context id sent := by
  obtain ⟨n, hf⟩ := sending_start target env id ms
  set t := spawn s.newTransaction.2 actor muted s.newTransaction.1 now
    (.start (.exec (.sends target ms) ⟨env, depth⟩)) with ht
  have hout : t.2.core.Outbox t.1.context id [] := by
    simp [ht, spawn, newAgenda, newTransaction, core, Core.Outbox,
      Transaction.empty]
  have hstanding : Standing False t.1.context _ t.2 []
      [⟨_, .start (Job.exec (.sends target ms) ⟨env, depth⟩).flat⟩] :=
    standing_spawn False.elim actor muted s.newTransaction.1 now _
  obtain ⟨log, t', s', k, F', hpoll, _, hsteps, hend⟩ :=
    exists_poll ⟨hstanding, hf.halts points hout⟩
  obtain ⟨ms', n', sent, hf', hms, hout'⟩ := Sending.steps hsteps hf points hout
  rcases hend with ⟨r, hmain, rfl⟩ | ⟨_, hidle⟩
  · cases hf'
    rw [add_zero] at hms
    exact ⟨log, t', s', sent, hpoll, hmain, (coe_eq_coe.1 hms).symm, hpoll.context ▸ hout'⟩
  · exact absurd hidle hf'.not_idle

end Task

end Troupe
