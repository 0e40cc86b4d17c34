import Troupe.Proofs.Apart
import Troupe.Proofs.FailureRecords
import Troupe.Proofs.Quiescence

/-!
Failure is recorded twice: in the transaction, which keeps the first exception, and in the outcome
that travels up the tree of a statement. The two records agree whenever a run of a task ends.

* `Evaluation.Micro.tells`: what a small step does to both records.
* `Task.Underway`: a task with a transaction of its own, after any number of runs.
* `Task.failed_iff_answers_fail`: after each run the transaction has failed exactly if the task has
  answered so.
-/

namespace Troupe

open Agenda Store Transaction

variable {t : Task .outcome} {g : Goal} {log : List Request} {s : Store}

namespace Evaluation

/-- What waits has not failed. -/
lemma Idle.not_fails {R P : Nat → Prop} {e : Evaluation g} (h : e.Idle R P) : ¬ e.Fails := by
  induction h with
  | parked | awaiting => exact id
  | one frame _ ih => exact ih
  | both join _ _ ih1 ih2 | race _ _ ih1 ih2 => exact not_or.2 ⟨ih1, ih2⟩
  | bothLeft join _ b ih => exact not_or.2 ⟨ih, (modest_part join _).sound⟩
  | bothRight join a _ ih => exact not_or.2 ⟨(modest_part join _).sound, ih⟩
  | raceLeft _ sound ih => exact not_or.2 ⟨ih, sound⟩
  | raceRight sound _ ih => exact not_or.2 ⟨sound, ih⟩

end Evaluation

/-! ### Small steps -/

/-- The transaction of a task has failed. -/
def Core.Failed (cx : Context) (c : Core) : Prop :=
  (c.store.transaction cx.transaction).isFailed = true

namespace Evaluation

variable {cx : Context} {f f' : Evaluation g} {c c' : Core} {ds : List Work}

/-- What a small step does to the two records of failure. -/
structure Tells (cx : Context) (f : Evaluation g) (c : Core) (f' : Evaluation g) (ds : List Work)
    (c' : Core) : Prop where
  size : c'.transactions.size = c.transactions.size
  latched : c.Failed cx → c'.Failed cx
  kept : f.Fails → f'.Fails
  recorded : f'.Fails → f.Fails ∨ c'.Failed cx
  shown : c'.Failed cx → c.Failed cx ∨ f'.Fails
  dropped : ds ≠ [] → f.Fails

/-- A step that replays requests. -/
lemma Tells.of_candid {e : Evaluation g} {s' : Store}
    (inside : cx.transaction < c.transactions.size)
    (replays : s'.transactions = c.transactions.modify cx.transaction (·.replay log))
    (sound : ¬ f.Fails) (candid : Candid (c.store.transaction cx.transaction) log e) :
    Tells cx f c e.flat [] s'.core := by
  have hfailed : s'.core.Failed cx ↔
      ((c.store.transaction cx.transaction).replay log).isFailed = true := by
    have hget : s'.core.store.transaction cx.transaction =
        (c.store.transaction cx.transaction).replay log :=
      transaction_of_replay replays inside
    rw [Core.Failed, hget]
  have hsize : s'.core.transactions.size = c.transactions.size := by
    rw [show s'.core.transactions = s'.transactions from rfl, replays, Array.size_modify]
  have hreplay := isFailed_replay (c.store.transaction cx.transaction) log
  refine ⟨hsize, ?_, fun h => absurd h sound, ?_, ?_, fun h => absurd rfl h⟩
  · exact fun h => hfailed.2 (hreplay.2 (.inl h))
  · rw [fails_flat]
    exact fun h => .inr (hfailed.2 (candid.recorded h))
  · rw [fails_flat]
    exact fun h => (hreplay.1 (hfailed.1 h)).imp id candid.shown

lemma Tells.inside {h : Goal} {k k' : Evaluation h} (rest : Prop) (t : Tells cx f c f' ds c')
    (before : k.Fails ↔ f.Fails ∨ rest) (after : k'.Fails ↔ f'.Fails ∨ rest) :
    Tells cx k c k' ds c' where
  size := t.size
  latched := t.latched
  kept h := after.2 ((before.1 h).imp t.kept id)
  recorded h := by
    rcases after.1 h with h | h
    · exact (t.recorded h).imp (fun h => before.2 (.inl h)) id
    · exact .inl (before.2 (.inr h))
  shown h := (t.shown h).imp id fun h => after.2 (.inl h)
  dropped h := before.2 (.inl (t.dropped h))

/-- What a small step does to the two records of failure. -/
theorem Micro.tells (h : Micro cx f c f' ds c') :
    cx.transaction < c.transactions.size → Tells cx f c f' ds c' := by
  induction h with
  | start job c =>
    exact fun inside => .of_candid inside (job.begin_transactions cx c.store) id
      ((job.begin_honest cx c.store).candid trivial)
  | @read slot v c bound =>
    exact fun _ => ⟨rfl, id, id, .inl, .inl, fun h => absurd rfl h⟩
  | @resume g h r frame c =>
    intro inside
    by_cases hr : Goal.Failure r
    · -- a failure is passed on as it is
      cases frame with
      | offer vars env =>
        cases (show r = Outcome.fail from hr)
        exact ⟨rfl, id, fun _ => rfl, fun _ => .inl rfl, .inl, fun h => absurd rfl h⟩
      | _ => exact hr.elim
    · exact .of_candid inside (frame.resume_transactions cx c.store r) hr
        ((frame.resume_honest r cx c.store).candid hr)
  | join a b join c =>
    exact fun inside => .of_candid inside (join.resume_transactions cx c.store a b)
      (modest_both _ _ join).sound ((join.resume_honest a b cx c.store).candid trivial)
  | merge a b c =>
    intro inside
    by_cases hfail : a = .fail ∨ b = .fail
    · have hjoin : a.join b cx c.store = (.done .fail, c.store) := by
        rcases hfail with rfl | rfl
        · rfl
        · cases a <;> rfl
      rw [hjoin]
      exact ⟨rfl, id, fun _ => rfl, fun _ => .inl hfail, .inl, fun h => absurd rfl h⟩
    · exact .of_candid inside (a.join_transactions cx c.store b) hfail
        ((a.join_honest b cx c.store).candid (not_or.1 hfail))
  | failLeft right c =>
    exact fun _ => ⟨rfl, id, fun _ => rfl, fun _ => .inl (.inl rfl), .inl, fun _ => .inl rfl⟩
  | failRight left c =>
    exact fun _ => ⟨rfl, id, fun _ => rfl, fun _ => .inl (.inr rfl), .inl, fun _ => .inr rfl⟩
  | one frame _ ih =>
    exact fun inside => .inside False (ih inside) (or_false _).symm.to_iff (or_false _).symm.to_iff
  | bothLeft right join _ ih | raceLeft right _ ih =>
    exact fun inside => .inside right.Fails (ih inside) Iff.rfl Iff.rfl
  | bothRight left join _ ih | raceRight left _ ih =>
    exact fun inside => .inside left.Fails (ih inside) or_comm or_comm

/-- The two records of failure agree on the first tree, and nothing was dropped unless the
transaction has failed. -/
structure Agrees (cx : Context) {g : Goal} (f : Evaluation g) (rest : List Work)
    (c : Core) : Prop where
  inside : cx.transaction < c.transactions.size
  same : c.Failed cx ↔ f.Fails
  alone : rest ≠ [] → c.Failed cx

/-- Small steps keep the two records in agreement. What was dropped may throw, too, but then the
transaction has failed before. -/
lemma Forest.agrees {n : Nat} {trees trees' : List Work} (h : Forest cx n trees c trees' c') :
    ∀ {k : Goal} {f : Evaluation k} {rest : List Work}, trees = ⟨k, f⟩ :: rest →
      Agrees cx f rest c → ∃ f' rest', trees' = ⟨k, f'⟩ :: rest' ∧ Agrees cx f' rest' c' := by
  induction h with
  | refl trees c => exact fun htrees ha => ⟨_, _, htrees, ha⟩
  | park slot who _ ih => exact fun htrees ha => ih htrees ⟨ha.inside, ha.same, ha.alone⟩
  | @step n before after trees' g f f' ds c c1 c' first _ ih =>
    intro k f0 rest htrees ha
    have ht := first.tells ha.inside
    have hinside : cx.transaction < c1.transactions.size := by
      rw [ht.size]
      exact ha.inside
    cases before with
    | nil =>
      simp only [List.nil_append, List.cons.injEq, Work.mk.injEq] at htrees
      obtain ⟨⟨rfl, hf⟩, rfl⟩ := htrees
      cases hf
      refine ih rfl ⟨hinside, ⟨fun h => ?_, fun h => ?_⟩, fun hrest => ?_⟩
      · exact (ht.shown h).elim (fun h => ht.kept (ha.same.1 h)) id
      · exact (ht.recorded h).elim (fun h => ht.latched (ha.same.2 h)) id
      · refine ht.latched ?_
        by_cases hds : ds = []
        · subst hds
          rw [List.append_nil] at hrest
          exact ha.alone hrest
        · exact ha.same.2 (ht.dropped hds)
    | cons w before =>
      simp only [List.cons_append, List.cons.injEq] at htrees
      obtain ⟨rfl, rfl⟩ := htrees
      have hfailed : c.Failed cx := ha.alone (by simp)
      exact ih rfl ⟨hinside, ⟨fun _ => ha.same.1 hfailed, fun _ => ht.latched hfailed⟩,
        fun _ => ht.latched hfailed⟩

end Evaluation

/-! ### Tasks with a transaction of their own -/

namespace Task

open Evaluation

/-- A statement that is run as a task with a transaction of its own, after any number of runs. The
log holds what these have asked of the transaction. -/
inductive Underway : Task .outcome → Store → List Request → Prop where
  | opened (s : Store) (actor : ActorId) (muted : Bool) (now : Millis) (job : Job .outcome) :
      Underway (spawn s.newTransaction.2 actor muted s.newTransaction.1 now (.start job)).1
        (spawn s.newTransaction.2 actor muted s.newTransaction.1 now (.start job)).2 []
  | elsewhere {t : Task .outcome} {s s' : Store} {log : List Request} (before : Underway t s log)
      (other : s.Elsewhere t.context s') : Underway t s' log
  | polled {t t' : Task .outcome} {s s' : Store} {log log' : List Request}
      (before : Underway t s log) (run : Poll t s log' t' s') : Underway t' s' (log ++ log')

lemma standing_spawn {strict : Prop} (sound : strict → s.heap.Sound) (actor : ActorId)
    (muted : Bool) (transaction : Nat) (now : Millis) (job : Job g) :
    Standing strict (spawn s actor muted transaction now (.start job)).1.context (.start job)
      (spawn s actor muted transaction now (.start job)).2 [] [⟨g, .start job.flat⟩] := by
  have hagenda : (spawn s actor muted transaction now (.start job)).2.agenda s.agendas.size =
      { actor, muted } := by
    simp [spawn, newAgenda, agenda]
  have hslip : ∀ t, ((spawn s actor muted transaction now (.start job)).2.agenda
      s.agendas.size).slip t = none := by
    intro t
    rw [hagenda]
    rfl
  have hcell : ∀ t, ((spawn s actor muted transaction now (.start job)).2.agenda
      s.agendas.size).cell t = none := by
    intro t
    rw [cell, hslip t]
  refine ⟨⟨?_, ?_, ?_, sound, ?_, ?_, ?_, ?_⟩, ⟨∅ ∪ ∅, ?_, ?_⟩, trivial⟩
  · simp [spawn, newAgenda]
  · exact congrArg closed hagenda
  · exact (congrArg enlisted hagenda).le.trans (Nat.zero_le _)
  · intro t w r h
    rw [show (spawn s actor muted transaction now (.start job)).1.context.task = s.agendas.size
      from rfl, hslip] at h
    cases h
  · intro t p hp
    rw [show (spawn s actor muted transaction now (.start job)).1.context.task = s.agendas.size
      from rfl, hagenda] at hp
    simp at hp
  · intro t w h
    exact absurd ((hcell t).symm.trans h) (by simp)
  · intro t w h
    exact absurd ((hcell t).symm.trans h) (by simp)
  · exact .cons (.start job) .nil (Set.disjoint_empty _)
  · exact fun t h => absurd (hcell t) h

/-- What happens elsewhere leaves a task standing, if slots do not count. -/
lemma Standing.elsewhere {cx : Context} {g : Goal} {main : Evaluation g} {s s' : Store}
    {dropped trees : List Work} (h : Standing False cx main s dropped trees)
    (other : s.Elsewhere cx s') : Standing False cx main s' dropped trees := by
  obtain ⟨ws, hws⟩ := other.told h.orderly.size
  refine ⟨h.orderly.told (Nat.lt_of_lt_of_le h.orderly.size other.size) False.elim hws, ?_, ?_⟩
  · refine h.laid.congr fun t => cell_congr ?_
    rw [hws, slip_toldAll]
  · exact Fit.mono (fun _ _ hfalse => hfalse.elim) h.sits

/-- A new task with a transaction of its own has not failed. -/
lemma agrees_spawn (s : Store) (actor : ActorId) (muted : Bool) (now : Millis) (job : Job g) :
    Agrees (spawn s.newTransaction.2 actor muted s.newTransaction.1 now (.start job)).1.context
      (Evaluation.start job.flat) []
      (spawn s.newTransaction.2 actor muted s.newTransaction.1 now (.start job)).2.core := by
  refine ⟨?_, ?_, fun h => absurd rfl h⟩
  · exact (Array.size_push ..).symm ▸ Nat.lt_succ_self _
  · have hnew : (spawn s.newTransaction.2 actor muted s.newTransaction.1 now
        (.start job)).2.core.store.transaction s.newTransaction.1 = .empty := by
      simp [spawn, newTransaction, newAgenda, core, Core.store, transaction]
    refine ⟨fun hfailed => ?_, False.elim⟩
    rw [Core.Failed, show (spawn s.newTransaction.2 actor muted s.newTransaction.1 now
      (.start job)).1.context.transaction = s.newTransaction.1 from rfl, hnew] at hfailed
    cases hfailed

/-- Between its runs a task stands, and the two records of failure agree. -/
lemma Underway.agrees (h : t.Underway s log) :
    ∃ dropped f rest, Standing False t.context t.main s dropped (⟨.outcome, f⟩ :: rest) ∧
      Agrees t.context f rest s.core := by
  induction h with
  | opened s actor muted now job =>
    exact ⟨[], .start job.flat, [], standing_spawn False.elim actor muted _ now job,
      agrees_spawn s actor muted now job⟩
  | @elsewhere t s s' log _ other ih =>
    obtain ⟨dropped, f, rest, hst, ha⟩ := ih
    have hfailed : s'.core.Failed t.context ↔ s.core.Failed t.context := by
      have hsame : s'.core.store.transaction t.context.transaction =
          s.core.store.transaction t.context.transaction :=
        congrArg (·.getD default) other.transaction
      rw [Core.Failed, Core.Failed, hsame]
    exact ⟨dropped, f, rest, hst.elsewhere other, other.inside ha.inside, hfailed.trans ha.same,
      fun h => hfailed.2 (ha.alone h)⟩
  | @polled t t' s s' log log' _ run ih =>
    obtain ⟨dropped, f, rest, hst, ha⟩ := ih
    obtain ⟨n, ds, trees', hst', hforest, _⟩ := run.standing hst
    obtain ⟨f', rest', rfl, ha'⟩ := hforest.agrees rfl ha
    rw [run.context]
    exact ⟨_, f', rest', hst', ha'⟩

/-- The transaction is what the log makes of an empty one. -/
lemma Underway.transaction (h : t.Underway s log) :
    s.transaction t.context.transaction = Transaction.empty.replay log := by
  induction h with
  | opened s actor muted now job =>
    simp [spawn, Store.newTransaction, Store.newAgenda, Store.transaction, Transaction.replay]
  | elsewhere _ other ih => exact (congrArg (·.getD default) other.transaction).trans ih
  | polled before run ih =>
    obtain ⟨_, _, _, _, ha⟩ := before.agrees
    rw [run.context, Store.transaction_of_replay run.transactions ha.inside, ih,
      Transaction.replay_append]

/-- Once a task has answered, its transaction has failed exactly if the answer is a failure. -/
lemma Underway.failed_iff_of_answer {o : Outcome} (h : t.Underway s log)
    (answer : t.answer? = some o) :
    (s.transaction t.context.transaction).isFailed = true ↔ o = .fail := by
  obtain ⟨dropped, f, rest, hst, ha⟩ := h.agrees
  refine Iff.trans ha.same ?_
  obtain ⟨ts, hunfold, _⟩ := hst.laid
  rcases t.main.waits_or_done with hwaits | ⟨o', hdone⟩
  · rw [answer?, show t.main.answer? = none from hwaits] at answer
    cases answer
  · rw [answer?, hdone] at answer
    rw [hdone] at hunfold
    cases answer
    cases hunfold with
    | cons head _ _ =>
      cases head
      exact Iff.rfl

/-- After each run of a task with a transaction of its own, the transaction has failed exactly if
the task has answered that it failed. -/
theorem failed_iff_answers_fail {t t' : Task .outcome} {s s' : Store} {log : List Request}
    {fuel : Nat} (h : t.Underway s log) (run : t.advance fuel s = some (t', s')) :
    (s'.transaction t'.context.transaction).isFailed = true ↔ t'.answer? = some .fail := by
  obtain ⟨log', hpoll⟩ := poll_of_advance run
  rcases t'.main.waits_or_done with hwaits | ⟨o, hdone⟩
  · -- the task is stuck as a whole, and no part of it has failed
    obtain ⟨dropped, f, rest, hst, ha⟩ := h.agrees
    obtain ⟨n, ds, trees', hst', hforest, hstuck⟩ := hpoll.standing hst
    obtain ⟨f', rest', rfl, ha'⟩ := hforest.agrees rfl ha
    obtain ⟨f'', rest'', heq, hidle⟩ := hstuck hwaits
    cases heq
    rw [answer?, show t'.main.answer? = none from hwaits, hpoll.context]
    exact iff_of_false (fun hf => hidle.not_fails (ha'.same.1 hf)) (by simp)
  · have hanswer : t'.answer? = some o := by rw [answer?, hdone]; rfl
    rw [(h.polled hpoll).failed_iff_of_answer hanswer, hanswer, Option.some.injEq]

/-- A block, one level below the limit of nesting, that waits for a variable forever and throws
beside that; the detached throw is taken up in the second round. -/
def stuckBesideThrow : Task .outcome × Store :=
  spawn ({} : Store).newTransaction.2 ⟨1⟩ false ({} : Store).newTransaction.1 0
    (.start (.exec (.expr (.block ["x"]
      (.seq (.send (.ident "x") .self) (.throw (.const (.symbol "stop")))))) ⟨.empty, 31⟩))

theorem stuckBesideThrow_fails :
    ∃ t' s', stuckBesideThrow.1.advance 24 stuckBesideThrow.2 = some (t', s') ∧
      t'.answer? = some .fail ∧ (s'.transaction t'.context.transaction).isFailed = true := by
  have hanswer : (stuckBesideThrow.1.advance 24 stuckBesideThrow.2).bind (·.1.answer?) =
      some Outcome.fail := by decide +kernel
  obtain ⟨⟨t', s'⟩, hrun, hfail⟩ := Option.bind_eq_some_iff.1 hanswer
  exact ⟨t', s', hrun, hfail, (failed_iff_answers_fail (.opened ..) hrun).2 hfail⟩

end Task

end Troupe
