import Troupe.Proofs.WaitingDeliveries

/-!
Frames are isolated from deliveries.

A delivery binds names only in frames that were made after it began, as long as blocks declare what
they bind. What it leaves in older frames are the definitions of its commit, in a dictionary. The
evaluation of an expression leaves nothing in older frames, whatever the code.

* `Session.frames_isolated`
-/

namespace Troupe

namespace Actor

variable {a a' : Actor} {self : ActorId} {d : Delivery} {outcome : Outcome}
  {s s' : Stage} {w w' : World}

/-- A delivery that failed leaves the heap as it is. -/
lemma heap_settle_failed (failed : outcome = .fail)
    (run : (a.settle self d outcome w).run s = ((a', w'), s')) : w'.store.heap = w.store.heap := by
  obtain ⟨wakeups, -, hrun⟩ := run_settle_failed a self (.inl failed : outcome = .fail ∨ _) s
  rw [hrun] at run
  cases run
  exact (Store.close_frame ..).1

/-- A commit makes the definitions that were staged. -/
lemma heap_settle_committed {e : Effects} (sound : outcome ≠ .fail)
    (gathered : w.store.transaction d.transaction = .gathering e)
    (run : (a.settle self d outcome w).run s = ((a', w'), s')) :
    w'.store.heap =
      e.defines.toList.foldl (fun h x => (h.define x.1 x.2 a.env).2) w.store.heap := by
  obtain ⟨wakeups, -, hrun⟩ := run_settle_committed a self gathered sound s
  rw [hrun] at run
  cases run
  exact (Store.close_frame ..).1.trans (heap_setDefinitions ..)

end Actor

namespace Session

/-- At a point of the run of an actor, its deliveries leave older frames alone. -/
structure Isolated (s : Stage) (w : World) (m : Moment) (a : Actor)
    (current : Option Delivery) : Prop where
  /-- A delivery begins without a change of the heap. -/
  start : ∀ message, (a.start m message w).2.store.heap = w.store.heap ∧
    (a.start m message w).1.Since True w.store.heap (a.start m message w).2.store
  /-- The delivery that is run began at some time. -/
  since : ∀ d, current = some d → ∃ old, d.Since True old w.store
  /-- A run of the delivery spares all frames that there were when it began. -/
  run : ∀ d old d' w' s', current = some d → d.Since True old w.store →
    (d.advance w).run s = ((d', w'), s') → w'.exhausted = false →
      old.Spares w.store.heap w'.store.heap ∧ d'.Since True old w'.store
  /-- Settling the delivery changes dictionaries only, by the definitions of a commit. -/
  settle : ∀ d outcome a' w' s', current = some d →
    (a.settle m.self d outcome w).run s = ((a', w'), s') →
      (∃ dicts, w'.store.heap = { w.store.heap with dicts }) ∧
      (outcome = .fail → w'.store.heap = w.store.heap) ∧
      ∀ e, outcome ≠ .fail → w.store.transaction d.transaction = .gathering e →
        w'.store.heap =
          e.defines.toList.foldl (fun h x => (h.define x.1 x.2 a.env).2) w.store.heap

variable {x : Session} {s : Stage} {w : World} {m : Moment} {a : Actor}
  {current : Option Delivery} {backlog : List Value}

lemma Runs.isolated (runs : x.Runs s w m a current backlog) (reached : x.Reached True) :
    Isolated s w m a current := by
  have hvigil := runs.vigil reached
  refine ⟨fun message => ⟨rfl, a.since_start hvigil.fine m message⟩,
    fun d hd => (hvigil.mine d hd).1, ?_, ?_⟩
  · rintro d old d' w' s' - hsince run alive
    obtain ⟨task, store, hrun, rfl, rfl, rfl⟩ := Delivery.exists_of_run_advance run alive
    have hbefore : w.store.Outside d.task.context.task { w.store with ids := ⟨s.ids.issued⟩ } :=
      .of_eq rfl rfl rfl
    obtain ⟨hsince', _, hspares⟩ := (hsince.outside hbefore hvigil.fine).run hrun
    exact ⟨hspares trivial, hsince'.passed⟩
  · rintro d outcome a' w' s' - run
    obtain ⟨store, dicts, _, hheap, hw', _, _⟩ := Actor.exists_of_run_settle run
    refine ⟨⟨dicts, by rw [hw', ← hheap]⟩, fun hfail => Actor.heap_settle_failed hfail run,
      fun e hsound hgathered => Actor.heap_settle_committed hsound hgathered run⟩

/-- Frames are isolated. If blocks declare what they bind, then, at every point of the run of an
actor in a session, its deliveries leave the frames alone that are older than they. The evaluation
of an expression, wherever and for whomever it runs, leaves older frames alone in any case. -/
theorem frames_isolated (reached : x.Reached True) (runs : x.Runs s w m a current backlog) :
    Isolated s w m a current ∧
      ∀ (P : Heap → Prop) (e : Expr) (here : Place) (old : Heap) (fuel : Nat)
        (t t' : Task .value) (s s' : Store), Task.Driven P (.eval e here) old t s →
          t.advance fuel s = some (t', s') → old.Spares s.heap s'.heap := by
  refine ⟨runs.isolated reached, ?_⟩
  intro P e here old fuel t t' s s' driven run
  have hspares := driven.spares (fun h : False => h.elim)
    (List.forall_mem_singleton.2 False.elim) run
  exact hspares.1

/-- A new session whose top-level actor is handed a definition, a function that is applied to a
variable, and a throw. -/
def matching : Except Fault Session :=
  (ofSettings {} 60).execute
    (.seq (.define (.ident "y") (.apply (.lambda (.ident "z") (.ident "z")) (.ident "x")))
      (.seq (.define (.ident "x") (.const (.number 1))) (.throw (.ident "y"))))

theorem matching_isolated : ∃ x s w m a d backlog, matching = .ok x ∧ x.Reached True ∧
    x.Runs s w m a (some d) backlog ∧ d.Since True x.config.world.store.heap w.store ∧
    ∃ d' w' s', (d.advance w).run s = ((d', w'), s') ∧ d'.task.answer? = some .fail ∧
      x.config.world.store.heap.Spares w.store.heap w'.store.heap := by
  obtain ⟨x, hx, s, w, m, a, d, backlog, hruns, hsince, hanswer, halive⟩ : ∃ x, matching = .ok x ∧
      ∃ s w m a d backlog, x.Runs s w m a (some d) backlog ∧
        (x.Reached True → d.Since True x.config.world.store.heap w.store) ∧
        ((d.advance w).run s).1.1.task.answer? = some .fail ∧
        ((d.advance w).run s).1.2.exhausted = false := by
    refine ⟨matching.toOption.getD (ofSettings {} 60), rfl, ?_⟩
    have hreceived := Runs.received (x := matching.toOption.getD (ofSettings {} 60))
      (m := ⟨⟨6⟩, 0⟩) rfl rfl rfl rfl .begun
    exact ⟨_, _, _, _, _, _, hreceived.onward fun h => h.started, fun hreached =>
      Actor.since_start hreached.watched.fine .., by decide +kernel, by decide +kernel⟩
  have htidy :
    (.seq (.define (.ident "y") (.apply (.lambda (.ident "z") (.ident "z")) (.ident "x")))
      (.seq (.define (.ident "x") (.const (.number 1))) (.throw (.ident "y"))) : Stmt).Tidy := by
    simp [Stmt.Tidy, Pattern.Tidy, Expr.Tidy]
  have hreached : x.Reached True := .execute (.ofSettings {} 60) (fun _ => htidy) hx
  obtain ⟨hspares, _⟩ := (frames_isolated hreached hruns).1.run d _ _ _ _ rfl (hsince hreached) rfl
    halive
  exact ⟨x, s, w, m, a, d, backlog, hx, hreached, hruns, hsince hreached, _, _, _, rfl, hanswer,
    hspares⟩

end Session

end Troupe
