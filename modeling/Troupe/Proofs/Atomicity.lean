import Troupe.Proofs.Sessions

/-!
Deliveries are atomic.

Up to its end a delivery changes nothing of the registry, the queue, the timers or a dictionary. At
its end it is reverted (`Actor.Reverted`) or committed (`Actor.Committed`), as a whole. This holds
at every point that the run of an actor goes through (`Session.Runs`).

* `Session.delivery_atomic`
-/

namespace Troupe

open List Scheduler Transaction

/-- Only the counter of addresses and the wake-ups have changed. -/
def Scheduler.Untouched {M B : Type} (s s' : Scheduler M B) : Prop :=
  s' = { s with ids := s'.ids, wakeups := s'.wakeups }

namespace Actor

/-- A delivery was reverted with an exception: nothing has changed, except that the report of the
exception is on the queue if the logger is registered. -/
structure Reverted (a : Actor) (self : ActorId) (d : Delivery) (exception : Value)
    (s : Stage) (w : World) (a' : Actor) (s' : Stage)
    (w' : World) : Prop where
  actor : a' = a
  heap : w'.store.heap = w.store.heap
  registry : s'.registry = s.registry
  timers : s'.timers = s.timers
  queue : s'.queue.toList = s.queue.toList ++
    (a.trace self d.message (.pair (.symbol "exception") exception)).filterMap s.envelope?

/-- A delivery was committed. All staged actors are registered, in order, and all definitions are
made. The sends to registered actors, and behind them the report, are on the queue or, with a delay,
on the timers, in order. -/
structure Committed (a : Actor) (self : ActorId) (d : Delivery) (outcome : Outcome)
    (effects : Effects) (s : Stage) (w : World) (a' : Actor)
    (s' : Stage) (w' : World) : Prop where
  actor : a' = a.next outcome
  heap : w'.store.heap =
    effects.defines.toList.foldl (fun h x => (h.define x.1 x.2 a.env).2) w.store.heap
  registry : s'.registry = s.registry ++ effects.created.toList.map (StagedActor.entry a.logger)
  timers : s'.timers =
    Scheduler.schedule s.timerSeq s.timers (effects.sends.toList.filterMap s'.appointment?)
  queue : s'.queue.toList = s.queue.toList ++
    (effects.sends.toList ++ a.trace self d.message effects.report).filterMap s'.envelope?

variable {a a' : Actor} {self : ActorId} {d : Delivery} {outcome : Outcome}
  {s s' : Stage} {w w' : World}

/-- The end of a delivery that has failed. -/
lemma reverted_of_settle {e : Value} (failed : w.store.transaction d.transaction = .failed e)
    (run : (a.settle self d outcome w).run s = ((a', w'), s')) :
    a.Reverted self d e s w a' s' w' := by
  obtain ⟨wakeups, -, hrun⟩ := run_settle_failed a self
    (.inr (by rw [failed]; rfl) : outcome = .fail ∨ _) s
  rw [hrun, failed] at run
  cases run
  set reports := a.trace self d.message (.pair (.symbol "exception") e) with hreports
  refine ⟨rfl, (Store.close_frame ..).1, (postAll_frame reports s).1, ?_,
    queue_postAll reports s⟩
  -- the report has no delay
  have hnone : reports.filterMap s.appointment? = [] := by
    rw [filterMap_eq_nil_iff, hreports, trace]
    intro x hx
    obtain ⟨logger, _, rfl⟩ := mem_map.1 hx
    rfl
  refine (timers_postAll reports s).trans ?_
  rw [hnone]
  rfl

/-- The end of a delivery that has not failed, and whose actors have different addresses that are
free. -/
lemma committed_of_settle {e : Effects}
    (gathered : w.store.transaction d.transaction = .gathering e)
    (sound : outcome ≠ .fail) (nodup : (e.created.toList.map (·.id)).Nodup)
    (free : ∀ b ∈ e.created.toList, ∀ x, (b.id, x) ∉ s.registry)
    (run : (a.settle self d outcome w).run s = ((a', w'), s')) :
    a.Committed self d outcome e s w a' s' w' := by
  obtain ⟨wakeups, -, hrun⟩ := run_settle_committed a self gathered sound s
  rw [hrun] at run
  cases run
  set s1 := e.created.toList.foldl (seat a.logger) s with hs1
  obtain ⟨hqueue, htimers, hseq, hclock, _, _⟩ := seatAll_frame a.logger e.created.toList s
  set sends := e.sends.toList ++ a.trace self d.message e.report with hsends
  obtain ⟨hregistry, hclock', _, _⟩ := postAll_frame sends s1
  set s2 : Stage := { sends.foldl post s1 with wakeups }
  have henvelope : s2.envelope? = s1.envelope? := envelope?_congr hregistry
  have happointment : s2.appointment? = s1.appointment? :=
    appointment?_congr hregistry hclock'
  -- the report has no delay
  have hnone : (a.trace self d.message e.report).filterMap s1.appointment? = [] := by
    rw [filterMap_eq_nil_iff, trace]
    intro x hx
    obtain ⟨logger, _, rfl⟩ := mem_map.1 hx
    rfl
  refine ⟨rfl, (Store.close_frame ..).1.trans (heap_setDefinitions ..), ?_, ?_, ?_⟩
  · exact hregistry.trans (registry_seatAll a.logger nodup free)
  · rw [happointment]
    refine (timers_postAll sends s1).trans ?_
    rw [hseq, htimers, hsends, filterMap_append, hnone, append_nil]
  · rw [henvelope]
    refine (queue_postAll sends s1).trans ?_
    rw [hqueue]

end Actor

namespace Session

variable {x : Session} {s s' : Stage} {w w' : World} {m : Moment} {a a' : Actor}
  {d : Delivery} {backlog : List Value}

/-- A delivery that has finished is reverted with its first exception, or committed. -/
lemma Runs.settles {outcome : Outcome} (reachable : x.Reachable)
    (runs : x.Runs s w m a (some d) backlog) (answer : d.task.answer? = some outcome)
    (run : (a.settle m.self d outcome w).run s = ((a', w'), s')) :
    ∃ log, d.task.Underway w.store log ∧
      match Request.firstException? log with
      | some e => outcome = .fail ∧ a.Reverted m.self d e s w a' s' w'
      | none => outcome ≠ .fail ∧
          a.Committed m.self d outcome (({} : Effects).extend log) s w a' s' w' := by
  obtain ⟨own, hregular⟩ := runs.regular reachable
  have hgood := hregular.good m.self d (.inl ⟨rfl, rfl⟩)
  obtain ⟨log, hlog⟩ := hgood.underway
  have htx : w.store.transaction d.transaction = empty.replay log := by
    rw [← hgood.transaction]
    exact hlog.transaction
  have hfailed := hlog.failed_iff_of_answer answer
  rw [hgood.transaction] at hfailed
  rw [empty, replay_gathering] at htx
  refine ⟨log, hlog, ?_⟩
  cases hfirst : Request.firstException? log with
  | some e =>
    rw [hfirst] at htx
    exact ⟨hfailed.1 (by rw [htx]; rfl), Actor.reverted_of_settle htx run⟩
  | none =>
    rw [hfirst] at htx
    have hsound : outcome ≠ .fail := by
      intro hfail
      have hcontra := hfailed.2 hfail
      rw [htx] at hcontra
      cases hcontra
    have hcharged := htx
    rw [← hgood.transaction] at hcharged
    obtain ⟨hnodup, hown⟩ := hgood.charged.staged hcharged
    refine ⟨hsound, Actor.committed_of_settle htx hsound hnodup (fun b hb e he => ?_) run⟩
    -- a registered address belongs to no one
    have hnone := (hregular.registered b.id e he).2
    rw [(hown b hb).1] at hnone
    cases hnone

/-- Deliveries are atomic, at every point of the run of an actor in a session. A delivery begins
with no change of the heap. When it runs, the scheduler only hands out addresses and wake-ups, and
all dictionaries stay. When it has finished, it is reverted with the first exception that it threw,
or, if there is none, committed with all that it asked for, in the order in which it asked. -/
theorem delivery_atomic {current : Option Delivery} (reachable : x.Reachable)
    (runs : x.Runs s w m a current backlog) :
    (∀ message, (a.start m message w).2.store.heap = w.store.heap) ∧
    (∀ d d' w' s', current = some d → (d.advance w).run s = ((d', w'), s') →
      w'.exhausted = false →
        s.Untouched s' ∧ w'.store.heap.dicts = w.store.heap.dicts ∧ d'.message = d.message) ∧
    ∀ d outcome a' w' s', current = some d → d.task.answer? = some outcome →
      (a.settle m.self d outcome w).run s = ((a', w'), s') →
        ∃ log, d.task.Underway w.store log ∧
          match Request.firstException? log with
          | some e => outcome = .fail ∧ a.Reverted m.self d e s w a' s' w'
          | none => outcome ≠ .fail ∧
              a.Committed m.self d outcome (({} : Effects).extend log) s w a' s' w' := by
  refine ⟨fun message => rfl, ?_, ?_⟩
  · rintro d d' w' s' - run alive
    obtain ⟨task, store, hrun, rfl, rfl, rfl⟩ := Delivery.exists_of_run_advance run alive
    obtain ⟨log, hpoll⟩ := Task.poll_of_advance hrun
    exact ⟨rfl, hpoll.within.dicts, rfl⟩
  · rintro d outcome a' w' s' rfl answer run
    exact runs.settles reachable answer run

/-- A new session whose top-level actor is handed a send and a throw. -/
def aborted : Except Fault Session :=
  (ofSettings {} 40).execute
    (.seq (.send (.const (.number 1)) (.ident "println")) (.throw (.const (.symbol "abort"))))

theorem aborted_reverted : ∃ x s w m a d backlog, aborted = .ok x ∧ x.Reachable ∧
    x.Runs s w m a (some d) backlog ∧ d.task.answer? = some .fail ∧
    ∀ a' w' s', (a.settle m.self d .fail w).run s = ((a', w'), s') →
      ∃ e, a.Reverted m.self d e s w a' s' w' := by
  obtain ⟨x, hx, s, w, m, a, d, backlog, hruns, hanswer⟩ : ∃ x, aborted = .ok x ∧
      ∃ s w m a d backlog, x.Runs s w m a (some d) backlog ∧ d.task.answer? = some .fail := by
    refine ⟨aborted.toOption.getD (ofSettings {} 40), rfl, ?_⟩
    have hreceived := Runs.received (x := aborted.toOption.getD (ofSettings {} 40))
      (m := ⟨⟨6⟩, 0⟩) rfl rfl rfl rfl .begun
    exact ⟨_, _, _, _, _, _, hreceived.onward fun h => h.started.advance (by decide +kernel),
      by decide +kernel⟩
  have hreachable : x.Reachable := .execute (.start (.ofSettings {} 40)) hx
  refine ⟨x, s, w, m, a, d, backlog, hx, hreachable, hruns, hanswer, ?_⟩
  intro a' w' s' run
  obtain ⟨log, _, hsettled⟩ := (delivery_atomic hreachable hruns).2.2 _ _ _ _ _ rfl hanswer run
  cases hfirst : Request.firstException? log with
  | some e =>
    rw [hfirst] at hsettled
    exact ⟨e, hsettled.2⟩
  | none =>
    rw [hfirst] at hsettled
    exact absurd rfl hsettled.1

end Session

end Troupe
