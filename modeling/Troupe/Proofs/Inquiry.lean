import Troupe.Proofs.SilentExpressions
import Troupe.Proofs.WaitingDeliveries

/-!
Expressions that are evaluated from outside.

The host may ask a session for the value of an expression while deliveries wait and messages are
under way. The evaluation runs at once, in a transaction of its own, and whatever it does on the
way, nothing of the session changes but the registry: it gains the actors that the evaluation has
created, if there is a value, and nothing otherwise.

* `Session.evaluate_undisturbed`
-/

namespace Troupe

open Request Scheduler Store Transaction

namespace Transaction

/-- A transaction that is asked for new actors only gathers them. -/
lemma replay_inits (staged : List StagedActor) :
    empty.replay (staged.map .init) = .gathering { created := staged.toArray } := by
  have hsends : (staged.map Request.init).filterMap Request.send? = [] := by
    simp [List.filterMap_map, Function.comp_def, Request.send?]
  have hdefines : (staged.map Request.init).filterMap Request.definition? = [] := by
    simp [List.filterMap_map, Function.comp_def, Request.definition?]
  have hcreated : (staged.map Request.init).filterMap Request.created? = staged := by
    simp [List.filterMap_map, Function.comp_def, Request.created?]
  have hfirst : firstException? (staged.map .init) = none := by
    simp [firstException?, exception?]
  rw [empty, replay_gathering, hfirst]
  simp [Effects.extend, hsends, hdefines, hcreated]

/-- Only a log that asks for new actors alone has such a transaction. -/
lemma eq_inits {log : List Request} {staged : List StagedActor}
    (h : empty.replay log = empty.replay (staged.map .init)) : log = staged.map .init := by
  have hall : ∀ log : List Request, firstException? log = none → log.filterMap send? = [] →
      log.filterMap definition? = [] → log = (log.filterMap created?).map .init := by
    intro log
    induction log with
    | nil => exact fun _ _ _ => rfl
    | cons r log ih =>
      intro hfirst hsends hdefines
      cases r with
      | init a => exact congrArg (.init a :: ·) (ih hfirst hsends hdefines)
      | define name v => cases hdefines
      | throw exception => cases hfirst
      | send message target delay => cases target <;> first | cases hsends | cases hfirst
  rw [replay_inits, empty, replay_gathering] at h
  cases hfirst : firstException? log with
  | some x => simp [hfirst] at h
  | none =>
    simp only [hfirst, gathering.injEq, Effects.extend, Effects.mk.injEq] at h
    obtain ⟨hsends, hcreated, hdefines⟩ := h
    rw [hall log hfirst (by simpa using hsends) (by simpa using hdefines)]
    exact congrArg _ (by simpa using hcreated)

end Transaction

/-- A part of a blocked task stands on the waiting list of a slot. -/
lemma Task.Blocked.moored {g : Goal} {t : Task g} {s : Store} (h : t.Blocked s) :
    ∃ who slot, who.Of t.context.task ∧ s.heap.Moored who slot := by
  obtain ⟨slot, hmain | ⟨ticket, p, w, hp, hw, hpiece⟩⟩ := h.parked
  · exact ⟨.task t.context.task, slot, rfl, h.main.leaves.2 slot hmain⟩
  · exact ⟨.piece t.context.task ticket, slot, rfl,
      (h.pieces ticket p w hp hw).leaves.2 slot hpiece⟩

namespace Session

/-- What an evaluation from outside leaves alone: what is under way, the time, the run state, who is
to be resumed or told something, what the tasks of others have left to do, all dictionaries, and
what was printed and reported. -/
structure Undisturbed (x y : Session) : Prop where
  queue : y.config.queue = x.config.queue
  timers : y.config.timers = x.config.timers
  timerSeq : y.config.timerSeq = x.config.timerSeq
  clock : y.config.clock = x.config.clock
  state : y.config.state = x.config.state
  wakeups : y.config.wakeups = x.config.wakeups
  asked : y.config.world.store.wakeups = x.config.world.store.wakeups
  alerts : y.config.world.store.alerts = x.config.world.store.alerts
  agendas : ∀ task < x.config.world.store.agendas.size,
    y.config.world.store.agenda task = x.config.world.store.agenda task
  global : y.global = x.global
  dicts : y.config.world.store.heap.dicts = x.config.world.store.heap.dicts
  output : y.config.world.output = x.config.world.output
  traces : y.config.world.traces = x.config.world.traces

variable {x : Session} {e : Expr} {task : Task .value} {after store : Store} {effects : Effects}
  {log : List Request}

/-- An evaluation that ends does not use the session up. -/
lemma alive_of_ended (alive : x.config.world.exhausted = false)
    (ended : (x.evaluate e).1 ≠ .error .exhausted) :
    (x.evaluate e).2.config.world.exhausted = false := by
  obtain ⟨⟨s, store, output, traces, fuel, exhausted⟩, global, top, logger⟩ := x
  unfold evaluate at ended ⊢
  dsimp only at ended ⊢
  split at ended
  · exact absurd rfl ended
  · split <;> exact alive

/-- The task of an evaluation is muted, and has no pieces. -/
lemma muffled_evaluation (x : Session) (e : Expr) :
    (x.evaluation e).2.Muffled (x.evaluation e).1.context.task x.config.world.store.heap := by
  refine ⟨by simp [evaluation, Task.spawn, newAgenda, newTransaction], ?_, ?_, ?_⟩
  · simp [evaluation, Task.spawn, newAgenda, newTransaction, agenda]
  · rintro who ⟨ticket, p, hp, _⟩
    simp [evaluation, Task.spawn, newAgenda, newTransaction, agenda] at hp
  · exact fun who slot hm hslot => absurd hm.lt (Nat.not_lt_of_le hslot)

/-- An evaluation is opened on the heap of the session. -/
lemma driven_evaluation (sound : x.config.world.store.heap.Sound) (e : Expr) :
    Task.Driven (fun _ => True) (.eval e ⟨x.global, 1⟩) x.config.world.store.heap (x.evaluation e).1
      (x.evaluation e).2 :=
  .opened (s := newTransaction { x.config.world.store with ids := x.config.ids } |>.2) rfl sound
    trivial ..

/-- An evaluation asks its transaction for new actors only. -/
lemma begets_evaluation (poll : Task.Poll (x.evaluation e).1 (x.evaluation e).2 log task after) :
    ∃ staged : List StagedActor, log = staged.map .init ∧
      after.transaction task.context.transaction = .gathering { created := staged.toArray } ∧
      Brood x.config.ids.issued staged after.ids.issued := by
  obtain ⟨_, _, _, _, hforest, _⟩ := poll.standing (Task.standing_spawn False.elim ..)
  obtain ⟨staged, hstaged, hbrood⟩ := hforest.begets (by simp)
  have hempty : ∀ log, after.transactions = (x.evaluation e).2.transactions.modify
      (x.evaluation e).1.context.transaction (·.replay log) →
        after.transaction task.context.transaction = empty.replay log := by
    intro log hreplay
    rw [poll.context, transaction, hreplay]
    simp [evaluation, Task.spawn, newAgenda, newTransaction, Array.getElem_modify]
  have hlog := (hempty _ hstaged).symm.trans (hempty log poll.transactions)
  exact ⟨staged, eq_inits hlog.symm, (hempty _ hstaged).trans (replay_inits _),
    hbrood⟩

namespace Evaluates

/-- Registering the new actors leaves the rest of the scheduler alone. -/
lemma undisturbed (h : x.Evaluates e task after effects store)
    (poll : Task.Poll (x.evaluation e).1 (x.evaluation e).2 log task after)
    (sound : x.config.world.store.heap.Sound) (unsent : effects.sends = #[]) :
    x.Undisturbed (x.evaluate e).2 := by
  obtain ⟨hspares, _⟩ := (driven_evaluation sound e).spares (fun h : False => h.elim)
    (List.forall_mem_singleton.2 False.elim) h.run
  have hmoves := poll.course.steps.trans (course_close after).steps
  have hhush := Moves.hush hmoves (x.muffled_evaluation e) fun i hi hnone => by
    rw [(close_frame _ _).1, hspares.slots i hi, hnone]
  rw [← poll.context] at hhush
  have hwithin := poll.within
  have hdicts : store.heap.dicts = x.config.world.store.heap.dicts := by
    rw [h.heap]
    exact hwithin.dicts
  have hagenda : ∀ t < x.config.world.store.agendas.size,
      store.agenda t = x.config.world.store.agenda t := by
    intro t ht
    have hne : t ≠ task.context.task := by
      rw [poll.context]
      exact Nat.ne_of_lt ht
    calc store.agenda t = (after.close task.context.task).agenda t := by rw [h.ended]; rfl
      _ = (x.evaluation e).2.agenda t := hhush.others t hne
      _ = x.config.world.store.agenda t := by
        simp [evaluation, Task.spawn, newAgenda, newTransaction, agenda, Array.getElem?_push, ht.ne]
  have hwakeups : store.wakeups = x.config.world.store.wakeups := by
    rw [h.ended]
    exact hhush.wakeups
  have halerts : store.alerts = x.config.world.store.alerts := by
    rw [h.ended]
    exact hhush.alerts
  have hstate : ∀ (l : List StagedActor) (s : Stage),
      (l.foldl (seat (some x.logger)) s).state = s.state := by
    intro l
    induction l with
    | nil => exact fun _ => rfl
    | cons a l ih =>
      intro s
      rw [List.foldl_cons, ih]
      unfold seat
      split <;> rfl
  obtain ⟨hqueue, htimers, hseq, hclock, -, hqueued⟩ := seatAll_frame (some x.logger)
    effects.created.toList { x.config.toScheduler with ids := after.ids }
  rw [h.result, unsent]
  exact ⟨hqueue, htimers, hseq, hclock, hstate _ _, hqueued, hwakeups, halerts,
    hagenda, rfl, hdicts,
    rfl, rfl⟩

end Evaluates

/-- An evaluation from outside that ends leaves the session undisturbed. If it has a value, the
registry gains the actors that were asked for on the way, each under its own address, and these are
all addresses that were handed out. If it has none, then nothing else in the scheduler changes
either, and the evaluation waits for a slot that is not bound. -/
theorem evaluate_undisturbed {tidy : Prop} (reached : x.Reached tidy) (e : Expr)
    (ended : (x.evaluate e).1 ≠ .error .exhausted) :
    x.Undisturbed (x.evaluate e).2 ∧
      ∃ log task after, Task.Poll (x.evaluation e).1 (x.evaluation e).2 log task after ∧
        ((∃ v staged, (x.evaluate e).1 = .ok v ∧ task.answer? = some v ∧ log = staged.map .init ∧
            Store.Brood x.config.ids.issued staged (x.evaluate e).2.config.ids.issued ∧
            (x.evaluate e).2.config.registry =
              x.config.registry ++ staged.map (StagedActor.entry (some x.logger))) ∨
          ((x.evaluate e).1 = .error .suspended ∧
            (x.evaluate e).2.config.registry = x.config.registry ∧
            (x.evaluate e).2.config.toScheduler =
              { x.config.toScheduler with ids := (x.evaluate e).2.config.ids } ∧
            x.config.ids.issued ≤ (x.evaluate e).2.config.ids.issued ∧ task.Blocked after ∧
            ∃ who slot, who.Of task.context.task ∧
              (x.evaluate e).2.config.world.store.heap.Moored who slot)) := by
  obtain ⟨own, hregular⟩ := reached.reachable.regular
  obtain ⟨task, after, effects, store, h⟩ := x.evaluates e (alive_of_ended hregular.alive ended)
  obtain ⟨log, hpoll⟩ := Task.poll_of_advance h.run
  obtain ⟨staged, hlog, hstaged, hbrood⟩ := begets_evaluation hpoll
  have hsound := reached.watched.fine.sound
  have hids : (x.evaluate e).2.config.ids.issued = after.ids.issued := congrArg _ h.ids_eq
  rcases h.answer with ⟨hnone, rfl, hsuspended⟩ | ⟨v, hsome, heffects, hvalue⟩
  · have hdriven := driven_evaluation hsound e
    have hblocked : task.Blocked after := by
      obtain ⟨_, _, hst, _⟩ := hdriven.standing
      obtain ⟨_, _, hst', halone⟩ := (hdriven.polled h.run).standing
      exact hst'.blocked halone (hpoll.context ▸ hpoll.atRest hst hnone)
    have hheap : (x.evaluate e).2.config.world.store.heap = after.heap := by
      rw [h.result]
      exact h.heap
    refine ⟨h.undisturbed hpoll hsound rfl, log, task, after, hpoll,
      .inr ⟨hsuspended, ?_, ?_, ?_, hblocked, ?_⟩⟩
    · rw [h.result]
      rfl
    · rw [h.result]
      rfl
    · rw [hids]
      exact hbrood.le
    · rw [hheap]
      exact hblocked.moored
  · have hgathered : effects = { created := staged.toArray } := by
      rw [heffects, hstaged]
      rfl
    obtain ⟨hnodup, hnew⟩ := h.staged
    refine ⟨h.undisturbed hpoll hsound (by rw [hgathered]), log, task, after, hpoll,
      .inl ⟨v, staged, hvalue, hsome, hlog, hids ▸ hbrood, ?_⟩⟩
    have hfree : ∀ a ∈ effects.created.toList, ∀ entry, (a.id, entry) ∉ x.config.registry :=
      fun a ha entry hentry =>
        absurd (hregular.registered a.id entry hentry).1 (Nat.not_le_of_lt (hnew a ha).1)
    have hregistry := Scheduler.registry_seatAll (some x.logger)
      (s := { x.config.toScheduler with ids := after.ids }) hnodup hfree
    rw [h.result, (Scheduler.postAll_frame ..).1, hregistry, hgathered]

lemma Reached.edit {tidy : Prop} (h : x.Reached tidy) {heap : Heap}
    (edit : x.config.world.store.heap.Edit tidy heap) :
    (x.host x.config.toScheduler heap).Reached tidy :=
  .host h edit rfl le_rfl fun _ hid => hid

/-- A session whose function `f` waits for a variable that the host has declared and not bound. -/
def unanswered : Session :=
  let x := ofSettings {} 40
  let x := x.host x.config.toScheduler (x.config.world.store.heap.newScope x.global .empty ["x"]).2
  let x := x.host x.config.toScheduler
    (x.config.world.store.heap.newClosure ⟨.any, .ident "x", .block 0 x.global .empty⟩).2
  x.host x.config.toScheduler (x.config.world.store.heap.define "f" (.closure 0) x.global).2

/-- A new actor beside a call of `f`. -/
def hopeless : Expr := .pair (.new (.const .nil)) (.apply (.ident "f") (.const .nil))

/-- The address of the new actor is handed out, and no one is registered under it. -/
theorem hopeless_undisturbed :
    (unanswered.evaluate hopeless).1 = .error .suspended ∧
      unanswered.Undisturbed (unanswered.evaluate hopeless).2 ∧
      (unanswered.evaluate hopeless).2.config.registry = unanswered.config.registry ∧
      (unanswered.evaluate hopeless).2.config.ids.issued = unanswered.config.ids.issued + 1 := by
  have hreached : unanswered.Reached False :=
    (((Reached.ofSettings {} 40).edit (.scope ..)).edit (.closure _ False.elim)).edit (.define ..)
  have hsuspended : (unanswered.evaluate hopeless).1 = .error .suspended := by decide +kernel
  have hended : (unanswered.evaluate hopeless).1 ≠ .error .exhausted := by
    rw [hsuspended]
    exact nofun
  obtain ⟨hundisturbed, _, _, _, _, ⟨_, _, hvalue, _⟩ | ⟨_, hregistry, _⟩⟩ :=
    evaluate_undisturbed hreached hopeless hended
  · exact absurd (hsuspended.symm.trans hvalue) nofun
  · exact ⟨hsuspended, hundisturbed, hregistry, by decide +kernel⟩

end Session

end Troupe
