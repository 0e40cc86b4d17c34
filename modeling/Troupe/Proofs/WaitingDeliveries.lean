import Troupe.Proofs.Blocked
import Troupe.Proofs.Sessions
import Troupe.Proofs.Shelter

/-!
Deliveries that wait while others run.

A session is used by its host and dispatches; all the while deliveries wait. Each of them is a task
that was opened when the heap was `old` and has been run since (`Delivery.Since`), and to which
everything else happens outside. If something it waits for has been bound, its actor is on the queue
of wake-ups (`Delivery.Waits`).

* `Heap.Edit`, `Session.Reached`: what a host may do.
* `Actor.Runs.vigil`: at every point of the run of an actor, the deliveries of all others wait.
* `Session.Reached.watched`: in every session, all deliveries wait.
-/

namespace Troupe

open Agenda Array List Scheduler Store Troupe.Task

variable {s' : Store} {current : Option Delivery} {g : Goal} {w : World} {tidy : Prop}
  {d : Delivery} {own : ActorId → Option Nat} {s : Stage} {x : Session}
  {slot : Nat} {id : ActorId} {a : Actor}

/-! ### Whom a task runs for -/

/-- The moves of a task change neither its actor nor whether it is muted. -/
lemma Store.Moves.flags {s : Store} {cx : Context} (h : s.Moves cx s')
    (hs : cx.task < s.agendas.size) :
    cx.task < s'.agendas.size ∧ (s'.agenda cx.task).actor = (s.agenda cx.task).actor ∧
      (s'.agenda cx.task).muted = (s.agenda cx.task).muted := by
  induction h with
  | refl => exact ⟨hs, rfl, rfl⟩
  | @tail s1 s' _ last ih =>
    obtain ⟨hs1, hactor, hmuted⟩ := ih
    rw [← hactor, ← hmuted]
    cases last with
    | touch _ touch =>
      obtain ⟨h1, h2, -⟩ := (Touches.later (.single touch) hs1).flags
      exact ⟨touch.size_agendas ▸ hs1, h1, h2⟩
    | @stir _ f ws akin _ =>
      have hs' : cx.task < (s1.modifyAgenda cx.task f).agendas.size := s1.size_modifyAgenda f ▸ hs1
      rw [agenda_wakeAll _ ws hs', s1.agenda_modifyAgenda f hs1, size_wakeAll]
      obtain ⟨h1, h2, -⟩ := (Later.toldAll cx.task ws (f (s1.agenda cx.task))).flags
      exact ⟨hs', h1.trans (akin _).actor, h2.trans (akin _).muted⟩

/-- After a run, a task runs for the same actor, and does not run any more. -/
theorem Task.Poll.flags {t t' : Task g} {s : Store} {log : List Request} (h : Poll t s log t' s')
    (hs : t.context.task < s.agendas.size) :
    (s'.agenda t.context.task).actor = (s.agenda t.context.task).actor ∧
      (s'.agenda t.context.task).muted = (s.agenda t.context.task).muted ∧
      (s'.agenda t.context.task).running = false := by
  obtain ⟨hs', hactor, hmuted⟩ := Store.Moves.flags h.course.steps hs
  refine ⟨hactor, hmuted, ?_⟩
  obtain ⟨s1, _, _, rfl⟩ := h
  rw [running, size_modifyAgenda] at hs'
  rw [running, agenda_modifyAgenda s1 _ hs']

/-! ### Tasks spare old frames -/

/-- Names of blocks stand for slots that exist and, if `tidy`, all code declares what it binds. -/
structure Heap.Fine (tidy : Prop) (h : Heap) : Prop where
  sound : h.Sound
  code : tidy → h.Tidy

namespace Task

open Evaluation

variable {P : Heap → Prop} {job : Job g} {old : Heap} {t t' : Task g} {s : Store}

/-- Between its runs, all trees of a task are guarded. -/
lemma Driven.sheltered (h : Driven P job old t s) (code : tidy → ∀ h, P h → h.Tidy)
    (guarded : job.Guarded tidy old old) :
    ∃ dropped trees, Standing True t.context t.main s dropped trees ∧
      Sheltered tidy old trees s.heap := by
  refine h.stands (fun promise => ⟨.refl _, fun ht => code ht _ promise, ?_⟩)
    (fun anchors promise hs => hs.mono anchors fun ht => code ht _ promise)
    fun hforest hs => (hforest.spares hs).1
  rwa [Work.items_start]

/-- A run of a task spares the frames that there were when the task was opened. -/
theorem Driven.spares {fuel : Nat} (h : Driven P job old t s) (code : tidy → ∀ h, P h → h.Tidy)
    (guarded : job.Guarded tidy old old) (run : t.advance fuel s = some (t', s')) :
    old.Spares s.heap s'.heap ∧ s'.heap.Fine tidy := by
  obtain ⟨dropped, trees, hst, hsheltered⟩ := h.sheltered code guarded
  obtain ⟨log, hpoll⟩ := poll_of_advance run
  obtain ⟨n, ds, trees', hst', hforest, _⟩ := hpoll.standing hst
  obtain ⟨hsheltered', hspares⟩ := hforest.spares hsheltered
  exact ⟨hspares, hst'.orderly.sound trivial, hsheltered'.code⟩

end Task

/-! ### Deliveries that wait -/

/-- The slots that an evaluation waits for are among those it may wait for. -/
lemma Evaluation.Fit.parks {B : Nat → Prop} {e : Evaluation g} (h : e.Fit B) :
    ∀ slot ∈ e.parks, B slot := by
  induction e with
  | parked slot =>
    rintro _ rfl
    exact h
  | one part frame ih => exact ih h
  | both left right join ih1 ih2 => exact fun slot hs => hs.elim (ih1 h.1 slot) (ih2 h.2 slot)
  | race left right ih1 ih2 => exact fun slot hs => hs.elim (ih1 h.1 slot) (ih2 h.2.1 slot)
  | _ => exact fun _ hs => hs.elim

namespace Delivery

/-- The delivery began when the heap was `old`. -/
def Since (tidy : Prop) (old : Heap) (d : Delivery) (s : Store) : Prop :=
  ∃ behavior self exported here, Task.Driven (Heap.Fine tidy)
    (.deliver behavior d.message self exported here) old d.task s

/-- A part of the delivery waits for the slot: the main evaluation, or one that was detached. -/
def ParkedOn (d : Delivery) (s : Store) (slot : Nat) : Prop :=
  slot ∈ d.task.main.parks ∨ ∃ (ticket : Nat) (p : Piece) (w : Work),
    (s.agenda d.task.context.task).pieces[ticket]? = some p ∧ p.work = some w ∧
      slot ∈ w.evaluation.parks

/-- The delivery is run for the actor, and is not being run. -/
structure For (id : ActorId) (d : Delivery) (s : Store) : Prop where
  actor : (s.agenda d.task.context.task).actor = id
  muted : (s.agenda d.task.context.task).muted = false
  running : (s.agenda d.task.context.task).running = false

/-- The delivery was run until it had to wait. -/
structure Dozes (tidy : Prop) (id : ActorId) (d : Delivery) (s : Store) : Prop extends
    For id d s where
  since : ∃ old, d.Since tidy old s
  waits : d.task.main.Waits
  rests : d.task.main.Rests True d.task.context (.task d.task.context.task) s
  alarm : (s.agenda d.task.context.task).Alarm
  trampoline : (s.agenda d.task.context.task).waiting = 0

/-- The delivery waits. If it was told something, its actor is to be resumed; if something it waits
for is bound, its actor is on the queue of wake-ups. -/
structure Waits (tidy : Prop) (id : ActorId) (d : Delivery) (s : Store) (queue : Fifo ActorId) :
    Prop extends Dozes tidy id d s where
  asked : (s.agenda d.task.context.task).woken = true → id ∈ queue.toList ∨ id ∈ s.wakeups
  bound : ∀ slot, d.ParkedOn s slot → (s.heap.slot? slot).isSome = true → id ∈ queue.toList

variable {s : Store} {old : Heap} {queue queue' : Fifo ActorId} {fuel : Nat}

namespace Since

lemma standing (h : d.Since tidy old s) :
    ∃ dropped trees, Task.Standing True d.task.context d.task.main s dropped trees := by
  obtain ⟨behavior, self, exported, here, hdriven⟩ := h
  obtain ⟨dropped, trees, hst, _⟩ := hdriven.standing
  exact ⟨dropped, trees, hst⟩

lemma outside (h : d.Since tidy old s) (other : s.Outside d.task.context.task s')
    (fine : s'.heap.Fine tidy) : d.Since tidy old s' := by
  obtain ⟨behavior, self, exported, here, hdriven⟩ := h
  exact ⟨behavior, self, exported, here, hdriven.outside other fine⟩

lemma passed (h : d.Since tidy old s) : d.Since tidy old { s with wakeups := #[] } := by
  obtain ⟨behavior, self, exported, here, hdriven⟩ := h
  exact ⟨behavior, self, exported, here, hdriven.passed⟩

/-- A run of a delivery spares the frames that there were when it began. -/
lemma run {task : Task .outcome} (h : d.Since tidy old s)
    (run : d.task.advance fuel s = some (task, s')) :
    Since tidy old { d with task } s' ∧ s'.heap.Fine tidy ∧
      (tidy → old.Spares s.heap s'.heap) := by
  obtain ⟨behavior, self, exported, here, hdriven⟩ := h
  have hspares (ht : tidy) : old.Spares s.heap s'.heap ∧ s'.heap.Fine tidy :=
    hdriven.spares (fun _ _ hp => hp.code ht)
    (by simp [Job.Guarded, Job.items, Item.Guarded, ht]) run
  refine ⟨⟨behavior, self, exported, here, hdriven.polled run⟩,
    ⟨?_, fun ht => (hspares ht).2.code ht⟩, fun ht => (hspares ht).1⟩
  obtain ⟨dropped, trees, hst, _⟩ := (hdriven.polled run).standing
  exact hst.orderly.sound trivial

end Since

/-- What is told to a task changes nothing that it waits for. -/
lemma parkedOn_toldAll {ws : List Waiter} (told : s'.agenda d.task.context.task =
      ws.foldl (told d.task.context.task) (s.agenda d.task.context.task))
    (h : d.ParkedOn s' slot) : d.ParkedOn s slot := by
  refine h.imp_right ?_
  rintro ⟨ticket, p, w, hp, hw, hslot⟩
  have hslip : (s.agenda d.task.context.task).slip ticket = some (some w, p.reply) := by
    rw [← slip_toldAll d.task.context.task _ ws, ← told, slip, hp, ← hw]
    rfl
  obtain ⟨p0, hp0, hpair⟩ := Option.map_eq_some_iff.1 hslip
  exact ⟨ticket, p0, w, hp0, (Prod.mk.inj hpair).1, hslot⟩

lemma For.outside (h : d.For id s) (hs : d.task.context.task < s.agendas.size)
    (other : s.Outside d.task.context.task s') : d.For id s' := by
  obtain ⟨ws, hws⟩ := other.told hs
  obtain ⟨hactor, hmuted, hrunning⟩ :=
    (Later.toldAll d.task.context.task ws (s.agenda d.task.context.task)).flags
  rw [← hws] at hactor hmuted hrunning
  exact ⟨hactor.trans h.actor, hmuted.trans h.muted, hrunning.trans h.running⟩

lemma For.run {task : Task .outcome} {log : List Request} (h : d.For id s)
    (poll : d.task.Poll s log task s') (hs : d.task.context.task < s.agendas.size) :
    For id { d with task } s' := by
  obtain ⟨hactor, hmuted, hrunning⟩ := poll.flags hs
  have hcontext : ({ d with task } : Delivery).task.context = d.task.context := poll.context
  rw [← hcontext] at hactor hmuted hrunning
  refine ⟨hactor.trans ?_, hmuted.trans ?_, hrunning⟩
  · rw [hcontext, h.actor]
  · rw [hcontext, h.muted]

namespace Dozes

lemma size (h : d.Dozes tidy id s) : d.task.context.task < s.agendas.size := by
  obtain ⟨old, hsince⟩ := h.since
  obtain ⟨_, _, hst⟩ := hsince.standing
  exact hst.orderly.size

lemma outside (h : d.Dozes tidy id s) (other : s.Outside d.task.context.task s')
    (fine : s'.heap.Fine tidy) : d.Dozes tidy id s' := by
  obtain ⟨old, hsince⟩ := h.since
  obtain ⟨_, _, hst⟩ := hsince.standing
  obtain ⟨ws, hws⟩ := other.told h.size
  have hlater := Later.toldAll d.task.context.task ws (s.agenda d.task.context.task)
  rw [← hws] at hlater
  refine ⟨h.toFor.outside h.size other, ⟨old, hsince.outside other fine⟩, h.waits,
    hst.rests_outside other h.rests, hlater.alarm h.alarm, ?_⟩
  -- no piece was added
  have hpieces : (s'.agenda d.task.context.task).pieces.size ≤
      (s.agenda d.task.context.task).pieces.size := by
    by_contra hlt
    rw [Nat.not_le] at hlt
    have hnone : (s.agenda d.task.context.task).slip
        (s.agenda d.task.context.task).pieces.size = none := by
      simp [slip]
    rw [← slip_toldAll d.task.context.task _ ws, ← hws, slip,
      Array.getElem?_eq_getElem hlt] at hnone
    cases hnone
  have hwaiting := h.trampoline
  rw [waiting] at hwaiting ⊢
  rw [hlater.enlisted]
  omega

lemma passed (h : d.Dozes tidy id s) : d.Dozes tidy id { s with wakeups := #[] } := by
  obtain ⟨old, hsince⟩ := h.since
  exact ⟨⟨h.actor, h.muted, h.running⟩, ⟨old, hsince.passed⟩, h.waits, h.rests, h.alarm,
    h.trampoline⟩

/-- A delivery that was told nothing is at rest. -/
lemma atRest (h : d.Dozes tidy id s) (unheard : (s.agenda d.task.context.task).woken ≠ true) :
    Task.AtRest d.task.context d.task.main s := by
  obtain ⟨old, hsince⟩ := h.since
  obtain ⟨_, _, hst⟩ := hsince.standing
  exact hst.atRest ⟨h.rests, h.alarm, fun hastir =>
    hastir.elim unheard fun hwaiting => hwaiting h.trampoline⟩ h.waits

/-- As long as a delivery was told nothing, no slot that it waits for is bound. -/
lemma unbound (h : d.Dozes tidy id s) (unheard : (s.agenda d.task.context.task).woken ≠ true)
    (parked : d.ParkedOn s slot) : s.heap.slot? slot = none := by
  obtain ⟨old, hsince⟩ := h.since
  obtain ⟨_, _, hst⟩ := hsince.standing
  have hrest := h.atRest unheard
  have hmoored : ∃ who, s.heap.Moored who slot := by
    rcases parked with hmain | ⟨ticket, p, w, hp, hw, hpiece⟩
    · exact ⟨_, hrest.main.leaves.2 slot hmain⟩
    · have hcell := working_of_piece hst.orderly.pending hp hw
      exact ⟨_, (hrest.pieces ticket w hcell).leaves.2 slot hpiece⟩
  obtain ⟨who, ws, hws, _⟩ := hmoored
  rw [Heap.slot?, hws]

/-- The slots that a delivery waits for exist. -/
lemma lt_of_parkedOn (h : d.Dozes tidy id s) (parked : d.ParkedOn s slot) :
    slot < s.heap.slots.size := by
  obtain ⟨old, hsince⟩ := h.since
  obtain ⟨_, _, hst⟩ := hsince.standing
  rcases parked with hmain | ⟨ticket, p, w, hp, hw, hpiece⟩
  · exact hst.sits.parks slot hmain trivial
  · have hcell := working_of_piece hst.orderly.pending hp hw
    exact (hst.orderly.sits ticket w hcell).parks slot hpiece trivial

end Dozes

namespace Waits

/-- What was asked for so far, and meanwhile outside. -/
lemma asked_outside (h : d.Waits tidy id s queue) (other : s.Outside d.task.context.task s')
    (woken : (s'.agenda d.task.context.task).woken = true) :
    id ∈ queue.toList ∨ id ∈ s'.wakeups := by
  have hrouses := other.rouses h.size
  rcases hrouses.asked h.running h.muted woken with hwoken | hactor
  · exact (h.asked hwoken).imp_right (hrouses.kept id)
  · exact .inr (h.actor ▸ hactor)

/-- Something happens outside that binds no slot. -/
lemma outside (h : d.Waits tidy id s queue) (other : s.Outside d.task.context.task s')
    (fine : s'.heap.Fine tidy) (slots : ∀ i < s.heap.slots.size, s'.heap.slot? i = s.heap.slot? i)
    (kept : id ∈ queue.toList → id ∈ queue'.toList) : d.Waits tidy id s' queue' := by
  refine ⟨h.toDozes.outside other fine, fun woken => (h.asked_outside other woken).imp_left kept,
    fun slot parked hbound => kept ?_⟩
  obtain ⟨ws, hws⟩ := other.told h.size
  have hparked := parkedOn_toldAll hws parked
  rw [slots slot (h.lt_of_parkedOn hparked)] at hbound
  exact h.bound slot hparked hbound

/-- Something happens outside, and all wake-ups are passed on. -/
lemma passed (h : d.Waits tidy id s queue) (other : s.Outside d.task.context.task s')
    (fine : s'.heap.Fine tidy) (passed : id ∈ queue.toList ∨ id ∈ s'.wakeups → id ∈ queue'.toList) :
    d.Waits tidy id { s' with wakeups := #[] } queue' := by
  have hdozes := (h.toDozes.outside other fine).passed
  refine ⟨hdozes, fun woken => .inl (passed (h.asked_outside other woken)),
    fun slot parked hbound => ?_⟩
  by_cases hwoken : (s'.agenda d.task.context.task).woken = true
  · exact passed (h.asked_outside other hwoken)
  · rw [hdozes.unbound hwoken parked] at hbound
    cases hbound

/-- A delivery that was run and has to wait. -/
lemma of_run {task : Task .outcome} (since : d.Since tidy old s) (own : d.For id s)
    (run : d.task.advance fuel s = some (task, s')) (waits : task.answer? = none)
    (queue : Fifo ActorId) : Waits tidy id { d with task } { s' with wakeups := #[] } queue := by
  obtain ⟨_, _, hst⟩ := since.standing
  obtain ⟨log, hpoll⟩ := poll_of_advance run
  have hcontext : task.context = d.task.context := hpoll.context
  have hrest := hpoll.atRest hst waits
  rw [← hcontext] at hrest
  have hunheard : (s'.agenda task.context.task).woken ≠ true := by
    rw [hrest.unheard]
    exact Bool.false_ne_true
  have hdozes : Dozes tidy id { d with task } s' := by
    refine ⟨own.run hpoll hst.orderly.size, ⟨old, (since.run run).1⟩, waits, .inr (.inl ?_),
      .inr ⟨hrest.ready, hrest.armed⟩, hrest.trampoline⟩
    exact hrest.main.mono (fun _ _ hr => hr) fun _ hm _ => hm
  refine ⟨hdozes.passed, fun woken => absurd woken hunheard, fun slot parked hbound => ?_⟩
  rw [hdozes.passed.unbound hunheard parked] at hbound
  cases hbound

end Waits

end Delivery

/-! ### The run of an actor -/

/-- All deliveries but that of an actor wait, and that of the actor can be run. -/
structure Vigil (tidy : Prop) (runner : ActorId) (current : Option Delivery)
    (s : Stage) (w : World) : Prop where
  fine : w.store.heap.Fine tidy
  others : ∀ id d, id ≠ runner → s.Waiting id d → d.Waits tidy id w.store s.wakeups
  mine : ∀ d, current = some d → (∃ old, d.Since tidy old w.store) ∧ d.For runner w.store

lemma Fifo.toList_pushAll {α : Type} (ids : List α) (queue : Fifo α) :
    (ids.foldl push queue).toList = queue.toList ++ ids := by
  induction ids generalizing queue with
  | nil => simp
  | cons x ids ih => simp [ih, toList_push]

lemma Fifo.mem_pushAll {α : Type} {ids : List α} {queue : Fifo α} {id : α} :
    id ∈ (ids.foldl push queue).toList ↔ id ∈ queue.toList ∨ id ∈ ids := by
  rw [toList_pushAll, List.mem_append]

lemma Store.Outside.dicts {task : Nat} (s : Store) (dicts : Array (List (String × Value))) :
    s.Outside task { s with heap := { s.heap with dicts } } :=
  .onHeap s (.of_shape rfl rfl rfl) fun _ _ => id

lemma Heap.Fine.dicts {h : Heap} (fine : h.Fine tidy) (dicts : Array (List (String × Value))) :
    ({ h with dicts } : Heap).Fine tidy :=
  ⟨fine.sound.of_shape rfl rfl, fun ht => (fine.code ht).of_eq rfl rfl⟩

lemma Actor.since_start (fine : w.store.heap.Fine tidy) (a : Actor) (m : Moment) (message : Value) :
    (a.start m message w).1.Since tidy w.store.heap (a.start m message w).2.store :=
  ⟨a.behavior, m.self, a.exports, ⟨a.env, 0⟩, .opened (s := w.store.newTransaction.2) rfl fine.sound
    fine m.self false w.store.newTransaction.1 m.now⟩

/-- What settling a delivery does to the store and the registry. -/
lemma Actor.exists_of_run_settle {a' : Actor} {self : ActorId} {outcome : Outcome}
    {s' : Stage} {w' : World} (run : (a.settle self d outcome w).run s = ((a', w'), s')) :
    ∃ (store : Store) (dicts : Array (List (String × Value))),
      (∀ task, d.task.context.task ≠ task → w.store.Outside task store) ∧
      store.heap = { w.store.heap with dicts } ∧
      w' = { w with store := { store with wakeups := #[] } } ∧
      s'.wakeups = store.wakeups.toList.foldl Fifo.push s.wakeups ∧
      ∀ x ∈ s'.registry, x ∈ s.registry ∨ ∃ name b, x.2 = ⟨name, .program b⟩ ∧
      b.current = none := by
  obtain ⟨f, e, mail, next, wakeups, -, -, hwakeups, hrun⟩ := a.exists_settlement self d outcome w s
  rw [hrun] at run
  cases run
  obtain ⟨dicts, hdicts⟩ := setDefinitions_frame a.env e.defines.toList
    (w.store.onTransaction d.transaction f).2
  refine ⟨_, dicts, fun task hne => ?_, (close_frame ..).1.trans ?_, rfl, hwakeups, fun x hx => ?_⟩
  · refine Outside.trans ?_ (.close _ hne)
    rw [hdicts]
    exact (Outside.onTransaction w.store _ _).trans (.dicts _ dicts)
  · rw [hdicts]
    rfl
  · refine (mem_registry_seatAll a.logger ((postAll_frame ..).1 ▸ hx)).imp id ?_
    rintro ⟨b, _, rfl⟩
    exact ⟨_, _, rfl, rfl⟩

namespace Vigil

variable {self : ActorId} {d' : Delivery} {s' : Stage} {w' : World}

lemma start {m : Moment} (h : Vigil tidy m.self none s w) (a : Actor) (message : Value) :
    Vigil tidy m.self (some (a.start m message w).1) s (a.start m message w).2 := by
  have hother : ∀ task, w.store.Outside task (a.start m message w).2.store := fun task =>
    (Outside.newTransaction w.store).trans (.newAgenda _ m.self false)
  have hagenda : (a.start m message w).2.store.agenda (a.start m message w).1.task.context.task =
      { actor := m.self, muted := false } := by
    simp [Actor.start, spawn, newAgenda, newTransaction, agenda]
  refine ⟨h.fine, fun id d hne hd => ?_, ?_⟩
  · exact (h.others id d hne hd).outside (hother _) h.fine (fun _ _ => rfl) fun hid => hid
  · rintro _ ⟨⟩
    exact ⟨⟨_, a.since_start h.fine m message⟩, by rw [hagenda], by rw [hagenda], by rw [hagenda]⟩

lemma advance (h : Vigil tidy self (some d) s w)
    (regular : Regular own (s.Beside self (some d)) s w)
    (run : (d.advance w).run s = ((d', w'), s')) (alive : w'.exhausted = false) :
    Vigil tidy self (some d') s' w' ∧
      (d'.task.answer? = none → d'.Waits tidy self w'.store s'.wakeups) := by
  obtain ⟨task, store, hrun, rfl, rfl, rfl⟩ := Delivery.exists_of_run_advance run alive
  obtain ⟨⟨old, hsince⟩, hfor⟩ := h.mine d rfl
  -- the counter of addresses is set, and wake-ups are passed on
  set s0 : Store := { w.store with ids := ⟨s.ids.issued⟩ } with hs0
  have hbefore : ∀ task, w.store.Outside task s0 := fun _ => .of_eq rfl rfl rfl
  have hsince0 := hsince.outside (hbefore _) h.fine
  obtain ⟨_, _, hst0⟩ := hsince0.standing
  have hfor0 : d.For self s0 := hfor.outside hst0.orderly.size (hbefore _)
  obtain ⟨hsince', hfine, _⟩ := hsince0.run hrun
  obtain ⟨log, hpoll⟩ := poll_of_advance hrun
  refine ⟨⟨hfine, fun id d' hne hd => ?_, ?_⟩, fun hnone =>
    .of_run hsince0 hfor0 hrun hnone _⟩
  · have htask := (regular.other hne hd).1
    refine (h.others id d' hne hd).passed ((hbefore _).trans (hpoll.outside htask.symm)) hfine ?_
    exact fun hid => Fifo.mem_pushAll.2 (hid.imp_right mem_toList_iff.2)
  · rintro _ ⟨⟩
    have hfor' := hfor0.run hpoll hst0.orderly.size
    exact ⟨⟨old, hsince'.passed⟩, hfor'.actor, hfor'.muted, hfor'.running⟩

lemma settle {a' : Actor} {outcome : Outcome} (h : Vigil tidy self (some d) s w)
    (regular : Regular own (s.Beside self (some d)) s w)
    (run : (a.settle self d outcome w).run s = ((a', w'), s')) : Vigil tidy self none s' w' := by
  obtain ⟨store, dicts, hsettled, hheap, rfl, hwakeups, hregistry⟩ := Actor.exists_of_run_settle run
  have hfine : store.heap.Fine tidy := hheap ▸ h.fine.dicts dicts
  refine ⟨hfine, ?_, fun _ hd => by cases hd⟩
  intro id d' hne hd
  obtain ⟨-, hwaiting⟩ := Beside.waited (.inr ⟨hne, hd⟩) hregistry
  have htask := (regular.other hne hwaiting).1
  refine (h.others id d' hne hwaiting).passed (hsettled _ htask.symm) hfine fun hid => ?_
  rw [hwakeups]
  exact Fifo.mem_pushAll.2 (hid.imp_right mem_toList_iff.2)

end Vigil

/-- At every point of the run of an actor, the deliveries of all others wait. -/
theorem Actor.Runs.vigil {m : Moment} {s0 : Stage} {w0 : World} {a0 : Actor}
    {backlog : List Value} (h : Runs m s0 w0 a0 s w a current backlog)
    (regular : Regular own (s0.Beside m.self a0.current) s0 w0)
    (start : Vigil tidy m.self a0.current s0 w0) : Vigil tidy m.self current s w := by
  induction h with
  | begun => exact start
  | started _ ih => exact ih.start ..
  | advanced before run alive ih =>
    obtain ⟨own', hregular⟩ := before.regular regular
    exact (ih.advance hregular run alive).1
  | settled before _ run ih =>
    obtain ⟨own', hregular⟩ := before.regular regular
    exact ih.settle hregular run

/-! ### What a host may do -/

/-- What a host may do to a heap: it makes frames and code, declares and defines names, and waits
for slots. New code declares what it binds, if `tidy`. -/
inductive Heap.Edit (tidy : Prop) (h : Heap) : Heap → Prop where
  | none : Edit tidy h h
  | layer (base : Env) : Edit tidy h (h.newLayer base).2
  | scope (captured caller : Env) (vars : List String) :
      Edit tidy h (h.newScope captured caller vars).2
  | actor (id : ActorId) (next : Env) : Edit tidy h (h.newActor id next).2
  | global (next : Env) : Edit tidy h (h.newGlobal next).2
  | closure (c : Closure) (code : tidy → c.param.Tidy ∧ c.body.Tidy) :
      Edit tidy h (h.newClosure c).2
  | block (b : Block) (code : tidy → b.Tidy) : Edit tidy h (h.newBlock b).2
  | native (f : Native) : Edit tidy h (h.newNative f).2
  | declare (name : String) (env : Env) : Edit tidy h (h.declare name env).2
  | define (name : String) (v : Value) (env : Env) : Edit tidy h (h.define name v env).2
  | park (slot : Nat) (name : String) : Edit tidy h (h.park slot (.host name))

namespace Heap

/-- A block gets one more variable. -/
def addVariable (h : Heap) (i : Nat) (name : String) : Heap :=
  { h with
    scopes := h.scopes.modify i (· ++ [(name, h.slots.size)])
    slots := h.slots.push (.unbound []) }

/-- A declaration adds a variable to a block that can be seen from the environment. -/
lemma declare_cases (h : Heap) (name : String) (env : Env) : (h.declare name env).2 = h ∨
    ∃ i, .scope i ∈ env.parts ∧ (h.declare name env).2 = h.addVariable i name := by
  induction env with
  | empty => exact .inl rfl
  | block i captured caller _ _ => exact .inr ⟨i, Set.mem_insert .., rfl⟩
  | dynamic _ _ ih | actor _ _ _ ih | global _ _ ih =>
    exact ih.imp_right fun ⟨i, hi, heq⟩ => ⟨i, Set.mem_insert_of_mem _ hi, heq⟩

lemma scope_addVariable (h : Heap) (i : Nat) (name : String) (j : Nat) :
    (h.addVariable i name).scope j = h.scope j ∨
      i = j ∧ (h.addVariable i name).scope j = h.scope j ++ [(name, h.slots.size)] := by
  simp only [scope, addVariable, Array.getElem?_modify]
  by_cases hj : i = j
  · rw [if_pos hj]
    cases h.scopes[j]? with
    | none => exact .inl rfl
    | some names => exact .inr ⟨hj, rfl⟩
  · rw [if_neg hj]
    exact .inl rfl

lemma mem_scope_addVariable (h : Heap) {i j : Nat} {name : String} {x : String × Nat}
    (hx : x ∈ (h.addVariable i name).scope j) : x ∈ h.scope j ∨ i = j ∧
    x = (name, h.slots.size) := by
  rcases h.scope_addVariable i name j with hj | ⟨heq, hj⟩
  · exact .inl (hj ▸ hx)
  · rw [hj, List.mem_append, List.mem_singleton] at hx
    exact hx.imp_right fun hx => ⟨heq, hx⟩

lemma anchors_declare (h : Heap) (name : String) (env : Env) :
    h.Anchors (h.declare name env).2 := by
  rcases h.declare_cases name env with heq | ⟨i, -, heq⟩
  · rw [heq]
    exact .refl h
  · rw [heq]
    have hsize : (h.addVariable i name).slots.size = h.slots.size + 1 := Array.size_push _
    refine ⟨le_rfl, by simp [addVariable], by simp [addVariable], fun j x slot hslot => ?_,
      fun hsound j x hx => ?_⟩
    · rcases h.scope_addVariable i name j with hj | ⟨_, hj⟩
      · rwa [hj]
      · rw [hj, List.lookup_append, hslot]
        rfl
    · rcases h.mem_scope_addVariable hx with hx | ⟨_, rfl⟩
      · have := hsound j x hx
        omega
      · omega

namespace Edit

variable {h h' : Heap}

lemma anchors (edit : h.Edit tidy h') : h.Anchors h' := by
  cases edit with
  | none => exact .refl h
  | layer base => exact .of_grows (h.grows_newLayer base)
  | scope captured caller vars => exact .of_grows (h.grows_newScope captured caller vars)
  | actor id next => exact .of_grows (h.grows_newActor id next)
  | closure c _ => exact .of_grows (h.grows_newClosure c)
  | block b _ => exact .of_grows (h.grows_newBlock b)
  | native | global => exact .of_shape rfl rfl rfl
  | declare name env => exact h.anchors_declare name env
  | define name v env =>
    rw [define_frame]
    exact .of_shape rfl rfl rfl
  | park slot name => exact h.anchors_park slot (.host name)

/-- Slots are added, or get more waiters. -/
lemma slots (edit : h.Edit tidy h') :
    (∃ n, h'.slots = h.slots ++ Array.replicate n (Slot.unbound [])) ∨
      ∃ slot name, h' = h.park slot (.host name) := by
  cases edit with
  | scope captured caller vars => exact .inl ⟨_, rfl⟩
  | declare name env =>
    rcases h.declare_cases name env with heq | ⟨i, -, heq⟩
    · exact .inl ⟨0, by rw [heq]; exact append_empty.symm⟩
    · exact .inl ⟨1, by rw [heq]; rfl⟩
  | define name v env => exact .inl ⟨0, by rw [define_frame]; exact append_empty.symm⟩
  | park slot name => exact .inr ⟨slot, name, rfl⟩
  | _ => exact .inl ⟨0, append_empty.symm⟩

/-- No slot is bound. -/
lemma slot? (edit : h.Edit tidy h') : ∀ i < h.slots.size, h'.slot? i = h.slot? i := by
  intro i hi
  rcases edit.slots with ⟨added, hadded⟩ | ⟨slot, name, rfl⟩
  · rw [Heap.slot?, Heap.slot?, hadded, Array.getElem?_append_left hi]
  · have hspares : h.Spares h (h.park slot (.host name)) := .park slot (.host name)
    exact hspares.slots i hi

/-- Everyone goes on waiting. -/
lemma outside {s : Store} (edit : s.heap.Edit tidy h') (task : Nat) :
    s.Outside task { s with heap := h' } := by
  refine .onHeap s edit.anchors fun who slot hm => ?_
  rcases edit.slots with ⟨n, hadded⟩ | ⟨slot', name, rfl⟩
  · exact hm.grows hadded
  · exact hm.park slot'

/-- New code declares what it binds. -/
lemma code (edit : h.Edit tidy h') (ht : tidy) (hcode : h.Tidy) : h'.Tidy := by
  cases edit with
  | closure c code => exact hcode.newClosure (code ht).1 (code ht).2
  | block b code => exact hcode.newBlock (code ht)
  | declare name env =>
    rcases h.declare_cases name env with heq | ⟨i, -, heq⟩
    · rwa [heq]
    · rw [heq]
      exact hcode.of_eq rfl rfl
  | define name v env =>
    rw [define_frame]
    exact hcode.of_eq rfl rfl
  | _ => exact hcode.of_eq rfl rfl

lemma fine (edit : h.Edit tidy h') (hf : h.Fine tidy) : h'.Fine tidy :=
  ⟨edit.anchors.sound hf.sound, fun ht => edit.code ht (hf.code ht)⟩

end Edit

end Heap

namespace Session

/-- The sessions that a host reaches from one in which nothing has been received, as long as no task
runs out of fuel. All code that it hands over declares what it binds, if `tidy`. -/
inductive Reached (tidy : Prop) : Session → Prop where
  | start {x : Session} (fresh : x.Fresh)
      (fine : x.config.world.store.heap.Fine tidy) : Reached tidy x
  /-- Whatever the host does to the scheduler, short of registering actors and of taking
  wake-ups. -/
  | host {x : Session} (before : Reached tidy x) {s : Stage} {heap : Heap}
      (edit : x.config.world.store.heap.Edit tidy heap)
      (registry : s.registry = x.config.registry) (ids : x.config.ids.issued ≤ s.ids.issued)
      (wakeups : x.config.wakeups.toList ⊆ s.wakeups.toList) : Reached tidy (x.host s heap)
  | bind {x : Session} (before : Reached tidy x) (name : String) (v : Value) (env : Env) :
      Reached tidy (x.bind name v env).2
  | register {x : Session} (before : Reached tidy x) {p : Performer} (fresh : p.Fresh)
      (name : String) : Reached tidy (x.register p name)
  | evaluate {x : Session} (before : Reached tidy x) (e : Expr) (code : tidy → e.Tidy)
      (alive : (x.evaluate e).2.config.world.exhausted = false) : Reached tidy (x.evaluate e).2
  | dispatch {x : Session} (before : Reached tidy x)
      (alive : x.config.dispatch.2.world.exhausted = false) :
      Reached tidy { x with config := x.config.dispatch.2 }

lemma Reached.reachable (h : x.Reached tidy) : x.Reachable := by
  induction h with
  | start fresh => exact .start fresh
  | host _ _ registry ids _ ih => exact .host ih _ registry ids
  | bind _ name v env ih => exact .bind ih name v env
  | register _ fresh name ih => exact .register ih fresh name
  | evaluate _ e _ alive ih => exact .evaluate ih e alive
  | dispatch _ alive ih => exact .dispatch ih alive

/-- A new session has no code. -/
lemma Reached.ofSettings (settings : Settings) (fuel : Nat) :
    Reached tidy (ofSettings settings fuel) := by
  set x := Session.ofSettings settings fuel with hx
  have hscopes : x.config.world.store.heap.scopes = #[] := rfl
  have hclosures : x.config.world.store.heap.closures = #[] := rfl
  have hblocks : x.config.world.store.heap.blocks = #[] := rfl
  refine .start (.ofSettings settings fuel) ⟨fun i entry hentry => ?_, fun _ =>
    ⟨fun c hc => ?_, fun b hb => ?_⟩⟩
  · cases hentry
  · cases hc
    contradiction
  · cases hb
    contradiction

lemma Reached.send {tidy : Prop} {x x' : Session} (h : x.Reached tidy) {message : Value}
    {target : ActorId} (sent : x.send message target = .ok x') : x'.Reached tidy := by
  obtain ⟨s, hs, rfl⟩ := exists_of_send sent
  obtain ⟨-, rfl⟩ := Scheduler.send_ok hs
  exact .host h .none rfl le_rfl fun _ hid => hid

lemma Reached.execute {x' : Session} (h : x.Reached tidy) {stmt : Stmt} (code : tidy → stmt.Tidy)
    (handed : x.execute stmt = .ok x') : x'.Reached tidy :=
  Reached.send (.host h (.block ⟨stmt.declared, stmt, x.global⟩ fun ht =>
    ⟨Subset.refl _, code ht⟩) rfl le_rfl fun _ hid => hid) handed

/-- All deliveries of a session wait. -/
structure Watched (tidy : Prop) (x : Session) : Prop where
  fine : x.config.world.store.heap.Fine tidy
  waits : ∀ id d, x.config.Waiting id d →
    d.Waits tidy id x.config.world.store x.config.wakeups

namespace Watched

lemma host (h : Watched tidy x) {s : Stage} {heap : Heap}
    (edit : x.config.world.store.heap.Edit tidy heap) (registry : s.registry = x.config.registry)
    (wakeups : x.config.wakeups.toList ⊆ s.wakeups.toList) : Watched tidy (x.host s heap) := by
  exact ⟨edit.fine h.fine, fun id d hd => (h.waits id d (hd.congr registry)).outside
    (edit.outside _) (edit.fine h.fine) edit.slot? fun hid => wakeups hid⟩

lemma bind (h : Watched tidy x) (name : String) (v : Value) (env : Env) :
    Watched tidy (x.bind name v env).2 := by
  obtain ⟨⟨s, store, output, traces, fuel, exhausted⟩, global, top, logger⟩ := x
  have hheap : (store.bind name v env).2.heap = (store.heap.bind name v env).2.2 :=
    heap_wakeAll ..
  have hfine : (store.bind name v env).2.heap.Fine tidy := by
    rw [hheap]
    obtain ⟨hclosures, hblocks⟩ := store.heap.code_bind name v env
    exact ⟨(store.heap.anchors_bind name v env).sound h.fine.sound, fun ht =>
      (h.fine.code ht).of_eq hclosures hblocks⟩
  rw [bind_eq]
  refine ⟨hfine, fun id d hd => ?_⟩
  exact (h.waits id d hd).passed (.bind store name v env) hfine fun hid =>
    Fifo.mem_pushAll.2 (hid.imp_right mem_toList_iff.2)

end Watched

end Session

namespace Scheduler

lemma mem_enter {B : Type} {e : Entry B} {registry : List (ActorId × Entry B)}
    {x : ActorId × Entry B} (h : x ∈ enter id e registry) : x ∈ registry ∨ x = (id, e) := by
  induction registry with
  | nil => exact .inr (mem_singleton.1 h)
  | cons y rest ih =>
    unfold enter at h
    split at h
    · rcases mem_cons.1 h with rfl | h
      · exact .inr rfl
      · exact .inl (mem_cons_of_mem _ h)
    · rcases mem_cons.1 h with rfl | h
      · exact .inl (mem_cons_self ..)
      · exact (ih h).imp_left (mem_cons_of_mem _)

lemma not_mem_of_find? (h : s.find? id = none) (e : Entry Performer) : (id, e) ∉ s.registry := by
  intro he
  rw [find?, lookup_eq_none_iff] at h
  simpa using h (id, e) he

end Scheduler

namespace Session

namespace Watched

lemma register (h : Watched tidy x) {p : Performer} (fresh : p.Fresh) (name : String) :
    Watched tidy (x.register p name) := by
  refine ⟨h.fine, ?_⟩
  rintro id d ⟨name', a, ha, hd⟩
  rcases mem_enter ha with ha | ha
  · exact h.waits id d ⟨name', a, ha, hd⟩
  · cases ha
    rw [fresh.1] at hd
    cases hd

lemma evaluate (h : Watched tidy x) (e : Expr) (code : tidy → e.Tidy)
    (alive : (x.evaluate e).2.config.world.exhausted = false) : Watched tidy (x.evaluate e).2 := by
  obtain ⟨task, after, effects, store, hev⟩ := x.evaluates e alive
  obtain ⟨log, hpoll⟩ := poll_of_advance hev.run
  set s0 : Store := { x.config.world.store with ids := x.config.ids } with hs0
  have hdriven : Task.Driven (Heap.Fine tidy) (.eval e ⟨x.global, 1⟩) x.config.world.store.heap
      (x.evaluation e).1 (x.evaluation e).2 :=
    .opened (s := s0.newTransaction.2) rfl h.fine.sound h.fine ..
  obtain ⟨hspares, hfine⟩ := hdriven.spares (fun ht _ hp => hp.code ht)
    (List.forall_mem_singleton.2 code) hev.run
  have hworld : (x.evaluate e).2.config.world.store = store := by rw [hev.result]
  have hheap : (x.evaluate e).2.config.world.store.heap = after.heap := hworld ▸ hev.heap
  have hwakeups : (x.evaluate e).2.config.wakeups = x.config.wakeups := by
    rw [hev.result]
    exact (postAll_frame ..).2.2.2.trans (seatAll_frame ..).2.2.2.2.2
  refine ⟨hheap ▸ hfine, ?_⟩
  rintro id d ⟨name, a, ha, hd⟩
  have hwaiting : x.config.Waiting id d := by
    rcases hev.registered ha with hold | ⟨hidle, _⟩
    · exact ⟨name, a, hold, hd⟩
    · rw [hidle a rfl] at hd
      cases hd
  -- the task of the delivery sees a new task that runs and ends
  have hwaits := h.waits id d hwaiting
  have hne : (x.evaluation e).1.context.task ≠ d.task.context.task :=
    (Nat.ne_of_lt hwaits.size).symm
  have hsame : x.config.world.store.Outside d.task.context.task s0 := .of_eq rfl rfl rfl
  have hopened : s0.Outside d.task.context.task (x.evaluation e).2 :=
    (Outside.newTransaction s0).trans (.newAgenda _ x.top true)
  have hlast : (after.close task.context.task).Outside d.task.context.task
      (x.evaluate e).2.config.world.store := by
    rw [hworld, hev.ended]
    exact .of_eq rfl rfl rfl
  have hall :=
    (((hsame.trans hopened).trans (hpoll.outside hne)).trans
      (.close _ (by rwa [hev.context]))).trans hlast
  refine hwaits.outside hall (hheap ▸ hfine) (fun i hi => ?_) fun hid => hwakeups ▸ hid
  rw [hheap]
  exact hspares.slots i hi

end Watched

end Session

/-! ### Dispatching -/

namespace Vigil

lemma leave {p : Performer} (h : Vigil tidy id current s w)
    (mine : ∀ a d, p = .program a → a.current = some d → d.Waits tidy id w.store s.wakeups) :
    ∀ id' d, (s.setBehavior id p).Waiting id' d →
      d.Waits tidy id' w.store (s.setBehavior id p).wakeups := by
  intro id' d hd
  rcases waiting_setBehavior hd with ⟨rfl, a, ha, hd⟩ | ⟨hid, hd⟩
  · exact mine a d ha hd
  · exact h.others id' d hid hd

lemma invoked {message : Option Value} {c : Ensemble}
    (h : Vigil tidy id none s w) (regular : Regular own s.Waiting s w)
    (mine : ∀ d, s.Waiting id d → (∃ old, d.Since tidy old w.store) ∧ d.For id w.store)
    (invoked : Configuration.Invoked s w id message c) : c.world.store.heap.Fine tidy ∧
      ∀ id' d, c.Waiting id' d → d.Waits tidy id' c.world.store c.wakeups := by
  cases invoked with
  | missing gone =>
    refine ⟨h.fine, fun id' d hd => h.others id' d ?_ hd⟩
    rintro rfl
    obtain ⟨name, a, ha, _⟩ := hd
    exact not_mem_of_find? gone _ ha
  | @service name p p' l w' found other serves same =>
    obtain ⟨hregistry, _, _, hwakeups⟩ := postAll_frame l s
    have hposted : Vigil tidy id none (l.foldl post s) w' := by
      refine ⟨serves.store ▸ h.fine, fun id' d hne hd => ?_,
        fun _ hd => by cases hd⟩
      rw [serves.store, hwakeups]
      exact h.others id' d hne (hd.congr hregistry)
    exact ⟨hposted.fine, hposted.leave fun a d ha => absurd ha (serves.service a)⟩
  | @program name a a' s' w' current backlog found point last alive =>
    have hregular := regular.enter found
    have hvigil : Vigil tidy id a.current s w :=
      ⟨h.fine, h.others, fun d hd => mine d ⟨name, a, mem_of_find? found, hd⟩⟩
    have hpoint := point.vigil hregular hvigil
    refine ⟨hpoint.fine, hpoint.leave fun b d hb hd => ?_⟩
    cases hb
    rcases last with ⟨hnone, _⟩ | ⟨s1, w1, d1, d', hbefore, hrun, hanswer, hsome⟩
    · exact absurd (hnone.symm.trans hd) nofun
    · cases hsome.symm.trans hd
      obtain ⟨own', hregular'⟩ := hbefore.regular hregular
      exact ((hbefore.vigil hregular hvigil).advance hregular' hrun alive).2 hanswer

end Vigil

namespace Session

lemma Watched.takes {message : Option Value} (h : Watched tidy x)
    (takes : x.config.Takes s id message) :
    Vigil tidy id none s x.config.world ∧ ∀ d, s.Waiting id d →
      (∃ old, d.Since tidy old x.config.world.store) ∧ d.For id x.config.world.store := by
  refine ⟨⟨h.fine, fun id' d hne hd => ?_, fun _ hd => by cases hd⟩, fun d hd => ?_⟩
  · exact (h.waits id' d (hd.congr takes.registry)).outside (.refl _) h.fine (fun _ _ => rfl)
      fun hin => takes.wakeups id' hin hne
  · have hwaits := h.waits id d (hd.congr takes.registry)
    exact ⟨hwaits.since, hwaits.toFor⟩

lemma Watched.dispatch (h : Watched tidy x) (reachable : x.Reachable)
    (alive : x.config.dispatch.2.world.exhausted = false) :
    Watched tidy { x with config := x.config.dispatch.2 } := by
  obtain ⟨own, hregular⟩ := reachable.regular
  rcases x.config.dispatch_cases alive with heq | ⟨s, id, message, takes, invoked⟩
  · rwa [heq]
  · obtain ⟨hvigil, hmine⟩ := h.takes takes
    obtain ⟨hfine, hwaits⟩ := hvigil.invoked
      (hregular.schedule takes.registry (congrArg IdSource.issued takes.ids).ge) hmine invoked
    exact ⟨hfine, hwaits⟩

/-- In every session that can be reached, all deliveries wait. -/
theorem Reached.watched (h : x.Reached tidy) : Watched tidy x := by
  induction h with
  | start fresh fine => exact ⟨fine, fun id d hd => absurd hd (fresh.not_waiting id d)⟩
  | host _ edit registry _ wakeups ih => exact ih.host edit registry wakeups
  | bind _ name v env ih => exact ih.bind name v env
  | register _ fresh name ih => exact ih.register fresh name
  | evaluate _ e code alive ih => exact ih.evaluate e code alive
  | dispatch before alive ih => exact ih.dispatch before.reachable alive

/-- At every point of a run in a session, the deliveries of all others wait. -/
theorem Runs.vigil {m : Moment} {backlog : List Value} (h : x.Runs s w m a current backlog)
    (reached : x.Reached tidy) : Vigil tidy m.self current s w := by
  obtain ⟨own, hregular⟩ := reached.reachable.regular
  obtain ⟨s0, message, name, b, takes, found, point⟩ := h.begun
  obtain ⟨hvigil, hmine⟩ := reached.watched.takes takes
  have hstart :=
    (hregular.schedule takes.registry (congrArg IdSource.issued takes.ids).ge).enter found
  refine point.vigil hstart ⟨hvigil.fine, hvigil.others, fun d hd => hmine d ?_⟩
  exact ⟨name, b, mem_of_find? found, hd⟩

end Session

end Troupe
