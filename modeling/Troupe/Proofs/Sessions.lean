import Troupe.Proofs.Services

/-!
The sessions that can be reached, and the points of the run of an actor in them.

* `Session.Reachable`: a session that was set up and used from outside.
* `Session.Reachable.regular`: all deliveries that wait in a session are regular.
* `Session.Runs`: the points that the run of a program goes through when a session dispatches.
-/

namespace Troupe

open IdSource List Nat Scheduler Store Troupe.Configuration

variable {s s' : Stage} {w : World} {own : ActorId → Option Nat} {x : Session}
  {id : ActorId} {p : Performer}

/-- The actor that a performer is, if it is not a service. -/
def Performer.program? : Performer → Option Actor
  | .program a => some a
  | _ => none

/-- Whoever has received nothing yet. -/
def Performer.Fresh : Performer → Prop
  | .program a => a.current = none ∧ a.backlog = []
  | _ => True

namespace Scheduler

lemma mem_of_find? {M B : Type} {s : Scheduler M B} {e : Entry B} (h : s.find? id = some e) :
    (id, e) ∈ s.registry := by
  obtain ⟨l, l', hl, -⟩ := lookup_eq_some_iff.1 h
  simp [hl]

lemma mem_setBehavior {x : ActorId × Entry Performer} (h : x ∈ (s.setBehavior id p).registry) :
    ∃ e, (x.1, e) ∈ s.registry ∧ x.2 = if x.1 = id then { e with behavior := p } else e := by
  obtain ⟨⟨id', e⟩, he, rfl⟩ := mem_map.1 h
  exact ⟨e, he, rfl⟩

/-- Whoever waits once the state of an actor was entered for it. -/
lemma waiting_setBehavior {id' : ActorId} {d : Delivery} (h : (s.setBehavior id p).Waiting id' d) :
    (id' = id ∧ ∃ a, p = .program a ∧ a.current = some d) ∨ id' ≠ id ∧ s.Waiting id' d := by
  obtain ⟨name, a, ha, hd⟩ := h
  obtain ⟨e, he, heq⟩ := mem_setBehavior ha
  by_cases hid : id' = id
  · rw [if_pos hid] at heq
    exact .inl ⟨hid, a, (congrArg Entry.behavior heq).symm, hd⟩
  · rw [if_neg hid] at heq
    cases heq
    exact .inr ⟨hid, name, a, he, hd⟩

/-- Only the registry says who waits. -/
lemma Waiting.congr {d : Delivery} (h : s'.Waiting id d) (registry : s'.registry = s.registry) :
    s.Waiting id d := by
  obtain ⟨name, a, ha, hd⟩ := h
  exact ⟨name, a, registry ▸ ha, hd⟩

lemma find?_congr (registry : s'.registry = s.registry) : s'.find? id = s.find? id := by
  rw [find?, find?, registry]

end Scheduler

namespace Regular

variable {a : Actor} {name : String}

lemma enter (h : Regular own s.Waiting s w) (found : s.find? id = some ⟨name, .program a⟩) :
    Regular own (s.Beside id a.current) s w := by
  refine h.mono fun id' d hd => ?_
  rcases hd with ⟨rfl, hd⟩ | ⟨_, hd⟩
  · exact ⟨name, a, mem_of_find? found, hd⟩
  · exact hd

lemma leave {D : ActorId → Delivery → Prop} (h : Regular own D s w)
    (others : ∀ id' d, id' ≠ id → s.Waiting id' d → D id' d)
    (mine : ∀ a d, p = .program a → a.current = some d → D id d) :
    Regular own (s.setBehavior id p).Waiting (s.setBehavior id p) w := by
  have hregistered : ∀ id' e, (id', e) ∈ (s.setBehavior id p).registry →
      id'.raw ≤ s.ids.issued ∧ own id' = none := by
    intro id' e he
    obtain ⟨e0, he0, _⟩ := mem_setBehavior he
    exact h.registered id' e0 he0
  refine Regular.mono ⟨h.alive, h.ids, hregistered, h.good, h.apart⟩ fun id' d hd => ?_
  rcases waiting_setBehavior hd with ⟨rfl, a', ha', hd⟩ | ⟨hid, hd⟩
  · exact mine a' d ha' hd
  · exact others id' d hid hd

end Regular

namespace Regular

/-- A change of the scheduler that registers no one. -/
lemma schedule (h : Regular own s.Waiting s w) (registry : s'.registry = s.registry)
    (ids : s.ids.issued ≤ s'.ids.issued) : Regular own s'.Waiting s' w := by
  exact Regular.mono (h.elsewhere h.alive le_rfl (h.ids.trans ids) ids registry
    fun _ _ _ => .refl _) fun id d hd => hd.congr registry

lemma invoked (h : Regular own s.Waiting s w) {message : Option Value}
    {c : Ensemble} (invoked : Invoked s w id message c) :
    ∃ own', Regular own' c.Waiting c.toScheduler c.world := by
  cases invoked with
  | missing gone => exact ⟨own, h⟩
  | @service name p p' l w' found other serves same =>
    obtain ⟨hregistry, _, hids, _⟩ := postAll_frame l s
    have hposted : Regular own s.Waiting (l.foldl post s) w' := by
      refine h.elsewhere (same.trans h.alive) (by rw [serves.store]) ?_ (by rw [hids]) hregistry
        fun _ _ _ => by rw [serves.store]; exact .refl _
      rw [serves.store, hids]
      exact h.ids
    exact ⟨own, hposted.leave (fun id' d _ hd => hd.congr hregistry) fun a d ha =>
      absurd ha (serves.service a)⟩
  | program found point last alive =>
    have henter := h.enter found
    obtain ⟨own', h'⟩ := point.regular henter
    refine ⟨own', h'.leave (fun id' d hne hd => .inr ⟨hne, hd⟩) fun a d ha hd => .inl ⟨rfl, ?_⟩⟩
    cases ha
    exact hd

lemma dispatch {c : Ensemble} (h : Regular own c.Waiting c.toScheduler c.world)
    (alive : c.dispatch.2.world.exhausted = false) :
    ∃ own', Regular own' c.dispatch.2.Waiting c.dispatch.2.toScheduler c.dispatch.2.world := by
  rcases c.dispatch_cases alive with heq | ⟨s, id, message, takes, invoked⟩
  · rw [heq]
    exact ⟨own, h⟩
  · exact (h.schedule takes.registry (congrArg issued takes.ids).ge).invoked invoked

end Regular

/-! ### New actors -/

namespace Regular

/-- Addresses that were not handed out yet may be taken to belong to no one. -/
lemma reset (h : Regular own s.Waiting s w) : Regular (handOut own s.ids none) s.Waiting s w := by
  refine ⟨h.alive, h.ids, fun id e he => ?_, fun id d hd => ?_, h.apart⟩
  · obtain ⟨h1, h2⟩ := h.registered id e he
    exact ⟨h1, (handOut_of_le h1).trans h2⟩
  · exact (h.good id d hd).elsewhere (.refl _) le_rfl fun id' hle hid =>
      (handOut_of_le (hle.trans h.ids)).trans hid

/-- Actors without deliveries are registered under addresses that belong to no one. -/
lemma seat (h : Regular own s.Waiting s w) (ids : s.ids.issued ≤ s'.ids.issued)
    (registry : ∀ x ∈ s'.registry, x ∈ s.registry ∨
      (∀ a, x.2.behavior = .program a → a.current = none) ∧ own x.1 = none ∧
        x.1.raw ≤ s'.ids.issued) : Regular own s'.Waiting s' w := by
  have hregistered : ∀ id e, (id, e) ∈ s'.registry → id.raw ≤ s'.ids.issued ∧ own id = none := by
    intro id e he
    rcases registry _ he with hold | ⟨_, hown, hle⟩
    · exact ⟨(h.registered id e hold).1.trans ids, (h.registered id e hold).2⟩
    · exact ⟨hle, hown⟩
  refine Regular.mono ⟨h.alive, h.ids.trans ids, hregistered, h.good, h.apart⟩ ?_
  rintro id d ⟨name, a, ha, hd⟩
  rcases registry _ ha with hold | ⟨hidle, _⟩
  · exact ⟨name, a, hold, hd⟩
  · rw [hidle a rfl] at hd
    cases hd

/-- An actor that has received nothing is registered under the next address. -/
lemma create (h : Regular own s.Waiting s w) {p : Performer} (name : String) (fresh : p.Fresh) :
    Regular (handOut own s.ids none) (s.create p name).2.Waiting (s.create p name).2 w := by
  refine h.reset.seat (le_succ _) fun x hx => ?_
  have hfree : ∀ e, (⟨s.ids.issued + 1⟩, e) ∉ s.registry := by
    intro e he
    exact absurd (h.registered _ e he).1 (not_succ_le_self _)
  have hregistry : (s.create p name).2.registry =
      s.registry ++ [(⟨s.ids.issued + 1⟩, ⟨name, p⟩)] :=
    enter_of_free hfree
  rw [hregistry, mem_append] at hx
  rcases hx with hx | hx
  · exact .inl hx
  · rw [mem_singleton.1 hx]
    refine .inr ⟨?_, handOut_of_lt (lt_succ_self _), le_rfl⟩
    rintro a rfl
    exact fresh.1

end Regular

/-! ### Sessions -/

namespace Session

/-- Changes the scheduler and the heap of a session. -/
def host (x : Session) (s : Stage) (heap : Heap) : Session :=
  { x with config := ⟨s, { x.config.world with store := { x.config.world.store with heap } }⟩ }

/-- Registers an actor. -/
def register (x : Session) (p : Performer) (name : String) : Session :=
  { x with config := ⟨(x.config.create p name).2, x.config.world⟩ }

/-- Nothing has been received yet: the actors that a session holds, services and programs in
whatever environments, have addresses that were handed out, and none of them has a delivery or a
backlog. -/
structure Fresh (x : Session) : Prop where
  actors : ∀ id e, (id, e) ∈ x.config.registry → id.raw ≤ x.config.ids.issued ∧ e.behavior.Fresh
  ids : x.config.world.store.ids.issued ≤ x.config.ids.issued
  alive : x.config.world.exhausted = false

/-- The sessions that are reached from one in which nothing has been received, as long as no task
runs out of fuel. -/
inductive Reachable : Session → Prop where
  | start {x : Session} (fresh : x.Fresh) : Reachable x
  /-- Whatever the host does to the scheduler, short of registering actors, and to the heap: sends,
  definitions, the passing of time. -/
  | host {x : Session} (before : Reachable x) {s : Stage} (heap : Heap)
      (registry : s.registry = x.config.registry)
      (ids : x.config.ids.issued ≤ s.ids.issued) : Reachable (x.host s heap)
  | bind {x : Session} (before : Reachable x) (name : String) (v : Value) (env : Env) :
      Reachable (x.bind name v env).2
  /-- The host registers an actor that has received nothing, with any behavior and environment. -/
  | register {x : Session} (before : Reachable x) {p : Performer} (fresh : p.Fresh)
      (name : String) :
      Reachable (x.register p name)
  | evaluate {x : Session} (before : Reachable x) (e : Expr)
      (alive : (x.evaluate e).2.config.world.exhausted = false) : Reachable (x.evaluate e).2
  | dispatch {x : Session} (before : Reachable x)
      (alive : x.config.dispatch.2.world.exhausted = false) :
      Reachable { x with config := x.config.dispatch.2 }

/-- The task that evaluates an expression, before it runs. -/
def evaluation (x : Session) (e : Expr) : Task .value × Store :=
  let s : Store := { x.config.world.store with ids := x.config.ids }
  Task.spawn s.newTransaction.2 x.top true s.newTransaction.1 x.config.clock.now
    (.start (.eval e ⟨x.global, 1⟩))

/-- The actors that an evaluation stages have different addresses, which are new. -/
lemma staged_evaluation {e : Expr} {fuel : Nat} {task : Task .value} {after : Store}
    {effects : Effects}
    (run : (x.evaluation e).1.advance fuel (x.evaluation e).2 = some (task, after))
    (gathered : after.transaction task.context.transaction = .gathering effects) :
    (effects.created.toList.map (·.id)).Nodup ∧ ∀ b ∈ effects.created.toList,
      x.config.ids.issued < b.id.raw ∧ b.id.raw ≤ after.ids.issued := by
  have hcharged : task.Charged (fun id => x.config.ids.issued < id.raw) after :=
    (Task.charged_spawn { x.config.world.store with ids := x.config.ids } x.top true
      x.config.clock.now (.eval e ⟨x.global, 1⟩)).poll (fun _ hid => hid) run
  exact hcharged.staged gathered

/-- What an evaluation from outside does: the task runs once, and then it ends. If it has a value,
what it has asked for is done. -/
structure Evaluates (x : Session) (e : Expr) (task : Task .value) (after : Store)
    (effects : Effects) (store : Store) : Prop where
  run : (x.evaluation e).1.advance x.config.world.fuel (x.evaluation e).2 = some (task, after)
  result : (x.evaluate e).2 = { x with
    config := ⟨effects.sends.toList.foldl Scheduler.post
      (effects.created.toList.foldl (Scheduler.seat (some x.logger))
        { x.config.toScheduler with ids := after.ids }), { x.config.world with store }⟩ }
  answer : (task.answer? = none ∧ effects = {} ∧ (x.evaluate e).1 = .error .suspended) ∨
    ∃ v, task.answer? = some v ∧ effects = (after.transaction task.context.transaction).commit.1 ∧
      (x.evaluate e).1 = .ok v
  effects : effects = {} ∨ after.transaction task.context.transaction = .gathering effects
  heap : store.heap = after.heap
  ids : store.ids = after.ids
  others : ∀ cx : Context, cx.task ≠ task.context.task →
    cx.transaction ≠ task.context.transaction → after.Elsewhere cx store
  ended : store = { after.close task.context.task with transactions := store.transactions }

/-- As long as it does not run out of fuel, this is what an evaluation does. -/
lemma evaluates (x : Session) (e : Expr) (alive : (x.evaluate e).2.config.world.exhausted = false) :
    ∃ task after effects store, x.Evaluates e task after effects store := by
  obtain ⟨⟨s, store, output, traces, fuel, exhausted⟩, global, top, logger⟩ := x
  cases hrun :
    (evaluation ⟨⟨s, store, output, traces, fuel, exhausted⟩, global, top, logger⟩ e).1.advance
      fuel (evaluation ⟨⟨s, store, output, traces, fuel, exhausted⟩, global, top, logger⟩ e).2 with
  | none =>
    simp only [evaluation] at hrun
    simp only [evaluate, hrun] at alive
    cases alive
  | some r =>
    obtain ⟨task, after⟩ := r
    have hcontext : task.context = _ := (Task.poll_of_advance hrun).choose_spec.context
    have hrun' := hrun
    simp only [evaluation] at hrun'
    obtain ⟨hheap, hids, htransactions⟩ := after.close_frame task.context.task
    have hclose : after.Within task.context (after.close task.context.task) := .close after
    cases hanswer : task.answer? with
    | none =>
      refine ⟨task, after, {}, after.close task.context.task, hrun, ?_,
        .inl ⟨hanswer, rfl, ?_⟩, .inl rfl, hheap, hids, fun cx ht hx =>
        hclose.elsewhere cx ht hx, rfl⟩
      · simp only [evaluate, hrun', hanswer]
        rfl
      · simp only [evaluate, hrun', hanswer]
    | some v =>
      refine ⟨task, after, (after.transaction task.context.transaction).commit.1,
        ((after.close task.context.task).onTransaction task.context.transaction (·.commit)).2, hrun,
        ?_, .inr ⟨v, hanswer, rfl, ?_⟩, ?_, hheap, hids,
        fun cx ht hx => (hclose.elsewhere cx ht hx).trans (.onTransaction _ _ (Ne.symm hx)), rfl⟩
      · have heffects : ((after.close task.context.task).onTransaction task.context.transaction
            (·.commit)).1 = (after.transaction task.context.transaction).commit.1 := by
          rw [onTransaction, transaction, htransactions]
          rfl
        simp only [evaluate, hrun', hanswer]
        rw [← heffects, hcontext, Effects.run_flush]
        rfl
      · simp only [evaluate, hrun', hanswer]
      · cases after.transaction task.context.transaction with
        | gathering e' => exact .inr rfl
        | failed y => exact .inl rfl

namespace Evaluates

variable {e : Expr} {task : Task .value} {after store : Store} {effects : Effects}

lemma context (h : x.Evaluates e task after effects store) :
    task.context = (x.evaluation e).1.context :=
  (Task.poll_of_advance h.run).choose_spec.context

/-- The deliveries that wait are not concerned. -/
lemma elsewhere (h : x.Evaluates e task after effects store) {cx : Context}
    (htask : cx.task < x.config.world.store.agendas.size)
    (htx : cx.transaction < x.config.world.store.transactions.size) :
    x.config.world.store.Elsewhere cx store := by
  set s0 : Store := { x.config.world.store with ids := x.config.ids }
  obtain ⟨log, hpoll⟩ := Task.poll_of_advance h.run
  have hne : cx.task ≠ (x.evaluation e).1.context.task := Nat.ne_of_lt htask
  have hne' : cx.transaction ≠ (x.evaluation e).1.context.transaction := Nat.ne_of_lt htx
  have hfirst : x.config.world.store.Elsewhere cx s0 := .of_eq rfl rfl
  have hsecond : s0.Elsewhere cx (x.evaluation e).2 :=
    (Elsewhere.newTransaction s0 htx).trans (.newAgenda _ x.top true)
  have hlast := h.others cx (by rwa [h.context]) (by rwa [h.context])
  exact ((hfirst.trans hsecond).trans (hpoll.within.elsewhere _ hne hne')).trans hlast

/-- The task has an agenda of its own. -/
lemma size_lt (h : x.Evaluates e task after effects store) :
    x.config.world.store.agendas.size < store.agendas.size := by
  obtain ⟨log, hpoll⟩ := Task.poll_of_advance h.run
  -- what another task would see
  set cx : Context := { task.context with
    task := task.context.task + 1
    transaction := task.context.transaction + 1 }
  have hnew : x.config.world.store.agendas.size < (x.evaluation e).2.agendas.size :=
    (Array.size_push ..).symm ▸ lt_succ_self _
  have hne : cx.task ≠ task.context.task := succ_ne_self _
  have hne' : cx.transaction ≠ task.context.transaction := succ_ne_self _
  have hrun := hpoll.within.elsewhere cx (by rwa [← hpoll.context]) (by rwa [← hpoll.context])
  exact lt_of_lt_of_le hnew (hrun.size.trans (h.others cx hne hne').size)

lemma issued_le (h : x.Evaluates e task after effects store) : x.config.ids.issued ≤
    after.ids.issued := by
  obtain ⟨log, hpoll⟩ := Task.poll_of_advance h.run
  exact hpoll.within.ids

/-- The actors that were staged have different addresses, which are new. -/
lemma staged (h : x.Evaluates e task after effects store) :
    (effects.created.toList.map (·.id)).Nodup ∧ ∀ b ∈ effects.created.toList,
      x.config.ids.issued < b.id.raw ∧ b.id.raw ≤ after.ids.issued := by
  rcases h.effects with rfl | hgathered
  · exact ⟨nodup_nil, fun b hb => absurd hb not_mem_nil⟩
  · exact staged_evaluation h.run hgathered

/-- Who is registered afterwards was registered before, or is new. -/
lemma registered (h : x.Evaluates e task after effects store) {y : ActorId × Entry Performer}
    (hy : y ∈ (x.evaluate e).2.config.registry) : y ∈ x.config.registry ∨
      (∀ a, y.2.behavior = .program a → a.current = none) ∧ x.config.ids.issued < y.1.raw ∧
        y.1.raw ≤ after.ids.issued := by
  rw [h.result] at hy
  have hy' := (postAll_frame effects.sends.toList _).1 ▸ hy
  refine (mem_registry_seatAll _ hy').imp id ?_
  rintro ⟨b, hb, rfl⟩
  refine ⟨fun a ha => ?_, h.staged.2 b hb⟩
  cases ha
  rfl

lemma ids_eq (h : x.Evaluates e task after effects store) :
    (x.evaluate e).2.config.ids = after.ids := by
  rw [h.result]
  obtain ⟨_, _, hids2, _⟩ := postAll_frame effects.sends.toList
    (effects.created.toList.foldl (seat (some x.logger))
      { x.config.toScheduler with ids := after.ids })
  obtain ⟨_, _, _, _, hids1, _⟩ := seatAll_frame (some x.logger) effects.created.toList
    { x.config.toScheduler with ids := after.ids }
  exact hids2.trans hids1

/-- After an evaluation, the deliveries that wait are regular. -/
lemma regular (h : x.Evaluates e task after effects store)
    (before : Troupe.Regular own x.config.Waiting x.config.toScheduler x.config.world) :
    Troupe.Regular (handOut own x.config.ids none) (x.evaluate e).2.config.Waiting
      (x.evaluate e).2.config.toScheduler (x.evaluate e).2.config.world := by
  have hworld : (x.evaluate e).2.config.world = { x.config.world with store } := by rw [h.result]
  rw [hworld]
  have hids : store.ids.issued = after.ids.issued := congrArg issued h.ids
  have hmid : Troupe.Regular (handOut own x.config.ids none) x.config.Waiting
      { x.config.toScheduler with ids := after.ids } { x.config.world with store } := by
    refine before.reset.elsewhere before.alive ?_ hids.le h.issued_le rfl fun id d hd => ?_
    · rw [hids]
      exact before.ids.trans h.issued_le
    · obtain ⟨htask, htx⟩ := (before.good id d hd).inside
      exact h.elsewhere htask htx
  refine Troupe.Regular.seat (s := { x.config.toScheduler with ids := after.ids }) hmid ?_
    fun y hy => ?_
  · rw [h.ids_eq]
  · refine (h.registered hy).imp id fun ⟨hidle, hlt, hle⟩ => ⟨hidle, handOut_of_lt hlt, ?_⟩
    rwa [h.ids_eq]

end Evaluates

/-- What binding a name from outside does: those who waited for it are told. -/
structure Binds (x x' : Session) : Prop where
  registry : x'.config.registry = x.config.registry
  ids : x'.config.ids = x.config.ids
  store : x'.config.world.store.ids = x.config.world.store.ids
  exhausted : x'.config.world.exhausted = x.config.world.exhausted
  size : x.config.world.store.agendas.size ≤ x'.config.world.store.agendas.size
  others : ∀ cx, x.config.world.store.Elsewhere cx x'.config.world.store

/-- Binding a name from outside: those who waited for it are resumed later. -/
lemma bind_eq (x : Session) (name : String) (v : Value) (env : Env) :
    (x.bind name v env).2 = { x with config := ⟨{ x.config.toScheduler with
        wakeups := (x.config.world.store.bind name v env).2.wakeups.toList.foldl Fifo.push
          x.config.wakeups },
      { x.config.world with
        store := { (x.config.world.store.bind name v env).2 with wakeups := #[] } }⟩ } := by
  obtain ⟨⟨s, store, output, traces, fuel, exhausted⟩, global, top, logger⟩ := x
  unfold Session.bind Session.onStore
  dsimp only
  rw [World.run_passWakeups]

lemma binds (x : Session) (name : String) (v : Value) (env : Env) : x.Binds
    (x.bind name v env).2 := by
  obtain ⟨⟨s, store, output, traces, fuel, exhausted⟩, global, top, logger⟩ := x
  rw [bind_eq]
  have hsize : (store.bind name v env).2.agendas.size = store.agendas.size := size_wakeAll ..
  refine ⟨rfl, rfl, ids_bind .., rfl, hsize.ge, fun cx => ?_⟩
  have hfirst : store.Elsewhere cx (store.bind name v env).2 :=
    ⟨by rw [transactions_bind], hsize.ge, fun hs => agenda_bind name v env hs⟩
  exact hfirst.trans (.of_eq rfl rfl)

lemma Binds.regular {x' : Session} (h : x.Binds x')
    (before : Troupe.Regular own x.config.Waiting x.config.toScheduler x.config.world) :
    Troupe.Regular own x'.config.Waiting x'.config.toScheduler x'.config.world := by
  refine Troupe.Regular.schedule (s := x.config.toScheduler) ?_ h.registry
    (congrArg issued h.ids).ge
  exact before.elsewhere (h.exhausted.trans before.alive) (congrArg issued h.store).ge
    ((congrArg issued h.store).le.trans before.ids) le_rfl rfl fun _ d _ => h.others _

/-- A new session holds the services and the top-level actor. -/
lemma Fresh.ofSettings (settings : Settings) (fuel : Nat) : (ofSettings settings fuel).Fresh := by
  have hactors : (Session.ofSettings settings fuel).config.registry.all (fun y =>
      y.1.raw ≤ (Session.ofSettings settings fuel).config.ids.issued &&
        y.2.behavior.program?.all fun a => a.current.isNone && a.backlog.isEmpty) = true := rfl
  refine ⟨fun id e he => ?_, zero_le _, rfl⟩
  have h := all_eq_true.1 hactors _ he
  obtain ⟨name, p⟩ := e
  cases p <;> simp_all [Performer.program?, Performer.Fresh]

lemma Fresh.not_waiting (h : x.Fresh) (id : ActorId) (d : Delivery) : ¬ x.config.Waiting id d := by
  rintro ⟨name, a, ha, hd⟩
  have hnone : a.current = none := (h.actors id _ ha).2.1
  rw [hd] at hnone
  cases hnone

/-- The deliveries that wait in a session are regular. -/
def Regular (x : Session) : Prop :=
  ∃ own, Troupe.Regular own x.config.Waiting x.config.toScheduler x.config.world

namespace Regular

/-- Where nothing was received, no deliveries wait. -/
lemma start (h : x.Fresh) : x.Regular :=
  ⟨fun _ => none, h.alive, h.ids, fun id e he => ⟨(h.actors id e he).1, rfl⟩,
    fun id d hd => absurd hd (h.not_waiting id d), fun id _ d _ hd =>
    absurd hd (h.not_waiting id d)⟩

/-- The host changes the scheduler, short of registering actors, and the heap. -/
lemma host (h : x.Regular) {s : Stage} (heap : Heap)
    (registry : s.registry = x.config.registry) (ids : x.config.ids.issued ≤ s.ids.issued) :
    (x.host s heap).Regular := by
  obtain ⟨own, h⟩ := h
  refine ⟨own, Troupe.Regular.schedule (w := (x.host s heap).config.world)
    (h.elsewhere h.alive le_rfl h.ids le_rfl rfl fun _ _ _ => .of_eq rfl rfl) registry ids⟩

lemma bind (h : x.Regular) (name : String) (v : Value) (env : Env) :
    (x.bind name v env).2.Regular := by
  obtain ⟨own, h⟩ := h
  exact ⟨own, (x.binds name v env).regular h⟩

lemma register (h : x.Regular) {p : Performer} (fresh : p.Fresh) (name : String) :
    (x.register p name).Regular := by
  obtain ⟨own, h⟩ := h
  exact ⟨_, h.create name fresh⟩

/-- The host evaluates an expression. The actors that it creates have new addresses. -/
lemma evaluate (h : x.Regular) (e : Expr)
    (alive : (x.evaluate e).2.config.world.exhausted = false) : (x.evaluate e).2.Regular := by
  obtain ⟨own, h⟩ := h
  obtain ⟨task, s2, effects, store, hev⟩ := x.evaluates e alive
  exact ⟨_, hev.regular h⟩

end Regular

/-- In every session that can be reached, the deliveries that wait are regular. -/
theorem Reachable.regular (h : x.Reachable) : x.Regular := by
  induction h with
  | start fresh => exact .start fresh
  | host _ heap registry ids ih => exact ih.host heap registry ids
  | bind _ name v env ih => exact ih.bind name v env
  | register _ fresh name ih => exact ih.register fresh name
  | evaluate _ e alive ih => exact ih.evaluate e alive
  | dispatch _ alive ih =>
    obtain ⟨own, h⟩ := ih
    exact h.dispatch alive

/-- A message that is accepted is put on the queue. -/
lemma exists_of_send {x x' : Session} {message : Value} {target : ActorId}
    (sent : x.send message target = .ok x') : ∃ s : Stage,
      x.config.toScheduler.send message target = .ok s ∧
      x' = x.host s x.config.world.store.heap := by
  obtain ⟨⟨s, w⟩, global, top, logger⟩ := x
  change (s.send message target).map _ = _ at sent
  cases hs : s.send message target with
  | ok s' =>
    rw [hs] at sent
    cases sent
    exact ⟨s', rfl, rfl⟩
  | error fault =>
    rw [hs] at sent
    cases sent

lemma Reachable.send {x x' : Session} (h : x.Reachable) {message : Value} {target : ActorId}
    (sent : x.send message target = .ok x') : x'.Reachable := by
  obtain ⟨s, hs, rfl⟩ := exists_of_send sent
  obtain ⟨-, rfl⟩ := send_ok hs
  exact .host h _ rfl le_rfl

lemma Reachable.execute {x' : Session} (h : x.Reachable) {stmt : Stmt}
    (handed : x.execute stmt = .ok x') : x'.Reachable :=
  Reachable.send (.host h (x.config.world.store.heap.newBlock ⟨stmt.declared, stmt, x.global⟩).2 rfl
    le_rfl) handed

/-- The points that the run of a program goes through when a session dispatches. -/
inductive Runs (x : Session) (s : Stage) (w : World) (m : Moment) (a : Actor)
    (current : Option Delivery) (backlog : List Value) : Prop where
  /-- The program was resumed. -/
  | resumed {wakeups : Fifo ActorId} {name : String} {a0 : Actor} (now : m.now = x.config.clock.now)
      (wake : x.config.wakeups.pop? = some (m.self, wakeups))
      (found : x.config.find? m.self = some ⟨name, .program a0⟩)
      (point : Actor.Runs m { x.config.toScheduler with wakeups } x.config.world a0 s w a current
        backlog) : Runs x s w m a current backlog
  /-- The program got a message. -/
  | received {message : Value} {queue : Fifo (Envelope Value)} {name : String} {a0 : Actor}
      (now : m.now = x.config.clock.now) (idle : x.config.wakeups.pop? = none)
      (arrives : x.config.queue.pop? = some (⟨m.self, message⟩, queue))
      (found : x.config.find? m.self = some ⟨name, .program a0⟩)
      (point : Actor.Runs m
        { x.config.toScheduler with
          queue
          journal := x.config.journal.record x.config.clock.now (.delivered m.self) }
        x.config.world { a0 with backlog := a0.backlog ++ [message] } s w a current backlog) :
      Runs x s w m a current backlog

namespace Runs

variable {w' : World} {m : Moment} {a a' : Actor} {current current' : Option Delivery}
  {backlog backlog' : List Value}

lemma onward (h : x.Runs s w m a current backlog) (next : ∀ {s0 : Stage} {w0 : World} {a0 : Actor},
      Actor.Runs m s0 w0 a0 s w a current backlog → Actor.Runs m s0 w0 a0 s' w' a'
      current' backlog') :
    x.Runs s' w' m a' current' backlog' := by
  cases h with
  | resumed now wake found point => exact .resumed now wake found (next point)
  | received now idle arrives found point => exact .received now idle arrives found (next point)

/-- Where the run began: a wake-up or a message for the program was taken. -/
lemma begun (h : x.Runs s w m a current backlog) :
    ∃ s0 message name b, x.config.Takes s0 m.self message ∧ s0.find? m.self =
    some ⟨name, .program b⟩ ∧
      Actor.Runs m s0 x.config.world { b with backlog := b.backlog ++ message.toList } s w a current
        backlog := by
  cases h with
  | @resumed wakeups name a0 now wake found point =>
    refine ⟨_, _, _, a0, takes_wakeup wake, found, ?_⟩
    rwa [Option.toList_none, append_nil]
  | received now idle arrives found point =>
    exact ⟨_, _, _, _, takes_message arrives, found, point⟩

/-- At every point of a run in a session, the deliveries are regular. -/
theorem regular (h : x.Runs s w m a current backlog) (reachable : x.Reachable) :
    ∃ own, Troupe.Regular own (s.Beside m.self current) s w := by
  obtain ⟨own, hx⟩ := reachable.regular
  obtain ⟨s0, _, _, _, htakes, hfound, hpoint⟩ := h.begun
  have henter := (hx.schedule htakes.registry (congrArg issued htakes.ids).ge).enter hfound
  exact hpoint.regular henter

end Runs

end Session

end Troupe
