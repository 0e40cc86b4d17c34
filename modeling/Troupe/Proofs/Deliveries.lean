import Troupe.Proofs.Acts
import Troupe.Proofs.Ledger
import Troupe.Session

/-!
The deliveries of a session.

Many deliveries may wait at the same time, one for each actor. They share the store, but each has a
task and a transaction of its own, and addresses of its own: `own` says to which task an address
that is not registered yet belongs. `Regular` states this for the deliveries in `D`. It holds of all
sessions (`Session.Reachable.regular`), and at every point of the run of an actor.

* `Regular.start`, `Regular.advance`, `Regular.settle`: a delivery begins, runs, and is settled.
* `Actor.Runs`: the points that the run of an actor goes through. Deliveries are regular at each of
  them (`Actor.Runs.regular`), and the run ends at one of them (`Actor.Runs.ends_drain`).
-/

namespace Troupe

open Scheduler Script Store

variable {d : Delivery} {own : ActorId → Option Nat} {w : World} {a : Actor}

/-- All addresses that are not handed out yet are taken to belong to `owner`. -/
def handOut (own : ActorId → Option Nat) (ids : IdSource) (owner : Option Nat) :
    ActorId → Option Nat :=
  fun id => if ids.issued < id.raw then owner else own id

/-- The addresses of a task belong to no one any more. -/
def release (own : ActorId → Option Nat) (task : Nat) : ActorId → Option Nat :=
  fun id => if own id = some task then none else own id

lemma handOut_of_le {ids : IdSource} {owner : Option Nat} {id : ActorId} (h : id.raw ≤ ids.issued) :
    handOut own ids owner id = own id :=
  if_neg (Nat.not_lt.2 h)

lemma handOut_of_lt {ids : IdSource} {owner : Option Nat} {id : ActorId} (h : ids.issued < id.raw) :
    handOut own ids owner id = owner :=
  if_pos h

/-- A delivery with a transaction and addresses of its own. -/
structure Delivery.Good (own : ActorId → Option Nat) (d : Delivery) (s : Store) : Prop where
  transaction : d.task.context.transaction = d.transaction
  underway : ∃ log, d.task.Underway s log
  charged : d.task.Charged (fun id => own id = some d.task.context.task) s

namespace Delivery.Good

variable {own' : ActorId → Option Nat} {s s' : Store}

lemma inside (h : d.Good own s) :
    d.task.context.task < s.agendas.size ∧ d.task.context.transaction < s.transactions.size := by
  obtain ⟨_, _, hst, hh⟩ := h.charged
  exact ⟨hst.orderly.size, hh.inside⟩

/-- What happens elsewhere leaves a delivery good. -/
lemma elsewhere (h : d.Good own s) (other : s.Elsewhere d.task.context s')
    (ids : s.ids.issued ≤ s'.ids.issued)
    (same : ∀ id : ActorId, id.raw ≤ s.ids.issued → own id = some d.task.context.task →
      own' id = some d.task.context.task) : d.Good own' s' where
  transaction := h.transaction
  underway := h.underway.imp fun _ hlog => .elsewhere hlog other
  charged := (h.charged.mono same).elsewhere other ids

end Delivery.Good

/-- The deliveries `D` are good and apart from each other; addresses that are registered belong to
no one. -/
structure Regular (own : ActorId → Option Nat) (D : ActorId → Delivery → Prop)
    (s : Stage) (w : World) : Prop where
  alive : w.exhausted = false
  ids : w.store.ids.issued ≤ s.ids.issued
  registered : ∀ id e, (id, e) ∈ s.registry → id.raw ≤ s.ids.issued ∧ own id = none
  good : ∀ id d, D id d → d.Good own w.store
  apart : ∀ id id' d d', D id d → D id' d' → id ≠ id' →
    d.task.context.task ≠ d'.task.context.task ∧ d.transaction ≠ d'.transaction

/-- The deliveries that wait. -/
def Scheduler.Waiting (s : Stage) (id : ActorId) (d : Delivery) : Prop :=
  ∃ name a, (id, ⟨name, .program a⟩) ∈ s.registry ∧ a.current = some d

/-- The deliveries while an actor is run: its own, which may have finished, and those of others. -/
def Scheduler.Beside (s : Stage) (self : ActorId) (current : Option Delivery)
    (id : ActorId) (d : Delivery) : Prop :=
  id = self ∧ current = some d ∨ id ≠ self ∧ s.Waiting id d

/-- Only those who had a delivery before have one after others were registered. -/
lemma Scheduler.Beside.waited {s s' : Stage} {self id : ActorId} (h : s'.Beside self none id d)
    (registry : ∀ x ∈ s'.registry, x ∈ s.registry ∨
      ∃ name a, x.2 = ⟨name, .program a⟩ ∧ a.current = none) : id ≠ self ∧ s.Waiting id d := by
  obtain ⟨_, hd⟩ | ⟨hne, name, a, ha, hd⟩ := h
  · cases hd
  · rcases registry _ ha with hold | ⟨name', a', heq, hnone⟩
    · exact ⟨hne, name, a, hold, hd⟩
    · cases heq
      rw [hnone] at hd
      cases hd

namespace Regular

variable {D D' : ActorId → Delivery → Prop} {s s' : Stage} {w' : World}
  {self : ActorId}

lemma mono (h : Regular own D s w) (hD : ∀ id d, D' id d → D id d) : Regular own D' s w :=
  ⟨h.alive, h.ids, h.registered, fun id d hd => h.good id d (hD id d hd),
    fun id id' d d' hd hd' => h.apart id id' d d' (hD id d hd) (hD id' d' hd')⟩

/-- The delivery of another has a task and a transaction of its own. -/
lemma other (h : Regular own (s.Beside self (some d)) s w) {id : ActorId} {d' : Delivery}
    (hne : id ≠ self) (hd : s.Waiting id d') : d'.task.context.task ≠ d.task.context.task ∧
      d'.task.context.transaction ≠ d.transaction := by
  rw [(h.good id d' (.inr ⟨hne, hd⟩)).transaction]
  exact h.apart id self d' d (.inr ⟨hne, hd⟩) (.inl ⟨rfl, rfl⟩) hne

/-- Something that happens elsewhere, for all deliveries. -/
lemma elsewhere (h : Regular own D s w) (alive : w'.exhausted = false)
    (grows : w.store.ids.issued ≤ w'.store.ids.issued)
    (ids : w'.store.ids.issued ≤ s'.ids.issued) (ids' : s.ids.issued ≤ s'.ids.issued)
    (registry : s'.registry = s.registry)
    (other : ∀ id d, D id d → w.store.Elsewhere d.task.context w'.store) : Regular own D s' w' where
  alive := alive
  ids := ids
  registered id e he := by
    rw [registry] at he
    obtain ⟨h1, h2⟩ := h.registered id e he
    exact ⟨h1.trans ids', h2⟩
  good id d hd := (h.good id d hd).elsewhere (other id d hd) grows fun _ _ hid => hid
  apart := h.apart

lemma start_elsewhere (a : Actor) (moment : Moment) (message : Value) {cx : Context}
    (inside : cx.transaction < w.store.transactions.size) :
    w.store.Elsewhere cx (a.start moment message w).2.store :=
  (Elsewhere.newTransaction w.store inside).trans (.newAgenda _ moment.self false)

/-- A delivery begins with nothing gathered, and nothing else changes. -/
lemma start (h : Regular own (s.Beside self none) s w) (a : Actor) (moment : Moment)
    (message : Value) :
    Regular own (s.Beside self (some (a.start moment message w).1)) s (a.start moment message w).2 ∧
      (a.start moment message w).2.store.heap = w.store.heap ∧
      (a.start moment message w).2.store.transaction (a.start moment message w).1.transaction =
        .gathering {} := by
  obtain ⟨store, output, traces, fuel, exhausted⟩ := w
  set job := Job.deliver a.behavior message moment.self a.exports ⟨a.env, 0⟩ with hjob
  have hstart : a.start moment message ⟨store, output, traces, fuel, exhausted⟩ =
      (⟨message, store.newTransaction.1,
        (Task.spawn store.newTransaction.2 moment.self false store.newTransaction.1 moment.now
          (.start job)).1⟩,
        ⟨(Task.spawn store.newTransaction.2 moment.self false store.newTransaction.1 moment.now
          (.start job)).2, output, traces, fuel, exhausted⟩) := rfl
  rw [hstart]
  have hothers : ∀ id d, id ≠ self → s.Waiting id d →
      d.Good own (Task.spawn store.newTransaction.2 moment.self false store.newTransaction.1
        moment.now (.start job)).2 ∧ d.task.context.task < store.agendas.size ∧
        d.transaction < store.transactions.size := by
    intro id d hne hd
    have hgood := h.good id d (.inr ⟨hne, hd⟩)
    obtain ⟨htask, htx⟩ := hgood.inside
    refine ⟨hgood.elsewhere
      (start_elsewhere (w := ⟨store, output, traces, fuel, exhausted⟩) a moment
      message htx) le_rfl fun _ _ hid => hid, htask, ?_⟩
    rwa [← hgood.transaction]
  refine ⟨⟨h.alive, h.ids, h.registered, ?_, ?_⟩, rfl, ?_⟩
  · rintro id d (⟨rfl, hd⟩ | ⟨hne, hd⟩)
    · cases hd
      exact ⟨rfl, ⟨[], .opened store moment.self false moment.now job⟩,
        Task.charged_spawn store moment.self false moment.now job⟩
    · exact (hothers id d hne hd).1
  · rintro id id' d d' (⟨rfl, hd⟩ | ⟨hne, hd⟩) (⟨rfl, hd'⟩ | ⟨hne', hd'⟩) hids
    · exact absurd rfl hids
    · cases hd
      obtain ⟨_, htask, htx⟩ := hothers id' d' hne' hd'
      exact ⟨(Nat.ne_of_lt htask).symm, (Nat.ne_of_lt htx).symm⟩
    · cases hd'
      obtain ⟨_, htask, htx⟩ := hothers id d hne hd
      exact ⟨Nat.ne_of_lt htask, Nat.ne_of_lt htx⟩
    · exact h.apart id id' d d' (.inr ⟨hne, hd⟩) (.inr ⟨hne', hd'⟩) hids
  · simp [Task.spawn, newTransaction, newAgenda, transaction, Transaction.empty]

lemma advance_elsewhere {d' : Delivery} (run : (d.advance w).run s = ((d', w'), s'))
    (alive : w'.exhausted = false) {cx : Context} (htask : cx.task ≠ d.task.context.task)
    (htx : cx.transaction ≠ d.task.context.transaction) : w.store.Elsewhere cx w'.store := by
  obtain ⟨task, store, hrun, rfl, rfl, rfl⟩ := Delivery.exists_of_run_advance run alive
  obtain ⟨log, hpoll⟩ := Task.poll_of_advance hrun
  have hpre : w.store.Elsewhere cx { w.store with ids := ⟨s.ids.issued⟩ } := .of_eq rfl rfl
  have hpost : store.Elsewhere cx { store with wakeups := #[] } := .of_eq rfl rfl
  exact (hpre.trans (hpoll.within.elsewhere _ htask htx)).trans hpost

/-- A delivery runs. The addresses handed out meanwhile are its own. -/
lemma advance (h : Regular own (s.Beside self (some d)) s w) {d' : Delivery}
    (run : (d.advance w).run s = ((d', w'), s')) (alive : w'.exhausted = false) :
    Regular (handOut own s.ids (some d.task.context.task)) (s'.Beside self (some d')) s' w' := by
  have hothers : ∀ cx : Context, cx.task ≠ d.task.context.task →
      cx.transaction ≠ d.task.context.transaction → w.store.Elsewhere cx w'.store :=
    fun _ => advance_elsewhere run alive
  obtain ⟨task, store, hrun, rfl, rfl, rfl⟩ := Delivery.exists_of_run_advance run alive
  set s0 : Store := { w.store with ids := ⟨s.ids.issued⟩ } with hs0
  have hgood := h.good self d (.inl ⟨rfl, rfl⟩)
  obtain ⟨log, hpoll⟩ := Task.poll_of_advance hrun
  have hcontext : task.context = d.task.context := hpoll.context
  have hwithin := hpoll.within
  have hissued : s.ids.issued ≤ store.ids.issued := hwithin.ids
  set own' := handOut own s.ids (some d.task.context.task)
  have hold : ∀ {k : Nat} {id : ActorId}, id.raw ≤ s.ids.issued → own id = some k →
      own' id = some k := fun hle hid => (handOut_of_le hle).trans hid
  have hnew : ∀ id : ActorId, s0.ids.issued < id.raw → own' id = some d.task.context.task :=
    fun id hid => handOut_of_lt hid
  have hbefore : w.store.Elsewhere d.task.context s0 := .of_eq rfl rfl
  have hafter : store.Elsewhere task.context { store with wakeups := #[] } := .of_eq rfl rfl
  refine ⟨h.alive, ?_, ?_, ?_, ?_⟩
  · change store.ids.issued ≤ s.ids.issued + (store.ids.issued - s.ids.issued)
    omega
  · intro id e he
    obtain ⟨h1, h2⟩ := h.registered id e he
    exact ⟨Nat.le_trans h1 (Nat.le_add_right _ _), (handOut_of_le h1).trans h2⟩
  · rintro id d' (⟨rfl, hd⟩ | ⟨hne, hd⟩)
    · cases hd
      refine ⟨(congrArg Context.transaction hcontext).trans hgood.transaction, ?_, ?_⟩
      · obtain ⟨log0, hlog0⟩ := hgood.underway
        exact ⟨log0 ++ log, .elsewhere (.polled (.elsewhere hlog0 hbefore) hpoll) hafter⟩
      · have hcharged : task.Charged (fun id => own' id = some d.task.context.task) store :=
          ((hgood.charged.mono fun id hle => hold (hle.trans h.ids)).elsewhere hbefore h.ids).poll
            hnew hrun
        have hsame := hcharged.elsewhere hafter le_rfl
        rw [← hcontext] at hsame
        exact hsame
    · obtain ⟨htask, htx⟩ := h.other hne hd
      rw [← hgood.transaction] at htx
      exact (h.good id d' (.inr ⟨hne, hd⟩)).elsewhere (hothers _ htask htx) (h.ids.trans hissued)
        fun id hle => hold (hle.trans h.ids)
  · rintro id id' d1 d2 (⟨rfl, hd⟩ | ⟨hne, hd⟩) (⟨rfl, hd'⟩ | ⟨hne', hd'⟩) hids
    · exact absurd rfl hids
    · cases hd
      have hapart := h.apart id id' d d2 (.inl ⟨rfl, rfl⟩) (.inr ⟨hne', hd'⟩) hids
      exact ⟨by rw [hcontext]; exact hapart.1, hapart.2⟩
    · cases hd'
      have hapart := h.apart id id' d1 d (.inr ⟨hne, hd⟩) (.inl ⟨rfl, rfl⟩) hids
      exact ⟨by rw [hcontext]; exact hapart.1, hapart.2⟩
    · exact h.apart id id' d1 d2 (.inr ⟨hne, hd⟩) (.inr ⟨hne', hd'⟩) hids

/-- What settling a delivery does to the store, as seen by the others. -/
lemma elsewhere_aftermath {other : Context} {store : Store} {α : Type}
    (f : Transaction → α × Transaction) (defines : List (String × Value)) (env : Env)
    (htask : other.task ≠ d.task.context.task) (htx : other.transaction ≠ d.transaction)
    (same : d.task.context.transaction = d.transaction) :
    store.Elsewhere other { (Actor.setDefinitions env defines
      (store.onTransaction d.transaction f).2).close d.task.context.task with wakeups := #[] } := by
  have hdefine : ∀ s : Store, s.Elsewhere other (Actor.setDefinitions env defines s) := fun s => by
    obtain ⟨dicts, hdicts⟩ := Actor.setDefinitions_frame env defines s
    rw [hdicts]
    exact .of_eq rfl rfl
  have hwithin : Within d.task.context
      (Actor.setDefinitions env defines (store.onTransaction d.transaction f).2) _ := .close _
  have hclose := hwithin.elsewhere other htask (by rwa [same])
  exact (((Elsewhere.onTransaction store f (Ne.symm htx)).trans (hdefine _)).trans
    hclose).trans (.of_eq rfl rfl)

/-- After a delivery was settled: those who are registered newly have taken addresses of its own. -/
lemma settled (h : Regular own (s.Beside self (some d)) s w) {store : Store}
    (ids : s'.ids = s.ids) (ids' : store.ids = w.store.ids)
    (registry : ∀ x ∈ s'.registry, x ∈ s.registry ∨ ∃ name a, x.2 = ⟨name, .program a⟩ ∧
      a.current = none ∧ own x.1 = some d.task.context.task ∧ x.1.raw ≤ s.ids.issued)
    (other : ∀ cx : Context, cx.task ≠ d.task.context.task → cx.transaction ≠ d.transaction →
      w.store.Elsewhere cx store) :
    Regular (release own d.task.context.task) (s'.Beside self none) s' { w with store } := by
  have hwaited : ∀ id d', s'.Beside self none id d' → id ≠ self ∧ s.Waiting id d' := fun id d' hd =>
    hd.waited fun x hx => (registry x hx).imp_right fun ⟨name, a, heq, hnone, _⟩ =>
    ⟨name, a, heq, hnone⟩
  refine ⟨h.alive, ?_, ?_, ?_, ?_⟩
  · rw [ids]
    change store.ids.issued ≤ _
    rw [ids']
    exact h.ids
  · intro id e he
    rw [ids]
    rcases registry _ he with hold | ⟨_, _, _, _, hown, hle⟩
    · obtain ⟨h1, h2⟩ := h.registered id e hold
      refine ⟨h1, ?_⟩
      rw [release, h2]
      rfl
    · exact ⟨hle, if_pos hown⟩
  · intro id d' hd
    obtain ⟨hne, hwaiting⟩ := hwaited id d' hd
    obtain ⟨htask, htx⟩ := h.other hne hwaiting
    refine (h.good id d' (.inr ⟨hne, hwaiting⟩)).elsewhere (other _ htask htx) (by rw [ids'])
      fun id _ hid => ?_
    rw [release, if_neg, hid]
    rw [hid]
    exact fun heq => htask (Option.some.inj heq)
  · exact fun id id' d1 d2 hd hd' =>
      h.apart id id' d1 d2 (.inr (hwaited id d1 hd)) (.inr (hwaited id' d2 hd'))

/-- What settling a delivery does, as seen by the others: who is registered newly was staged. -/
lemma settle_frame {a' : Actor} {outcome : Outcome}
    (same : d.task.context.transaction = d.transaction)
    (run : (a.settle self d outcome w).run s = ((a', w'), s')) :
    ∃ store, w' = { w with store } ∧ s'.ids = s.ids ∧ store.ids = w.store.ids ∧
      (∀ x ∈ s'.registry, x ∈ s.registry ∨ ∃ e, w.store.transaction d.transaction = .gathering e ∧
        ∃ b ∈ e.created.toList, x = StagedActor.entry a.logger b) ∧
      ∀ cx : Context, cx.task ≠ d.task.context.task → cx.transaction ≠ d.transaction →
        w.store.Elsewhere cx store := by
  obtain ⟨f, e, mail, next, wakeups, hstaged, -, -, hrun⟩ := a.exists_settlement self d outcome w s
  rw [hrun] at run
  cases run
  obtain ⟨hregistry, _, hids, _⟩ := postAll_frame mail (e.created.toList.foldl (seat a.logger) s)
  obtain ⟨_, _, _, _, hids', _⟩ := seatAll_frame a.logger e.created.toList s
  obtain ⟨dicts, hdefines⟩ := Actor.setDefinitions_frame a.env e.defines.toList
    (w.store.onTransaction d.transaction f).2
  refine ⟨_, rfl, hids.trans hids', (close_frame ..).2.1.trans
    (by rw [hdefines]; rfl), fun x hx => ?_,
    fun cx htask htx => elsewhere_aftermath f e.defines.toList a.env htask htx same⟩
  rcases mem_registry_seatAll a.logger (hregistry ▸ hx) with hx | ⟨b, hb, heq⟩
  · exact .inl hx
  · refine .inr ⟨e, hstaged.resolve_left ?_, b, hb, heq⟩
    rintro rfl
    cases hb

lemma settle (h : Regular own (s.Beside self (some d)) s w) {a' : Actor} {outcome : Outcome}
    (run : (a.settle self d outcome w).run s = ((a', w'), s')) :
    Regular (release own d.task.context.task) (s'.Beside self none) s' w' := by
  have hgood := h.good self d (.inl ⟨rfl, rfl⟩)
  obtain ⟨store, rfl, hids, hids', hregistry, hother⟩ := settle_frame hgood.transaction run
  refine h.settled hids hids' (fun x hx => (hregistry x hx).imp id ?_) hother
  rintro ⟨e, he, b, hb, rfl⟩
  rw [← hgood.transaction] at he
  obtain ⟨hown, hle⟩ := (hgood.charged.staged he).2 b hb
  exact ⟨_, _, rfl, rfl, hown, hle.trans h.ids⟩

end Regular

/-! ### The run of an actor -/

/-- A world whose store was given up stays so. -/
lemma Delivery.exhausted_advance (h : w.exhausted = true) (s : Stage) :
    ((d.advance w).run s).1.2.exhausted = true := by
  cases hrun : d.task.advance w.fuel { w.store with ids := ⟨s.ids.issued⟩ } with
  | none => rw [run_advance_none hrun]
  | some r =>
    obtain ⟨task, store⟩ := r
    rwa [run_advance hrun]

namespace Actor

variable {moment : Moment}

/-- Settling changes neither the messages behind a delivery nor whether the store was given up. -/
lemma settle_keeps (a : Actor) (self : ActorId) (d : Delivery) (outcome : Outcome) (w : World)
    (s : Stage) :
    ((a.settle self d outcome w).run s).1.1.backlog = a.backlog ∧
      ((a.settle self d outcome w).run s).1.2.exhausted = w.exhausted := by
  obtain ⟨_, _, _, next, _, -, hnext, -, hrun⟩ := a.exists_settlement self d outcome w s
  rw [hrun]
  refine ⟨?_, rfl⟩
  rcases hnext with rfl | rfl
  · rfl
  · cases outcome <;> rfl

lemma exhausted_serve (messages : List Value) (h : w.exhausted = true) (s : Stage) :
    ((serve moment messages a w).run s).1.2.exhausted = true := by
  induction messages generalizing a w s with
  | nil => exact h
  | cons message messages ih =>
    have hstart : (a.start moment message w).2.exhausted = true := h
    have hadvance := Delivery.exhausted_advance (d := (a.start moment message w).1) hstart s
    rw [serve, run_bind]
    generalize ((a.start moment message w).1.advance (a.start moment message w).2).run s = r
      at hadvance ⊢
    obtain ⟨⟨d, w1⟩, s1⟩ := r
    dsimp only at hadvance ⊢
    cases d.task.answer? with
    | none => exact hadvance
    | some outcome =>
      dsimp only
      rw [run_bind]
      exact ih ((settle_keeps ..).2.trans hadvance) _

/-- The points that the run of an actor goes through: the scheduler, the world, the actor, its
delivery and the messages behind it. -/
inductive Runs (m : Moment) (s0 : Stage) (w0 : World) (a0 : Actor) :
    Stage → World → Actor → Option Delivery → List Value → Prop where
  | begun : Runs m s0 w0 a0 s0 w0 a0 a0.current a0.backlog
  /-- The delivery of the next message begins. -/
  | started {s : Stage} {w : World} {a : Actor} {message : Value}
      {backlog : List Value} (before : Runs m s0 w0 a0 s w a none (message :: backlog)) :
      Runs m s0 w0 a0 s (a.start m message w).2 a (some (a.start m message w).1) backlog
  /-- The delivery runs until it has finished or waits. -/
  | advanced {s s' : Stage} {w w' : World} {a : Actor} {d d' : Delivery}
      {backlog : List Value} (before : Runs m s0 w0 a0 s w a (some d) backlog)
      (run : (d.advance w).run s = ((d', w'), s')) (alive : w'.exhausted = false) :
      Runs m s0 w0 a0 s' w' a (some d') backlog
  /-- The delivery has finished and is settled. -/
  | settled {s s' : Stage} {w w' : World} {a a' : Actor} {d : Delivery}
      {outcome : Outcome} {backlog : List Value}
      (before : Runs m s0 w0 a0 s w a (some d) backlog) (answer : d.task.answer? = some outcome)
      (run : (a.settle m.self d outcome w).run s = ((a', w'), s')) :
      Runs m s0 w0 a0 s' w' a' none backlog

namespace Runs

variable {m : Moment} {s0 s : Stage} {w0 : World} {a0 : Actor}
  {current : Option Delivery} {backlog : List Value}

/-- At every point of a run, the deliveries are regular. -/
theorem regular (h : Runs m s0 w0 a0 s w a current backlog)
    (start : Regular own (s0.Beside m.self a0.current) s0 w0) :
    ∃ own', Regular own' (s.Beside m.self current) s w := by
  induction h with
  | begun => exact ⟨own, start⟩
  | started _ ih =>
    obtain ⟨own', h⟩ := ih
    exact ⟨own', (h.start ..).1⟩
  | advanced _ run alive ih =>
    obtain ⟨own', h⟩ := ih
    exact ⟨_, h.advance run alive⟩
  | settled _ _ run ih =>
    obtain ⟨own', h⟩ := ih
    exact ⟨_, h.settle run⟩

lemma advance (h : Runs m s0 w0 a0 s w a (some d) backlog)
    (alive : ((d.advance w).run s).1.2.exhausted = false) :
    Runs m s0 w0 a0 ((d.advance w).run s).2 ((d.advance w).run s).1.2 a
      (some ((d.advance w).run s).1.1) backlog :=
  .advanced h rfl alive

/-- The last point of a run: no message is left, or the delivery was run and has to wait. -/
def Last (m : Moment) (s0 : Stage) (w0 : World) (a0 : Actor)
    (s' : Stage) (w' : World) (a : Actor) (current : Option Delivery)
    (backlog : List Value) : Prop :=
  current = none ∧ backlog = [] ∨
    ∃ s w d d', Runs m s0 w0 a0 s w a (some d) backlog ∧ (d.advance w).run s = ((d', w'), s') ∧
      d'.task.answer? = none ∧ current = some d'

/-- A run ends at one of its points, unless the store was given up. -/
def Ends (m : Moment) (s0 : Stage) (w0 : World) (a0 : Actor)
    (r : (Actor × World) × Stage) : Prop :=
  r.1.2.exhausted = false → ∃ a current backlog, Runs m s0 w0 a0 r.2 r.1.2 a current backlog ∧
    r.1.1 = { a with current, backlog } ∧ Last m s0 w0 a0 r.2 r.1.2 a current backlog

/-- A delivery is run and, if it has finished, settled; then messages are served. -/
lemma ends_advance (messages : Actor → List Value)
    (behind : ∀ b : Actor, b.backlog = a.backlog → messages b = backlog)
    (served : ∀ {s : Stage} {w : World} {a : Actor},
      Runs m s0 w0 a0 s w a none backlog → Ends m s0 w0 a0 ((serve m backlog a w).run s))
    (h : Runs m s0 w0 a0 s w a (some d) backlog) : Ends m s0 w0 a0 (((d.advance w).bind fun x =>
      match x.1.task.answer? with
      | none => .done ({ a with current := some x.1, backlog }, x.2)
      | some outcome => (a.settle m.self x.1 outcome x.2).bind fun y =>
          serve m (messages y.1) y.1 y.2).run s) := by
  rw [run_bind]
  cases hrun : (d.advance w).run s with
  | mk r s1 =>
    obtain ⟨d', w1⟩ := r
    dsimp only
    cases hanswer : d'.task.answer? with
    | none =>
      exact fun alive => ⟨a, some d', backlog, h.advanced hrun alive, rfl,
        .inr ⟨s, w, d, d', h, hrun, hanswer, rfl⟩⟩
    | some outcome =>
      dsimp only
      rw [run_bind]
      obtain ⟨hbacklog, hexhausted⟩ := settle_keeps a m.self d' outcome w1 s1
      cases hsettle : (a.settle m.self d' outcome w1).run s1 with
      | mk r s2 =>
        obtain ⟨a', w2⟩ := r
        rw [hsettle] at hbacklog hexhausted
        dsimp only at hbacklog hexhausted ⊢
        rw [behind a' hbacklog]
        intro alive
        cases hw1 : w1.exhausted with
        | true =>
          rw [exhausted_serve backlog (hexhausted.trans hw1) s2] at alive
          cases alive
        | false => exact served ((h.advanced hrun hw1).settled hanswer hsettle) alive

/-- Serving messages goes through the points of a run. -/
lemma ends_serve (messages : List Value) :
    ∀ {s : Stage} {w : World} {a : Actor},
      Runs m s0 w0 a0 s w a none messages → Ends m s0 w0 a0 ((serve m messages a w).run s) := by
  induction messages with
  | nil => exact fun h _ => ⟨_, none, [], h, rfl, .inl ⟨rfl, rfl⟩⟩
  | cons message messages ih =>
    intro s w a h
    rw [serve]
    exact ends_advance (fun _ => messages) (fun _ _ => rfl) ih h.started

/-- A run ends at one of its points. -/
theorem ends_drain (m : Moment) (s0 : Stage) (w0 : World) (a0 : Actor) :
    Ends m s0 w0 a0 ((a0.drain m w0).run s0) := by
  have h : Runs m s0 w0 a0 s0 w0 a0 a0.current a0.backlog := .begun
  unfold drain
  cases hcurrent : a0.current with
  | none =>
    rw [hcurrent] at h
    exact ends_serve _ h
  | some d =>
    rw [hcurrent] at h
    exact ends_advance (·.backlog) (fun _ hb => hb) (ends_serve _) h

end Runs

end Actor

end Troupe
