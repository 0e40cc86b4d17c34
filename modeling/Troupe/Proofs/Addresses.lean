import Troupe.Proofs.Freshness
import Troupe.Proofs.Staging
import Troupe.Proofs.TameResponses

/-!
Addresses in a session.

All deliveries, and all evaluations from outside, take their addresses from one counter, long before
actors are registered under them. A `Staging` says which task has staged an actor under which
address, and a session is kept together with all stagings so far (`Session.Ledger`). No address is
ever staged by two tasks, and none is registered as long as its delivery is under way (`Booked`).

* `Session.Reachable.ledger`: every session that can be reached has its stagings.
* `Session.Ledger.books`, `Session.Stages.booked`: the books are kept, in sessions and at every
  point of the run of a program.
-/

namespace Troupe

open IdSource List Nat Option Regular Request Scheduler Store Transaction Troupe.Configuration

variable {s : Stage} {w : World} {log : List Request} {a : Actor}

/-- A task has staged an actor under an address. -/
structure Staging where
  task : Nat
  id : ActorId

/-- What a task has staged, by its log. -/
def Request.stagings (task : Nat) (log : List Request) : List Staging :=
  (log.filterMap created?).map fun a => ⟨task, a.id⟩

lemma mem_stagings {task : Nat} {x : Staging} :
    x ∈ stagings task log ↔ x.task = task ∧ x.id ∈ stages log := by
  obtain ⟨t, id⟩ := x
  simp only [stagings, stages, List.mem_map, Staging.mk.injEq, Multiset.mem_coe]
  constructor
  · rintro ⟨a, ha, rfl, rfl⟩
    exact ⟨rfl, a, ha, rfl⟩
  · rintro ⟨rfl, a, ha, rfl⟩
    exact ⟨a, ha, rfl, rfl⟩

/-! ### The books -/

/-- The deliveries `D` are regular, and all that they have reserved is their own. What was staged so
far belongs to the task that has staged it as long as its delivery is under way, and to no one else
afterwards. -/
structure Booked (own : ActorId → Option Nat) (D : ActorId → Delivery → Prop)
    (s : Stage) (w : World) (r : List Staging) : Prop where
  regular : Regular own D s w
  thrifty : ∀ id d, D id d →
    d.task.Thrifty (fun id => own id = some d.task.context.task) w.store
  known : ∀ x ∈ r, x.id.raw ≤ s.ids.issued ∧ x.task < w.store.agendas.size
  underway : ∀ id d, D id d → ∀ x ∈ r, x.task = d.task.context.task →
    own x.id = some d.task.context.task
  owned : ∀ x ∈ r, own x.id = some x.task ∨ own x.id = none
  unique : ∀ x ∈ r, ∀ y ∈ r, x.id = y.id → x.task = y.task

namespace Booked

variable {own own' : ActorId → Option Nat} {D D' : ActorId → Delivery → Prop}
  {s' : Stage} {w' : World} {r : List Staging} {self : ActorId} {d : Delivery}

/-- A step that stages nothing. Deliveries go on or end, and then their addresses belong to no one;
if one begins or runs, what it has reserved is its own. -/
lemma next (h : Booked own D s w r) (regular : Regular own' D' s' w')
    (ids : s.ids.issued ≤ s'.ids.issued) (ids' : w.store.ids.issued ≤ w'.store.ids.issued)
    (size : w.store.agendas.size ≤ w'.store.agendas.size)
    (lapses : ∀ id : ActorId, id.raw ≤ s.ids.issued → own' id = own id ∨
      own' id = none ∧ ∀ i d, D' i d → own id ≠ some d.task.context.task)
    (stays : ∀ id d, D' id d → D id d ∧ w.store.Elsewhere d.task.context w'.store ∨
      d.task.Thrifty (fun id => own' id = some d.task.context.task) w'.store ∧
        ∀ x ∈ r, x.task = d.task.context.task → own' x.id = some d.task.context.task) :
    Booked own' D' s' w' r := by
  have hkeeps : ∀ {i d} {id : ActorId}, D' i d → id.raw ≤ s.ids.issued →
      own id = some d.task.context.task → own' id = some d.task.context.task := by
    intro i d id hd hle hid
    rcases lapses id hle with hsame | ⟨_, hother⟩
    · rw [hsame, hid]
    · exact absurd hid (hother i d hd)
  refine ⟨regular, fun id d hd => ?_, fun x hx => ?_, fun id d hd x hx ht => ?_, fun x hx => ?_,
    h.unique⟩
  · rcases stays id d hd with ⟨hold, hother⟩ | ⟨hnew, _⟩
    · exact (h.thrifty id d hold).elsewhere hother ids' fun id' hle hid =>
        hkeeps hd (hle.trans h.regular.ids) hid
    · exact hnew
  · obtain ⟨h1, h2⟩ := h.known x hx
    exact ⟨h1.trans ids, lt_of_lt_of_le h2 size⟩
  · rcases stays id d hd with ⟨hold, _⟩ | ⟨_, hnew⟩
    · exact hkeeps hd (h.known x hx).1 (h.underway id d hold x hx ht)
    · exact hnew x hx ht
  · rcases lapses x.id (h.known x hx).1 with hsame | ⟨hnone, _⟩
    · rw [hsame]
      exact h.owned x hx
    · exact .inr hnone

/-- A task has staged something: addresses of its own, or of no one if they are new. -/
lemma record (h : Booked own D s w r) {task : Nat} (size : task < w.store.agendas.size)
    (issued : ∀ id ∈ stages log, id.raw ≤ s.ids.issued)
    (owned : ∀ id ∈ stages log, own id = some task ∨
      own id = none ∧ (∀ x ∈ r, x.id ≠ id) ∧ ∀ i d, D i d → d.task.context.task ≠ task) :
    Booked own D s w (r ++ stagings task log) := by
  -- an address that was staged before was staged by the same task
  have hsame : ∀ x ∈ r, ∀ y ∈ stagings task log, x.id = y.id → x.task = y.task := by
    intro x hx y hy heq
    obtain ⟨ht, hid⟩ := mem_stagings.1 hy
    rcases owned y.id hid with hown | ⟨_, hnew, _⟩
    · have hx' := h.owned x hx
      rw [heq, hown] at hx'
      rcases hx' with hx' | hx'
      · rw [ht]
        exact (some.inj hx').symm
      · cases hx'
    · exact absurd heq (hnew x hx)
  refine ⟨h.regular, h.thrifty, fun x hx => ?_, fun id d hd x hx ht => ?_, fun x hx => ?_,
    fun x hx y hy heq => ?_⟩
  · rcases mem_append.1 hx with hx | hx
    · exact h.known x hx
    · obtain ⟨ht, hid⟩ := mem_stagings.1 hx
      exact ⟨issued x.id hid, ht ▸ size⟩
  · rcases mem_append.1 hx with hx | hx
    · exact h.underway id d hd x hx ht
    · obtain ⟨ht', hid⟩ := mem_stagings.1 hx
      rcases owned x.id hid with hown | ⟨_, _, hnot⟩
      · rw [hown, ← ht, ht']
      · exact absurd (ht.symm.trans ht') (hnot id d hd)
  · rcases mem_append.1 hx with hx | hx
    · exact h.owned x hx
    · obtain ⟨ht, hid⟩ := mem_stagings.1 hx
      rw [ht]
      exact (owned x.id hid).imp id And.left
  · rcases mem_append.1 hx with hx | hx <;> rcases mem_append.1 hy with hy | hy
    · exact h.unique x hx y hy heq
    · exact hsame x hx y hy heq
    · exact (hsame y hy x hx heq.symm).symm
    · exact (mem_stagings.1 hx).1.trans (mem_stagings.1 hy).1.symm

lemma start (h : Booked own (s.Beside self none) s w r) (a : Actor) (moment : Moment)
    (message : Value) :
    Booked own (s.Beside self (some (a.start moment message w).1)) s
    (a.start moment message w).2 r := by
  have hsize : w.store.agendas.size ≤ (a.start moment message w).2.store.agendas.size :=
    le_of_lt ((Array.size_push ..).symm ▸ lt_succ_self _)
  refine h.next (h.regular.start a moment message).1 le_rfl le_rfl hsize (fun _ _ => .inl rfl) ?_
  rintro id d (⟨_, hd⟩ | hother)
  · cases hd
    refine .inr ⟨Task.thrifty_spawn .., fun x hx ht => ?_⟩
    exact absurd (h.known x hx).2 (ht ▸ lt_irrefl _)
  · exact .inl ⟨.inr hother,
      start_elsewhere a moment message (h.regular.good id d (.inr hother)).inside.2⟩

/-- A delivery runs, and what it stages is its own. -/
lemma advance (h : Booked own (s.Beside self (some d)) s w r) {d' : Delivery} {store : Store}
    (run : (d.advance w).run s = ((d', w'), s')) (alive : w'.exhausted = false)
    (polled : d.task.Poll { w.store with ids := ⟨s.ids.issued⟩ } log d'.task store)
    (after : w'.store = { store with wakeups := #[] }) :
    Booked (handOut own s.ids (some d.task.context.task)) (s'.Beside self (some d')) s' w'
      (r ++ stagings d.task.context.task log) := by
  have hmine : s.Beside self (some d) self d := .inl ⟨rfl, rfl⟩
  have hgood := h.regular.good self d hmine
  have hregular := h.regular.advance run alive
  have hbefore : w.store.Elsewhere d.task.context { w.store with ids := ⟨s.ids.issued⟩ } :=
    .of_eq rfl rfl
  have hmain : d.task.Thrifty (fun id =>
      handOut own s.ids (some d.task.context.task) id = some d.task.context.task)
      { w.store with ids := ⟨s.ids.issued⟩ } :=
    (h.thrifty self d hmine).elsewhere hbefore h.regular.ids fun id hle hid =>
      (handOut_of_le (hle.trans h.regular.ids)).trans hid
  obtain ⟨hlog, hthrifty⟩ := polled.owned hmain fun id hid => handOut_of_lt hid
  have hstore : store.ids.issued ≤ s'.ids.issued := by
    have hle := hregular.ids
    rw [after] at hle
    exact hle
  have hids : s.ids.issued ≤ s'.ids.issued := polled.within.ids.trans hstore
  have hids' : w.store.ids.issued ≤ w'.store.ids.issued := by
    rw [after]
    exact h.regular.ids.trans polled.within.ids
  have hcontext : d'.task.context = d.task.context := polled.context
  -- any other task sees that no agenda goes away
  have hother : w.store.Elsewhere { d.task.context with
      task := d.task.context.task + 1
      transaction := d.task.context.transaction + 1 } w'.store :=
    advance_elsewhere run alive (succ_ne_self _) (succ_ne_self _)
  have hsize : w.store.agendas.size ≤ w'.store.agendas.size := hother.size
  refine Booked.record
    (h.next hregular hids hids' hsize (fun id hle => .inl (handOut_of_le hle)) ?_)
    (lt_of_lt_of_le hgood.inside.1 hsize) (fun id hid => (hlog id hid).2.trans hstore)
    fun id hid => .inl (hlog id hid).1
  rintro id d1 (⟨_, hd⟩ | ⟨hne, hd⟩)
  · cases hd
    have hafter : store.Elsewhere d'.task.context w'.store := .of_eq (by rw [after]) (by rw [after])
    have hlast := hthrifty.elsewhere hafter (by rw [after]) fun _ _ hid => hid
    refine .inr ⟨by rwa [hcontext], fun x hx ht => ?_⟩
    rw [hcontext] at ht ⊢
    rw [handOut_of_le (h.known x hx).1]
    exact h.underway self d hmine x hx ht
  · have hwaits : s.Waiting id d1 := by
      obtain ⟨_, _, _, rfl, rfl, rfl⟩ := Delivery.exists_of_run_advance run alive
      exact hd
    obtain ⟨htask, htx⟩ := h.regular.other hne hwaits
    rw [← hgood.transaction] at htx
    exact .inl ⟨.inr ⟨hne, hwaits⟩, advance_elsewhere run alive htask htx⟩

/-- A delivery is settled. Its addresses belong to no one any more. -/
lemma settle (h : Booked own (s.Beside self (some d)) s w r) {a' : Actor} {outcome : Outcome}
    (run : (a.settle self d outcome w).run s = ((a', w'), s')) :
    Booked (release own d.task.context.task) (s'.Beside self none) s' w' r := by
  have hgood := h.regular.good self d (.inl ⟨rfl, rfl⟩)
  have hregular := h.regular.settle run
  obtain ⟨store, rfl, hids, hids', hregistry, hother⟩ := settle_frame hgood.transaction run
  have hstays : ∀ id d1, s'.Beside self none id d1 → id ≠ self ∧ s.Waiting id d1 := fun id d1 hd =>
    hd.waited fun x hx => (hregistry x hx).imp_right fun ⟨_, _, _, _, heq⟩ => heq ▸ ⟨_, _, rfl, rfl⟩
  have hsize : w.store.agendas.size ≤ store.agendas.size :=
    (hother { d.task.context with
        task := d.task.context.task + 1
        transaction := d.transaction + 1 } (succ_ne_self _) (succ_ne_self _)).size
  refine h.next hregular (by rw [hids]) (by rw [hids']) hsize (fun id _ => ?_) fun id d1 hd => ?_
  · by_cases hid : own id = some d.task.context.task
    · refine .inr ⟨if_pos hid, fun i d1 hd heq => ?_⟩
      obtain ⟨hne, hd⟩ := hstays i d1 hd
      exact (h.regular.other hne hd).1 (some.inj (heq.symm.trans hid))
    · exact .inl (if_neg hid)
  · obtain ⟨hne, hd⟩ := hstays id d1 hd
    obtain ⟨htask, htx⟩ := h.regular.other hne hd
    exact .inl ⟨.inr ⟨hne, hd⟩, hother _ htask htx⟩

/-- Other changes, which concern no delivery. -/
lemma keep (h : Booked own D s w r) (regular : Regular own D' s' w')
    (ids : s.ids.issued ≤ s'.ids.issued) (ids' : w.store.ids.issued ≤ w'.store.ids.issued)
    (size : w.store.agendas.size ≤ w'.store.agendas.size)
    (stays : ∀ id d, D' id d → D id d ∧ w.store.Elsewhere d.task.context w'.store) :
    Booked own D' s' w' r :=
  h.next regular ids ids' size (fun _ _ => .inl rfl) fun id d hd => .inl (stays id d hd)

lemma create (h : Booked own s.Waiting s w r) {p : Performer} (name : String) (fresh : p.Fresh) :
    Booked (handOut own s.ids none) (s.create p name).2.Waiting (s.create p name).2 w r := by
  obtain ⟨_, hregistry⟩ := create_fresh (s := s)
    (fun id e he => (h.regular.registered id e he).1) p name
  refine h.next (h.regular.create name fresh) (le_succ _) le_rfl le_rfl
    (fun id hle => .inl (handOut_of_le hle)) ?_
  rintro id d ⟨name', a, ha, hd⟩
  rw [hregistry, mem_append, mem_singleton] at ha
  rcases ha with ha | heq
  · exact .inl ⟨⟨name', a, ha, hd⟩, .refl _⟩
  · cases heq
    rw [fresh.1] at hd
    cases hd

end Booked

/-! ### The run of an actor -/

namespace Actor

/-- The points that the run of an actor goes through, with all stagings so far. -/
inductive Stages (m : Moment) (s0 : Stage) (w0 : World) (a0 : Actor)
    (r0 : List Staging) : Stage → World → Actor → Option Delivery → List Value →
      List Staging → Prop where
  | begun : Stages m s0 w0 a0 r0 s0 w0 a0 a0.current a0.backlog r0
  | started {s : Stage} {w : World} {a : Actor} {message : Value}
      {backlog : List Value} {r : List Staging}
      (before : Stages m s0 w0 a0 r0 s w a none (message :: backlog) r) :
      Stages m s0 w0 a0 r0 s (a.start m message w).2 a (some (a.start m message w).1) backlog r
  /-- The delivery runs, with what its task asks for meanwhile. -/
  | advanced {s s' : Stage} {w w' : World} {a : Actor} {d d' : Delivery}
      {backlog : List Value} {r : List Staging} {log : List Request} {store : Store}
      (before : Stages m s0 w0 a0 r0 s w a (some d) backlog r)
      (run : (d.advance w).run s = ((d', w'), s')) (alive : w'.exhausted = false)
      (polled : d.task.Poll { w.store with ids := ⟨s.ids.issued⟩ } log d'.task store)
      (after : w'.store = { store with wakeups := #[] }) :
      Stages m s0 w0 a0 r0 s' w' a (some d') backlog
        (r ++ Request.stagings d.task.context.task log)
  | settled {s s' : Stage} {w w' : World} {a a' : Actor} {d : Delivery}
      {outcome : Outcome} {backlog : List Value} {r : List Staging}
      (before : Stages m s0 w0 a0 r0 s w a (some d) backlog r)
      (answer : d.task.answer? = some outcome)
      (run : (a.settle m.self d outcome w).run s = ((a', w'), s')) :
      Stages m s0 w0 a0 r0 s' w' a' none backlog r

variable {m : Moment} {s0 : Stage} {w0 : World} {a0 : Actor}
  {r0 r : List Staging} {current : Option Delivery} {backlog : List Value}

/-- The first run of a delivery. -/
def outset (a : Actor) (m : Moment) (message : Value) (w : World) (s : Stage) :
    (Delivery × World) × Stage :=
  ((a.start m message w).1.advance (a.start m message w).2).run s

/-- A delivery begins and runs. What its transaction has staged is written down. -/
lemma Stages.first {message : Value} (h : Stages m s0 w0 a0 r0 s w a none (message :: backlog) r)
    (alive : (a.outset m message w s).1.2.exhausted = false) :
    ∃ r', Stages m s0 w0 a0 r0 (a.outset m message w s).2 (a.outset m message w s).1.2 a
        (some (a.outset m message w s).1.1) backlog r' ∧
      ∀ id ∈ ((a.outset m message w s).1.2.store.transaction
        (a.outset m message w s).1.1.transaction).staged,
          ⟨(a.outset m message w s).1.1.task.context.task, id⟩ ∈ r' := by
  have hstarted := h.started
  cases hrun : a.outset m message w s with
  | mk result s' =>
    obtain ⟨d', w'⟩ := result
    rw [hrun] at alive
    have hrun' := hrun
    obtain ⟨task, store, hadvance, rfl, rfl, rfl⟩ := Delivery.exists_of_run_advance hrun alive
    obtain ⟨log, hpoll⟩ := Task.poll_of_advance hadvance
    refine ⟨_, hstarted.advanced hrun' alive hpoll rfl, fun id hid => ?_⟩
    -- the transaction has begun empty
    have hreplay : store.transaction (a.start m message w).1.transaction =
        (gathering {}).replay log := by
      refine (transaction_of_replay hpoll.transactions ?_).trans ?_
      · exact (Array.size_push ..).symm ▸ lt_succ_self _
      · refine congrArg (replay · log) ?_
        simp [start, Task.spawn, newTransaction, newAgenda, transaction,
          empty]
    have hle := (staged_replay (.gathering {}) log).1
    rw [← hreplay, show (gathering {}).staged = 0 from rfl, zero_add] at hle
    refine mem_append_right _ (mem_stagings.2 ⟨?_, Multiset.mem_of_le hle hid⟩)
    exact congrArg Context.task hpoll.context

/-- Whatever point a run is at, something was staged so far. -/
lemma Runs.stages (h : Runs m s0 w0 a0 s w a current backlog) (r0 : List Staging) :
    ∃ r, Stages m s0 w0 a0 r0 s w a current backlog r := by
  induction h with
  | begun => exact ⟨r0, .begun⟩
  | started _ ih =>
    obtain ⟨r, h⟩ := ih
    exact ⟨r, h.started⟩
  | advanced _ run alive ih =>
    obtain ⟨r, h⟩ := ih
    have hrun := run
    obtain ⟨task, store, hadvance, rfl, rfl, rfl⟩ := Delivery.exists_of_run_advance run alive
    obtain ⟨log, hpoll⟩ := Task.poll_of_advance hadvance
    exact ⟨_, h.advanced hrun alive hpoll rfl⟩
  | settled _ answer run ih =>
    obtain ⟨r, h⟩ := ih
    exact ⟨r, h.settled answer run⟩

/-- The books are kept at every point of a run. -/
theorem Stages.booked {own : ActorId → Option Nat}
    (h : Stages m s0 w0 a0 r0 s w a current backlog r)
    (start : Booked own (s0.Beside m.self a0.current) s0 w0 r0) :
    ∃ own', Booked own' (s.Beside m.self current) s w r := by
  induction h with
  | begun => exact ⟨own, start⟩
  | started _ ih =>
    obtain ⟨own', h⟩ := ih
    exact ⟨own', h.start ..⟩
  | advanced _ run alive polled after ih =>
    obtain ⟨own', h⟩ := ih
    exact ⟨_, h.advance run alive polled after⟩
  | settled _ _ run ih =>
    obtain ⟨own', h⟩ := ih
    exact ⟨_, h.settle run⟩

end Actor

/-! ### Sessions -/

namespace Session

/-- A dispatch of the session runs a program, from a scheduler and an actor on. -/
inductive Begins (x : Session) (m : Moment) : Stage → Actor → Prop where
  /-- The program is resumed. -/
  | resumed {wakeups : Fifo ActorId} {name : String} {a : Actor} (now : m.now = x.config.clock.now)
      (wake : x.config.wakeups.pop? = some (m.self, wakeups))
      (found : x.config.find? m.self = some ⟨name, .program a⟩) :
      Begins x m { x.config.toScheduler with wakeups } a
  /-- The program gets a message. -/
  | received {message : Value} {queue : Fifo (Envelope Value)} {name : String} {a : Actor}
      (now : m.now = x.config.clock.now) (idle : x.config.wakeups.pop? = none)
      (arrives : x.config.queue.pop? = some (⟨m.self, message⟩, queue))
      (found : x.config.find? m.self = some ⟨name, .program a⟩) :
      Begins x m
        { x.config.toScheduler with
          queue
          journal := x.config.journal.record x.config.clock.now (.delivered m.self) }
        { a with backlog := a.backlog ++ [message] }

variable {x : Session} {m : Moment} {s0 : Stage} {a0 : Actor}
  {current : Option Delivery} {backlog : List Value} {r r' : List Staging}

namespace Begins

/-- Only what is taken has changed before the run. -/
lemma before (h : x.Begins m s0 a0) : s0.registry = x.config.registry ∧ s0.ids = x.config.ids ∧
    ∃ name a, x.config.find? m.self = some ⟨name, .program a⟩ ∧ a0.current = a.current := by
  cases h with
  | resumed now wake found | received now idle arrives found => exact ⟨rfl, rfl, _, _, found, rfl⟩

lemma invoke_program {id : ActorId} {name : String} (message : Option Value)
    (found : s.find? id = some ⟨name, .program a⟩) : invoke ⟨s, w⟩ id message =
      let r :=
  (Actor.drain { a with backlog := a.backlog ++ message.toList } ⟨id, s.clock.now⟩ w).run s
      after id ((.program r.1.1, r.1.2), r.2) := by
  rw [invoke_of_some message found, Performer.run_respond_program]

/-- The dispatch is the run, and the state of the program is entered for it. -/
lemma dispatch (h : x.Begins m s0 a0) : x.config.dispatch.2 =
    let r := (a0.drain m x.config.world).run s0
    after m.self ((.program r.1.1, r.1.2), r.2) := by
  obtain ⟨self, now⟩ := m
  cases h with
  | @resumed wakeups name a now wake found =>
    obtain ⟨⟨s, w⟩, global, top, logger⟩ := x
    dsimp only at now wake found ⊢
    subst now
    rw [dispatch_wakeup wake]
    have hrun := invoke_program (s := { s with wakeups }) (w := w) none found
    rw [toList_none, append_nil] at hrun
    exact hrun
  | @received message queue name a now idle arrives found =>
    obtain ⟨⟨s, w⟩, global, top, logger⟩ := x
    dsimp only at now idle arrives found ⊢
    subst now
    rw [dispatch_message idle arrives]
    exact invoke_program (s := s.withQueue self queue) (some message) found

end Begins

/-- What happens to a configuration when no program is run: nobody comes, no address is handed out,
and the store stays. -/
structure Quiet (c c' : Ensemble) : Prop where
  ids : c'.ids = c.ids
  store : c'.world.store = c.world.store
  exhausted : c'.world.exhausted = c.world.exhausted
  waiting : ∀ id d, c'.Waiting id d → c.Waiting id d
  registered : ∀ id e, (id, e) ∈ c'.registry → ∃ e', (id, e') ∈ c.registry

/-- Whoever is not a program responds quietly. -/
lemma quiet_invoke (id : ActorId) (message : Option Value)
    (service : ∀ name a, s.find? id ≠ some ⟨name, .program a⟩) :
    Quiet ⟨s, w⟩ (invoke ⟨s, w⟩ id message) := by
  cases hfound : s.find? id with
  | none =>
    rw [invoke_of_none message hfound]
    exact ⟨rfl, rfl, rfl, fun _ _ hd => hd, fun _ e he => ⟨e, he⟩⟩
  | some entry =>
    obtain ⟨name, p⟩ := entry
    have hp : ∀ a, p ≠ .program a := fun a ha => service name a (ha ▸ hfound)
    obtain ⟨l, p', w', hserves, hsame⟩ := p.exists_serves hp ⟨id, s.clock.now⟩ message w
    obtain ⟨hregistry, _, hids, _⟩ := postAll_frame l s
    rw [invoke_of_some message hfound]
    dsimp only
    rw [hserves.run]
    refine ⟨hids, hserves.store, hsame, fun id' d hd => ?_, fun id' e he => ?_⟩
    · rcases waiting_setBehavior hd with ⟨_, a, ha, _⟩ | ⟨_, hd⟩
      · exact absurd ha (hserves.service a)
      · exact hd.congr hregistry
    · obtain ⟨e', he', _⟩ := mem_setBehavior he
      exact ⟨e', hregistry ▸ he'⟩

/-- A dispatch that runs no program is quiet. -/
lemma quiet_dispatch (x : Session) (quiet : ∀ m s0 a0, ¬ x.Begins m s0 a0) :
    Quiet x.config x.config.dispatch.2 := by
  obtain ⟨⟨s, w⟩, global, top, logger⟩ := x
  cases hwake : s.wakeups.pop? with
  | some y =>
    obtain ⟨id, wakeups⟩ := y
    rw [dispatch_wakeup (c := ⟨s, w⟩) hwake]
    have h := quiet_invoke (s := { s with wakeups }) (w := w) id none fun name a found =>
      quiet ⟨id, s.clock.now⟩ _ _ (.resumed rfl hwake found)
    exact ⟨h.ids, h.store, h.exhausted, h.waiting, h.registered⟩
  | none =>
    cases hqueue : s.queue.pop? with
    | some y =>
      obtain ⟨⟨id, message⟩, queue⟩ := y
      rw [dispatch_message (c := ⟨s, w⟩) hwake hqueue]
      have h := quiet_invoke (s := s.withQueue id queue) (w := w) id (some message)
        fun name a found => quiet ⟨id, s.clock.now⟩ _ _ (.received rfl hwake hqueue found)
      exact ⟨h.ids, h.store, h.exhausted, h.waiting, h.registered⟩
    | none =>
      rw [dispatch_nothing (c := ⟨s, w⟩) hwake hqueue]
      exact ⟨rfl, rfl, rfl, fun _ _ hd => hd, fun _ e he => ⟨e, he⟩⟩

lemma Begins.begun (_begins : x.Begins m s0 a0) (r : List Staging) :
    Actor.Stages m s0 x.config.world a0 r s0 x.config.world a0 a0.current a0.backlog r := .begun

/-- The points that the run of a program goes through when a session dispatches, with all stagings
so far. -/
inductive Stages (x : Session) (r0 : List Staging) (s : Stage) (w : World)
    (m : Moment) (a : Actor) (current : Option Delivery) (backlog : List Value) (r : List Staging) :
    Prop where
  | intro {s0 : Stage} {a0 : Actor} (begins : x.Begins m s0 a0)
      (point : Actor.Stages m s0 x.config.world a0 r0 s w a current backlog r)

/-- The sessions that can be reached, with all stagings so far. -/
inductive Ledger : Session → List Staging → Prop where
  | start {x : Session} (fresh : x.Fresh) : Ledger x []
  | host {x : Session} {r : List Staging} (before : Ledger x r) {s : Stage}
      (heap : Heap) (registry : s.registry = x.config.registry)
      (ids : x.config.ids.issued ≤ s.ids.issued) : Ledger (x.host s heap) r
  | bind {x : Session} {r : List Staging} (before : Ledger x r) (name : String) (v : Value)
      (env : Env) : Ledger (x.bind name v env).2 r
  | register {x : Session} {r : List Staging} (before : Ledger x r) {p : Performer}
      (fresh : p.Fresh) (name : String) : Ledger (x.register p name) r
  /-- An evaluation from outside, with what its task asks for. -/
  | evaluate {x : Session} {r : List Staging} (before : Ledger x r) (e : Expr)
      (alive : (x.evaluate e).2.config.world.exhausted = false) {log : List Request}
      {task : Task .value} {after : Store}
      (polled : (x.evaluation e).1.Poll (x.evaluation e).2 log task after)
      (ids : after.ids = (x.evaluate e).2.config.ids) :
      Ledger (x.evaluate e).2 (r ++ Request.stagings (x.evaluation e).1.context.task log)
  /-- A dispatch that runs no program. -/
  | quiet {x : Session} {r : List Staging} (before : Ledger x r)
      (quiet : ∀ m s0 a0, ¬ x.Begins m s0 a0) : Ledger { x with config := x.config.dispatch.2 } r
  /-- A dispatch that runs a program, to the end of the run. -/
  | run {x : Session} {r r' : List Staging} {s : Stage} {w : World} {m : Moment}
      {a : Actor} {current : Option Delivery} {backlog : List Value} (before : Ledger x r)
      (point : x.Stages r s w m a current backlog r')
      (last : x.config.dispatch.2 =
        Configuration.after m.self ((.program { a with current, backlog }, w), s)) :
      Ledger { x with config := x.config.dispatch.2 } r'

/-- Every session that can be reached has its stagings. -/
theorem Reachable.ledger (h : x.Reachable) : ∃ r, x.Ledger r := by
  induction h with
  | start fresh => exact ⟨[], .start fresh⟩
  | host _ heap registry ids ih => exact ih.imp fun _ h => h.host heap registry ids
  | bind _ name v env ih => exact ih.imp fun _ h => h.bind name v env
  | register _ fresh name ih => exact ih.imp fun _ h => h.register fresh name
  | evaluate _ e alive ih =>
    obtain ⟨r, h⟩ := ih
    obtain ⟨task, after, effects, store, hev⟩ := Session.evaluates _ e alive
    obtain ⟨log, hpoll⟩ := Task.poll_of_advance hev.run
    exact ⟨_, h.evaluate e alive hpoll hev.ids_eq.symm⟩
  | @dispatch x _ alive ih =>
    obtain ⟨r, h⟩ := ih
    by_cases hbegins : ∃ m s0 a0, x.Begins m s0 a0
    · obtain ⟨m, s0, a0, hbegins⟩ := hbegins
      have hdispatch := hbegins.dispatch
      rw [hdispatch] at alive
      obtain ⟨a, current, backlog, hruns, hlast, _⟩ :=
        Actor.Runs.ends_drain m s0 x.config.world a0 alive
      obtain ⟨r', hstages⟩ := hruns.stages r
      refine ⟨r', h.run ⟨hbegins, hstages⟩ (hdispatch.trans ?_)⟩
      dsimp only
      rw [hlast]
    · simp only [not_exists] at hbegins
      exact ⟨r, h.quiet hbegins⟩

lemma owned_evaluation {e : Expr} {task : Task .value} {after : Store}
    (polled : (x.evaluation e).1.Poll (x.evaluation e).2 log task after) :
    Owned (fun id => x.config.ids.issued < id.raw) after.ids (stages log) := by
  have hthrifty : (x.evaluation e).1.Thrifty (fun id => x.config.ids.issued < id.raw)
      (x.evaluation e).2 := Task.thrifty_spawn ..
  exact (polled.owned hthrifty fun id hid => hid).1

/-- The books of a session. -/
def Books (x : Session) (r : List Staging) : Prop :=
  ∃ own, Booked own x.config.Waiting x.config.toScheduler x.config.world r

namespace Books

lemma start (h : x.Fresh) : x.Books [] := by
  obtain ⟨own, hregular⟩ := Regular.start h
  have hidle := h.not_waiting
  refine ⟨own, hregular, fun id d hd => absurd hd (hidle id d), ?_, fun id d hd =>
    absurd hd (hidle id d), ?_, ?_⟩
  all_goals exact fun x hx => absurd hx not_mem_nil

lemma host (h : x.Books r) {s : Stage} (heap : Heap)
    (registry : s.registry = x.config.registry) (ids : x.config.ids.issued ≤ s.ids.issued) :
    (x.host s heap).Books r := by
  obtain ⟨own, h⟩ := h
  have hregular := h.regular
  refine ⟨own, h.keep (Troupe.Regular.schedule (w := (x.host s heap).config.world)
    (hregular.elsewhere hregular.alive le_rfl hregular.ids le_rfl rfl fun _ _ _ => .of_eq rfl rfl)
      registry ids) ids le_rfl le_rfl fun id d hd => ⟨hd.congr registry, .of_eq rfl rfl⟩⟩

lemma bind (h : x.Books r) (name : String) (v : Value) (env : Env) :
    (x.bind name v env).2.Books r := by
  obtain ⟨own, h⟩ := h
  have hbinds := x.binds name v env
  exact ⟨own, h.keep (hbinds.regular h.regular) (congrArg issued hbinds.ids).ge
    (congrArg issued hbinds.store).ge hbinds.size
    fun id d hd => ⟨hd.congr hbinds.registry, hbinds.others _⟩⟩

lemma register (h : x.Books r) {p : Performer} (fresh : p.Fresh) (name : String) :
    (x.register p name).Books r := by
  obtain ⟨own, h⟩ := h
  exact ⟨_, h.create name fresh⟩

/-- An evaluation from outside adds what it stages. -/
lemma evaluate (h : x.Books r) (e : Expr) (alive : (x.evaluate e).2.config.world.exhausted = false)
    {task : Task .value} {after : Store}
    (polled : (x.evaluation e).1.Poll (x.evaluation e).2 log task after)
    (ids : after.ids = (x.evaluate e).2.config.ids) :
    (x.evaluate e).2.Books (r ++ stagings (x.evaluation e).1.context.task log) := by
  obtain ⟨own, h⟩ := h
  obtain ⟨task', after', effects, store, hev⟩ := x.evaluates e alive
  have hworld : (x.evaluate e).2.config.world.store = store := by rw [hev.result]
  have hissued : x.config.ids.issued ≤ (x.evaluate e).2.config.ids.issued := by
    rw [hev.ids_eq]
    exact hev.issued_le
  have hlog := owned_evaluation polled
  have hwaits : ∀ id d, (x.evaluate e).2.config.Waiting id d → x.config.Waiting id d := by
    rintro id d ⟨name, a, ha, hd⟩
    rcases hev.registered ha with ha | ⟨hidle, _⟩
    · exact ⟨name, a, ha, hd⟩
    · rw [hidle a rfl] at hd
      cases hd
  refine ⟨handOut own x.config.ids none, Booked.record (h.next (hev.regular h.regular) hissued ?_ ?_
    (fun id hle => .inl (handOut_of_le hle)) fun id d hd => .inl ⟨hwaits id d hd, ?_⟩) ?_ ?_ ?_⟩
  · rw [hworld, hev.ids]
    exact h.regular.ids.trans hev.issued_le
  · rw [hworld]
    exact le_of_lt hev.size_lt
  · rw [hworld]
    obtain ⟨htask, htx⟩ := (h.regular.good id d (hwaits id d hd)).inside
    exact hev.elsewhere htask htx
  · rw [hworld]
    exact hev.size_lt
  · intro id hid
    rw [← ids]
    exact (hlog id hid).2
  · intro id hid
    have hnew := (hlog id hid).1
    refine .inr ⟨handOut_of_lt hnew, fun y hy heq => ?_, fun i d hd heq => ?_⟩
    · exact absurd (heq ▸ (h.known y hy).1) (not_le.2 hnew)
    · have hinside := (h.regular.good i d (hwaits i d hd)).inside.1
      rw [heq] at hinside
      exact lt_irrefl _ hinside

lemma quiet (h : x.Books r) (quiet : ∀ m s0 a0, ¬ x.Begins m s0 a0) :
    Books { x with config := x.config.dispatch.2 } r := by
  obtain ⟨own, h⟩ := h
  obtain ⟨hids, hstore, hexhausted, hwaiting, hregistered⟩ := x.quiet_dispatch quiet
  have hregular := h.regular
  refine ⟨own, h.keep ⟨hexhausted.trans hregular.alive, ?_, fun id e he => ?_, fun id d hd => ?_,
    fun id id' d d' hd hd' => hregular.apart id id' d d' (hwaiting id d hd) (hwaiting id' d' hd')⟩
    (congrArg issued hids).ge ?_ ?_ fun id d hd => ⟨hwaiting id d hd, ?_⟩⟩
  · rw [hstore, hids]
    exact hregular.ids
  · obtain ⟨e', he'⟩ := hregistered id e he
    rw [hids]
    exact hregular.registered id e' he'
  · rw [hstore]
    exact hregular.good id d (hwaiting id d hd)
  · exact (congrArg (fun s : Store => s.ids.issued) hstore).ge
  · exact (congrArg (fun s : Store => s.agendas.size) hstore).ge
  · rw [hstore]
    exact .refl _

lemma enter (h : x.Books r) (begins : x.Begins m s0 a0) :
    ∃ own, Booked own (s0.Beside m.self a0.current) s0 x.config.world r := by
  obtain ⟨own, h⟩ := h
  obtain ⟨hregistry, hids, name, a, hfound, hcurrent⟩ := begins.before
  have hschedule : Troupe.Regular own s0.Waiting s0 x.config.world :=
    h.regular.schedule hregistry (congrArg issued hids).ge
  have hfound0 := (find?_congr hregistry).trans hfound
  rw [hcurrent]
  refine ⟨own, h.keep (hschedule.enter hfound0) (congrArg issued hids).ge le_rfl le_rfl
    fun id d hd => ⟨?_, .refl _⟩⟩
  rcases hd with ⟨rfl, hd⟩ | ⟨_, hd⟩
  · exact ⟨name, a, mem_of_find? hfound, hd⟩
  · exact hd.congr hregistry

end Books

/-- The books are kept at every point of the run of a program. -/
theorem Stages.booked (h : x.Stages r s w m a current backlog r') (books : x.Books r) :
    ∃ own, Booked own (s.Beside m.self current) s w r' := by
  obtain ⟨begins, point⟩ := h
  obtain ⟨own, hbooked⟩ := books.enter begins
  exact point.booked hbooked

/-- The books are kept in every session. -/
theorem Ledger.books (h : x.Ledger r) : x.Books r := by
  induction h with
  | start fresh => exact .start fresh
  | host _ heap registry ids ih => exact ih.host heap registry ids
  | bind _ name v env ih => exact ih.bind name v env
  | register _ fresh name ih => exact ih.register fresh name
  | evaluate _ e alive polled ids ih => exact ih.evaluate e alive polled ids
  | quiet _ quiet ih => exact ih.quiet quiet
  | @run x r r' s w m a current backlog _ point last ih =>
    obtain ⟨own, h⟩ := point.booked ih
    rw [Books, last]
    have hleave :
      Troupe.Regular own (s.setBehavior m.self (.program { a with current, backlog })).Waiting
        (s.setBehavior m.self (.program { a with current, backlog })) w :=
      h.regular.leave (fun id d hne hd => .inr ⟨hne, hd⟩) fun a' d ha' hd =>
      .inl ⟨rfl, by cases ha'; exact hd⟩
    refine ⟨own, h.keep hleave le_rfl le_rfl le_rfl fun id d hd => ⟨?_, .refl _⟩⟩
    refine (waiting_setBehavior hd).imp_left fun ⟨hid, a', ha', hd⟩ => ⟨hid, ?_⟩
    cases ha'
    exact hd

end Session

end Troupe
