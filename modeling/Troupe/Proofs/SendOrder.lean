import Troupe.Proofs.Mailbox
import Troupe.Proofs.Sequence
import Troupe.Session

/-!
Sends of one block.

A delivery whose block sends messages to one actor is followed from the application of the behavior
to the queue: only the heap changes before the body of the block begins, and a block without
variables has nothing to offer at its end.

* `Task.exists_poll_sends`: the delivery finishes, with each message sent once, and up to the limit
  of nesting in order.
* `Configuration.exists_dispatch_sends`: what that puts on the queue.
* `Scheduler.Steps.delivered_filter`: an actor gets what stands on the queue for it in that order.
-/

namespace Troupe

open Array Effects List Option Scheduler Store

variable {behavior message : Value} {id : ActorId} {target : Expr} {ms : List Value} {env : Env}

/-! ### The block of a delivery -/

/-- The behavior answers the message with a block of these statements: whoever applies it gets the
block at once, and only the heap changes, from `h` to `h'`. -/
def Value.Answers (behavior message : Value) (h : Heap) (body : Stmt) (env : Env) (h' : Heap) :
    Prop :=
  ∃ v, h'.block? v = some ⟨body.declared, body, env⟩ ∧
    ∀ (cx : Context) (who : Waiter) (s : Store), s.heap = h → ∃ log,
      Evaluation.Run cx who (.start (.apply behavior message 0)) s log (.done v)
      { s with heap := h' }

/-- The identity answers a block with itself. -/
lemma Value.answers_identity {f : NativeRef} {h : Heap} {body : Stmt}
    (native : h.natives[f.index]? = some .identity)
    (block : h.block? message = some ⟨body.declared, body, env⟩) :
    (Value.native f).Answers message h body env h := by
  refine ⟨message, block, fun cx who s heap => ?_⟩
  subst heap
  refine ⟨_, .start (e := .done message) ?_ (.done _ _)⟩
  simp only [Job.begin, Value.enter, native, onHeap, Heap.call]

namespace Heap

variable (h : Heap)

/-- A block without variables binds nothing. -/
lemma lookup_newScope (captured caller : Env) (name : String) (env : Env) :
    (h.newScope captured caller []).2.lookup name env = h.lookup name env := by
  refine lookup_congr ?_ (fun i => ?_) (fun i => ?_) ?_ env
  · exact fun _ => rfl
  · simp only [scope, newScope, getElem?_push]
    split
    · rename_i hi
      rw [hi, Array.getElem?_eq_none le_rfl]
      rfl
    · rfl
  · simp only [slot?, newScope, List.length_nil, Array.replicate_zero, Array.append_empty]
  · exact fun _ => rfl

lemma lookup_newBlock (b : Block) (name : String) (env : Env) :
    (h.newBlock b).2.lookup name env = h.lookup name env := by
  refine lookup_congr ?_ ?_ ?_ ?_ env <;> exact fun _ => rfl

lemma lookup_newActor (self : ActorId) (next : Env) (name : String) (env : Env) :
    (h.newActor self next).2.lookup name env = h.lookup name env := by
  refine lookup_congr ?_ ?_ ?_ ?_ env <;> exact fun _ => rfl

/-- What is found through a block without variables is what its captured environment has. -/
lemma lookup_block_newScope (captured caller : Env) (name : String) :
    (h.newScope captured caller []).2.lookup name (h.newScope captured caller []).1 =
      h.lookup name captured := by
  have hscope : (h.newScope captured caller []).2.scope h.scopes.size = [] := by
    simp only [scope, newScope, getElem?_push, if_true, getD_some, zipIdx_nil]
  have hlookup := h.lookup_newScope captured caller name captured
  rw [newScope] at hscope hlookup ⊢
  simp only [lookup, hscope, lookup_nil, hlookup]

end Heap

lemma Stmt.declared_sends (target : Expr) (ms : List Value) :
    (Stmt.sends target ms).declared = [] := by
  have h : ∀ seen, (Stmt.sends target ms).collectFrom seen = seen := by
    induction ms with
    | nil => exact fun _ => rfl
    | cons m ms ih =>
      cases ms with
      | nil => exact fun _ => rfl
      | cons m' ms =>
        intro seen
        rw [Stmt.sends_cons target m (cons_ne_nil m' ms), Stmt.collectFrom, ih]
        rfl
  exact h []

namespace Evaluation

variable {cx : Context} {h h' : Heap}

/-- The body of a block has begun; the variables of an exported block are offered afterwards. -/
def ofBody (exported : Bool) (body : Stmt) (env : Env) : Evaluation .outcome :=
  if exported then .one (.start (.exec body ⟨env, 1⟩)) (.offer [] env)
  else .start (.exec body ⟨env, 1⟩)

/-- A delivery gets to the body of its block, and only the heap changes. -/
lemma exists_run_deliver (cx : Context)
    (answers : behavior.Answers message h (.sends target ms) env h')
    (points : target.Points env h' id) (self : ActorId) (exported : Bool) (outer : Env) :
    ∃ inner h'', target.Points inner h'' id ∧ ∀ {who : Waiter} {s s' : Store} {log : List Request}
      {e : Evaluation .outcome}, s.heap = h →
        Run cx who (ofBody exported (.sends target ms) inner) { s with heap := h'' } log e s' →
        ∃ log', Run cx who (.start (.deliver behavior message self exported ⟨outer, 0⟩)) s log' e
          s' := by
  obtain ⟨v, hblock, hrun⟩ := answers
  rw [Stmt.declared_sends] at hblock
  set caller := (h'.newActor self outer).1 with hcaller
  set h1 := (h'.newActor self outer).2 with hh1
  refine ⟨(h1.newScope env caller []).1, (h1.newScope env caller []).2, ?_,
    fun {who s s' log e} heap hbody => ?_⟩
  · refine points.congr fun name => ?_
    rw [Heap.lookup_block_newScope, hh1, Heap.lookup_newActor]
  · obtain ⟨log', hrun⟩ := hrun cx who s heap
    cases exported with
    | false =>
      refine ⟨_, .start rfl (.one hrun ?_ hbody)⟩
      simp only [Frame.resume, hblock, onHeap, Bool.false_eq_true, if_false]
      rfl
    | true =>
      have hpublish : (Job.publish ⟨[], .sends target ms, env⟩ ⟨caller, 0⟩).begin cx
          { s with heap := h1 } = (ofBody true (.sends target ms) (h1.newScope env caller []).1,
            { s with heap := (h1.newScope env caller []).2 }) := rfl
      refine ⟨_, .start rfl (.one hrun ?_ (.start hpublish hbody))⟩
      simp only [Frame.resume, hblock, onHeap, if_true]
      rfl

end Evaluation

namespace Task

open Evaluation

variable {cx : Context} {s s' : Store} {log : List Request}

/-- A pass over an empty ready queue does nothing. -/
lemma Sweep.eq_of_empty {total ran yielded : Nat} {b : Bool}
    (h : Sweep cx total ran yielded s log b s') (ready : (s.agenda cx.task).ready.toList = []) :
    b = false ∧ s' = s := by
  have hpopped {p : Nat} {s1 : Store} (popped : s.nextReady cx.task = (some p, s1)) : False := by
    obtain ⟨rest, hrest, -⟩ := nextReady_some popped
    exact absurd (ready.symm.trans hrest) nofun
  cases h with
  | empty none_ready => exact ⟨rfl, (nextReady_none none_ready).2⟩
  | skip popped | finish popped | yield popped | next popped => exact (hpopped popped).elim

lemma SweepAll.eq_of_empty (h : SweepAll cx s log s') (size : cx.task < s.agendas.size)
    (ready : (s.agenda cx.task).ready.toList = []) : s' = (s.arm cx.task).2 := by
  have hready : ((s.arm cx.task).2.agenda cx.task).ready.toList = [] := by
    rwa [agenda_arm size]
  cases h with
  | last armed pass =>
    cases armed
    exact (pass.eq_of_empty hready).2
  | more armed pass _ =>
    cases armed
    exact absurd (pass.eq_of_empty hready).1 nofun

/-- What only changes the heap before it goes on like another evaluation finishes like that. -/
lemma Rounds.of_opening {g : Goal} {e e1 e' : Evaluation g} {h : Heap}
    (size : cx.task < s.agendas.size) (blank : (s.agenda cx.task).Blank)
    (opening : ∀ (s1 : Store) {who : Waiter} {s' : Store} {log : List Request} {e' : Evaluation g},
      s1.heap = s.heap → e1.Run cx who { s1 with heap := h } log e' s' →
        ∃ log', e.Run cx who s1 log' e' s')
    (rounds : Rounds cx e1 { s with heap := h } log e' s') : ∃ log', Rounds cx e s log' e' s' := by
  obtain ⟨hswept, -⟩ := sweepAll_of_blank size blank
  set s1 := ((s.enlist cx.task).arm cx.task).2 with hs1
  -- without a piece the passes of the first round do the same in both stores
  have hsame {s2 : Store} {log : List Request}
      (swept : SweepAll cx (({ s with heap := h } : Store).enlist cx.task) log s2) :
      s2 = { s1 with heap := h } := by
    refine swept.eq_of_empty ?_ ?_
    · rwa [enlist, size_modifyAgenda]
    · have hagenda := agenda_enlist (s := { s with heap := h }) size
      have hwaiting : (({ s with heap := h } : Store).agenda cx.task).waiting = 0 := blank.waiting
      rw [hwaiting] at hagenda
      rw [hagenda]
      exact blank.ready
  cases rounds with
  | finish swept run =>
    obtain ⟨log', hrun⟩ := opening s1 rfl (hsame swept ▸ run)
    exact ⟨_, .finish hswept hrun⟩
  | wait swept run waits still =>
    obtain ⟨log', hrun⟩ := opening s1 rfl (hsame swept ▸ run)
    exact ⟨_, .wait hswept hrun waits still⟩
  | again swept run waits astir rest =>
    obtain ⟨log', hrun⟩ := opening s1 rfl (hsame swept ▸ run)
    exact ⟨_, .again hswept hrun waits astir rest⟩

/-- A block without variables has nothing to offer. -/
lemma Rounds.offer {e e' : Evaluation .outcome} (rounds : Rounds cx e s log e' s')
    (sound : e' = .done .ok) (env : Env) :
    ∃ log', Rounds cx (.one e (.offer [] env)) s log' e' s' := by
  induction rounds with
  | finish swept run =>
    cases sound
    exact ⟨_, .finish swept (.one run rfl (.done _ _))⟩
  | wait swept run waits still => exact absurd (sound ▸ waits) (not_waits_done _)
  | again swept run waits astir _ ih =>
    obtain ⟨log', h⟩ := ih sound
    exact ⟨_, .again swept (.oneWaits run waits) rfl astir h⟩

lemma Rounds.ofBody {body : Stmt}
    (rounds : Rounds cx (.start (.exec body ⟨env, 1⟩)) s log (.done .ok) s') (exported : Bool) :
    ∃ log', Rounds cx (Evaluation.ofBody exported body env) s log' (.done .ok) s' := by
  cases exported with
  | false => exact ⟨log, rounds⟩
  | true => exact rounds.offer rfl env

/-- A delivery whose block sends messages to one actor finishes, and has sent each of them once; up
to the limit of nesting, in order. -/
theorem exists_poll_sends {h' : Heap}
    (answers : behavior.Answers message s.heap (.sends target ms) env h')
    (points : target.Points env h' id) (self : ActorId) (now : Millis) (exported : Bool)
    (outer : Env) : ∃ (log : List Request) (t' : Task .outcome) (s' : Store) (sent : List Value),
      Poll (spawn s.newTransaction.2 self false s.newTransaction.1 now
          (.start (.deliver behavior message self exported ⟨outer, 0⟩))).1
        (spawn s.newTransaction.2 self false s.newTransaction.1 now
          (.start (.deliver behavior message self exported ⟨outer, 0⟩))).2 log t' s' ∧
      t'.main = .done .ok ∧ sent.Perm ms ∧ (ms.length ≤ maxNesting → sent = ms) ∧
      s'.core.Outbox t'.context id sent := by
  set t := spawn s.newTransaction.2 self false s.newTransaction.1 now
    (.start (.deliver behavior message self exported ⟨outer, 0⟩)) with ht
  set s0 := running t.1.context true t.2 with hs0
  have hsize : t.1.context.task < s0.agendas.size := by
    simp [hs0, ht, running, spawn, newAgenda, modifyAgenda]
  have hagenda : t.2.agenda t.1.context.task = { actor := self } := by
    simp [ht, spawn, newAgenda, agenda]
  have hblank : (s0.agenda t.1.context.task).Blank := by
    have hsize' : t.1.context.task < t.2.agendas.size := by
      rwa [hs0, running, size_modifyAgenda] at hsize
    rw [hs0, running, agenda_modifyAgenda _ _ hsize', hagenda]
    exact ⟨rfl, rfl, rfl⟩
  have hout : s0.core.Outbox t.1.context id [] := by
    simp [hs0, ht, running, spawn, newAgenda, newTransaction, modifyAgenda,
      core, Core.Outbox, Transaction.empty]
  obtain ⟨inner, h, hpoints, hopening⟩ :=
    exists_run_deliver t.1.context answers points self exported outer
  -- the body of the block, run as a task of its own
  obtain ⟨log, s', sent, hrounds, hperm, horder, hout'⟩ : ∃ log s' sent,
      Rounds t.1.context (.start (.exec (.sends target ms) ⟨inner, 1⟩)) { s0 with heap := h } log
        (.done .ok) s' ∧ sent.Perm ms ∧ (ms.length ≤ maxNesting → sent = ms) ∧
        s'.core.Outbox t.1.context id sent := by
    rcases Nat.lt_or_ge maxNesting ms.length with hlong | hshort
    · obtain ⟨log, t', s', sent, ⟨s1, hrounds, hcontext, rfl⟩, hmain, hperm, hout'⟩ :=
        exists_sends (s := { s with heap := h }) hpoints ms self false now 1
      rw [hmain] at hrounds
      rw [hcontext] at hout'
      exact ⟨log, s1, sent, hrounds, hperm, fun h => absurd h (Nat.not_le.2 hlong), hout'⟩
    · obtain ⟨log, s', hrounds, hout'⟩ :=
        exists_rounds_sends (s := { s0 with heap := h }) hpoints hout hsize hblank ms hshort
      exact ⟨log, s', ms, hrounds, .refl ms, fun _ => rfl, hout'⟩
  obtain ⟨log1, hrounds1⟩ := hrounds.ofBody exported
  obtain ⟨log2, hrounds2⟩ := Rounds.of_opening hsize hblank
    (fun s1 {who s' log e'} heap hrun => hopening heap hrun) hrounds1
  exact ⟨log2, { t.1 with main := .done .ok }, running t.1.context false s', sent,
    ⟨s', hrounds2, rfl, rfl⟩, rfl, hperm, horder, hout'⟩

end Task

/-! ### From the delivery to the queue -/

/-- What a block that sends messages to one actor asks for. -/
def Effects.mail (id : ActorId) (sent : List Value) : Effects :=
  { sends := (sent.map fun m => ⟨m, id, none⟩).toArray }

lemma Effects.filterMap_mail {M B : Type} {s : Scheduler M B} (registered : s.contains id = true)
    (sent : List Value) :
    (mail id sent).sends.toList.filterMap s.envelope? = sent.map fun m => ⟨id, m⟩ := by
  simp only [mail, List.filterMap_map]
  rw [← List.filterMap_eq_map]
  refine List.filterMap_congr fun m _ => ?_
  simp only [Function.comp_apply, envelope?, registered, if_true]

namespace Actor

variable {a : Actor} {moment : Moment} {w : World} {s : Stage}

/-- An actor takes a message whose delivery commits with messages to a registered actor: they are
put on the queue, and then the report. After that it takes the messages of its backlog. -/
lemma exists_run_serve (rest : List Value) {task : Task .outcome} {store : Store}
    {sent : List Value} (ran : (a.start moment message w).1.task.advance w.fuel
      { (a.start moment message w).2.store with ids := ⟨s.ids.issued⟩ } = some (task, store))
    (answer : task.answer? = some .ok)
    (gathered : store.transaction (a.start moment message w).1.transaction =
      .gathering (.mail id sent)) (registered : s.contains id = true) :
    ∃ w' s', (serve moment (message :: rest) a w).run s = (serve moment rest a w').run s' ∧
      w'.output = w.output ∧ s'.registry = s.registry ∧ s'.timers = s.timers ∧
      s'.queue.toList = s.queue.toList ++ ((sent.map fun m => ⟨id, m⟩) ++
        (a.trace moment.self message (mail id sent).report).filterMap s.envelope?) := by
  set d := (a.start moment message w).1
  set w0 := (a.start moment message w).2
  have hstart : a.start moment message w = (d, w0) := rfl
  have hadvance := Delivery.run_advance (d := d) (w := w0) (s := s) ran
  obtain ⟨s1, hs1, hregistry, hqueue, htimers⟩ : ∃ s1, (d.advance w0).run s =
      (({ d with task }, { w0 with store := { store with wakeups := #[] } }), s1) ∧
      s1.registry = s.registry ∧ s1.queue = s.queue ∧ s1.timers = s.timers :=
    ⟨_, hadvance, rfl, rfl, rfl⟩
  obtain ⟨wakeups, -, hsettle⟩ := run_settle_committed a moment.self (d := { d with task })
    (w := { w0 with store := { store with wakeups := #[] } }) gathered
    (nofun : Outcome.ok ≠ .fail) s1
  -- first the messages, then the report
  set mail := (mail id sent).sends.toList ++
    a.trace moment.self message (mail id sent).report with hmail
  obtain ⟨w', hsettled, houtput⟩ : ∃ w', (a.settle moment.self { d with task } .ok
      { w0 with store := { store with wakeups := #[] } }).run s1 =
        ((a, w'), { mail.foldl post s1 with wakeups }) ∧ w'.output = w.output := by
    exact ⟨_, hsettle, rfl⟩
  have hprompt : mail.filterMap s1.appointment? = [] := by
    simp [hmail, Effects.mail, trace, appointment?]
  refine ⟨w', { mail.foldl post s1 with wakeups }, ?_, houtput,
    (postAll_frame mail s1).1.trans hregistry, ?_, ?_⟩
  · rw [serve, hstart]
    dsimp only
    rw [Script.run_bind, hs1]
    simp only [answer]
    rw [Script.run_bind, hsettled]
  · refine (timers_postAll mail s1).trans ?_
    rwa [hprompt]
  · refine (queue_postAll mail s1).trans ?_
    rw [hqueue, envelope?_congr hregistry, hmail, List.filterMap_append,
      filterMap_mail registered]

/-- The delivery of a message runs to its end at once, and has gathered these messages to the actor
and nothing else. -/
def Gathers (a : Actor) (moment : Moment) (message : Value) (w : World)
    (s : Stage) (id : ActorId) (sent : List Value) : Prop :=
  ∃ d w' s', ((a.start moment message w).1.advance (a.start moment message w).2).run s =
      ((d, w'), s') ∧
    d.task.answer? = some .ok ∧ w'.store.transaction d.transaction = .gathering (.mail id sent)

/-- An actor runs a block that sends messages to a registered actor: its delivery commits with all
of them, up to the limit of nesting in order, and they are put on the queue in the order in which
they were gathered. -/
theorem exists_serve_sends {h' : Heap} (moment : Moment)
    (answers : a.behavior.Answers message w.store.heap (.sends target ms) env h')
    (points : target.Points env h' id) (registered : s.contains id = true) (rest : List Value) :
    ∃ sent bound, sent.Perm ms ∧ (ms.length ≤ maxNesting → sent = ms) ∧ ∀ fuel ≥ bound,
      a.Gathers moment message { w with fuel } s id sent ∧
      ∃ w' s', (serve moment (message :: rest) a { w with fuel }).run s =
          (serve moment rest a w').run s' ∧
        w'.output = w.output ∧ s'.registry = s.registry ∧ s'.timers = s.timers ∧
        s'.queue.toList = s.queue.toList ++ ((sent.map fun m => ⟨id, m⟩) ++
          (a.trace moment.self message (mail id sent).report).filterMap s.envelope?) := by
  obtain ⟨log, t', s', sent, hpoll, hmain, hperm, horder, hout⟩ := Task.exists_poll_sends
    (s := { w.store with ids := ⟨s.ids.issued⟩ }) answers points moment.self moment.now a.exports
    a.env
  obtain ⟨bound, hbound⟩ := Task.advance_of_poll hpoll
  refine ⟨sent, bound, hperm, horder, fun fuel hfuel => ?_⟩
  have hran : (a.start moment message { w with fuel }).1.task.advance fuel
      { (a.start moment message { w with fuel }).2.store with ids := ⟨s.ids.issued⟩ } =
        some (t', s') := hbound fuel hfuel
  have hanswer : t'.answer? = some .ok := by rw [Task.answer?, hmain]; rfl
  have hgathered : s'.transaction (a.start moment message { w with fuel }).1.transaction =
      .gathering (.mail id sent) := by
    rw [hpoll.context] at hout
    exact congrArg (·.getD default) hout
  exact ⟨⟨_, _, _, Delivery.run_advance hran, hanswer, hgathered⟩,
    exists_run_serve rest hran hanswer hgathered registered⟩

end Actor

namespace Scheduler

variable {M B : Type} {s s' : Scheduler M B}

/-- What is taken from the queue for a registered actor is delivered to it. -/
lemma Step.taken_filter {a : Act M B} (step : s.Step a s') (registered : s.contains id = true) :
    a.taken.filter (·.target = id) = a.delivered.filter (·.target = id) := by
  cases step with
  | @discard e queue next missing =>
    have hne : e.target ≠ id := by
      rintro rfl
      simp only [Scheduler.contains, missing, isSome_none, Bool.false_eq_true] at registered
    simp [Act.taken, Act.delivered, hne]
  | _ => rfl

/-- Whatever happens next, a registered actor gets the messages that stand on the queue for it in
their order, before any others. -/
lemma Steps.delivered_filter {acts : List (Act M B)} (steps : s.Steps acts s')
    (registered : s.contains id = true) :
    s'.contains id = true ∧
      ∃ later, s.queue.toList.filter (·.target = id) ++ later =
        (acts.flatMap Act.delivered).filter (·.target = id) ++
          s'.queue.toList.filter (·.target = id) := by
  induction steps with
  | refl => exact ⟨registered, [], by simp⟩
  | @snoc acts a s1 s2 _ step ih =>
    obtain ⟨hcontains, later, hlater⟩ := ih
    refine ⟨step.account.contains _ hcontains, later ++ a.enqueued.filter (·.target = id), ?_⟩
    have hqueue := congrArg (List.filter (·.target = id)) step.account.queue
    rw [List.filter_append, List.filter_append, step.taken_filter hcontains] at hqueue
    rw [← List.append_assoc, hlater, List.append_assoc, hqueue, List.flatMap_append,
      List.filter_append, List.append_assoc, List.flatMap_singleton]

end Scheduler

namespace Configuration

/-- The configuration, with another amount of fuel for each run of a task. -/
def withFuel (c : Ensemble) (fuel : Nat) :
    Ensemble :=
  ⟨c.toScheduler, { c.world with fuel }⟩

/-- The next message is for a program that waits for nothing, which answers it with a block of these
statements, and the heap is then `h'`. -/
structure Executes (c : Ensemble) (actor : ActorId) (a : Actor) (message : Value)
    (queue : Fifo (Envelope Value)) (body : Stmt) (env : Env) (h' : Heap) : Prop where
  awake : c.wakeups.pop? = none
  next : c.queue.pop? = some (⟨actor, message⟩, queue)
  found : ∃ name, c.find? actor = some ⟨name, .program a⟩
  idle : a.current = none ∧ a.backlog = []
  answers : a.behavior.Answers message c.world.store.heap body env h'

/-- A program runs a block that sends messages to a registered actor. -/
theorem exists_dispatch_sends {c : Ensemble} {self : ActorId} {a : Actor} {h' : Heap}
    {queue : Fifo (Envelope Value)} (h : c.Executes self a message queue (.sends target ms) env h')
    (points : target.Points env h' id) (registered : c.contains id = true) :
    ∃ sent bound, sent.Perm ms ∧ (ms.length ≤ maxNesting → sent = ms) ∧ ∀ fuel ≥ bound,
      a.Gathers ⟨self, c.clock.now⟩ message { c.world with fuel }
        (c.toScheduler.withQueue self queue) id sent ∧
      (c.withFuel fuel).dispatch.1 = true ∧
      (c.withFuel fuel).dispatch.2.world.output = c.world.output ∧
      (∀ id, (c.withFuel fuel).dispatch.2.find? id = c.find? id) ∧
      (c.withFuel fuel).dispatch.2.timers = c.timers ∧
      (c.withFuel fuel).dispatch.2.queue.toList = queue.toList ++ ((sent.map fun m => ⟨id, m⟩) ++
        (a.trace self message (mail id sent).report).filterMap c.envelope?) := by
  obtain ⟨name, hfound⟩ := h.found
  obtain ⟨behavior, outer, logger, exports, current, backlog⟩ := a
  obtain ⟨rfl, rfl⟩ := h.idle
  set a : Actor := ⟨behavior, outer, logger, exports, none, []⟩ with ha
  set s := c.toScheduler.withQueue self queue with hs
  obtain ⟨sent, bound, hperm, horder, hserve⟩ := Actor.exists_serve_sends
    (a := { a with backlog := [message] }) (s := s) ⟨self, c.clock.now⟩ h.answers
    points registered []
  refine ⟨sent, bound, hperm, horder, fun fuel hfuel => ?_⟩
  obtain ⟨hgathers, w', s', hrun, houtput, hregistry, htimers, hqueue⟩ := hserve fuel hfuel
  have hreceive : (Behavior.receive (Performer.program a) ⟨self, c.clock.now⟩ message
      { c.world with fuel }).run s = ((.program a, w'), s') := by
    have hserve : Behavior.receive (Performer.program a) ⟨self, c.clock.now⟩ message
        { c.world with fuel } = (Actor.serve ⟨self, c.clock.now⟩ [message]
          { a with backlog := [message] } { c.world with fuel }).bind
            fun r => .done (.program r.1, r.2) := rfl
    rw [hserve, Script.run_bind, hrun]
    rfl
  have hdispatch : (c.withFuel fuel).dispatch = (true, ⟨s'.setBehavior self (.program a), w'⟩) := by
    rw [dispatch_found (c := c.withFuel fuel) h.awake h.next hfound]
    exact congrArg (fun r : (Performer × World) × Stage =>
      (true, (⟨r.2.setBehavior self r.1.1, r.1.2⟩ : Ensemble))) hreceive
  rw [hdispatch]
  refine ⟨hgathers, rfl, houtput, fun i => ?_, htimers, hqueue⟩
  have hsame : s'.find? i = c.find? i := by rw [Scheduler.find?, hregistry]; rfl
  refine (s'.find?_setBehavior self i (.program a)).trans ?_
  rw [hsame]
  split
  · rename_i hi
    rw [hi, hfound]
    rfl
  · rfl

end Configuration

end Troupe
