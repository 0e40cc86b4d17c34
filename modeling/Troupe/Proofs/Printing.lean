import Troupe.Proofs.SendOrder
import Troupe.Session

/-!
Printing.

A session in which nothing is in progress runs a block of sends to the printer.

* `Configuration.output_runIdle`: messages on the queue are printed in their order; to resume actors
  that wait for nothing changes nothing.
-/

namespace Troupe

open Fifo List Scheduler Value

variable {x : Session} {c' : Ensemble} {id printer : ActorId}

/-- No program waits for anything but its next message. -/
def Configuration.Rested (c : Ensemble) : Prop :=
  ∀ id name a, c.find? id = some ⟨name, .program a⟩ → a.current = none ∧ a.backlog = []

/-- Whoever waits for nothing does nothing when it is resumed. -/
lemma Performer.resume_rested {p : Performer} (rested : ∀ a, p = .program a → a.current = none ∧
    a.backlog = []) (moment : Moment) (w : World) : p.resume moment w = .done (p, w) := by
  cases p with
  | program a =>
    obtain ⟨behavior, env, logger, exports, current, backlog⟩ := a
    obtain ⟨hcurrent, hbacklog⟩ := rested _ rfl
    cases hcurrent
    cases hbacklog
    rfl
  | _ => rfl

namespace Fifo

variable {α : Type} {q : Fifo α}

lemma pop?_of_toList_cons {a : α} {l : List α} (h : q.toList = a :: l) :
    ∃ r, q.pop? = some (a, r) ∧ r.toList = l := by
  cases hpop : q.pop? with
  | none => exact absurd (h.symm.trans (pop?_eq_none_iff.1 hpop)) nofun
  | some x =>
    obtain ⟨rfl, rfl⟩ := cons.inj ((toList_eq_cons_of_pop? hpop).symm.trans h)
    exact ⟨x.2, rfl, rfl⟩

end Fifo

/-- The report of a delivery goes to the logger. -/
lemma Actor.target_of_trace {M B : Type} {s : Scheduler M B} {a : Actor} {self : ActorId}
    {message result : Value} {e : Envelope Value}
    (h : e ∈ (a.trace self message result).filterMap s.envelope?) :
    ∃ logger, a.logger = some logger ∧ e.target = logger := by
  obtain ⟨x, hx, he⟩ := mem_filterMap.1 h
  obtain ⟨logger, hlogger, rfl⟩ := mem_map.1 hx
  refine ⟨logger, Option.mem_toList.1 hlogger, ?_⟩
  simp only [envelope?] at he
  split at he
  · cases he
    rfl
  · cases he

namespace Scheduler

variable {M B : Type}

/-- To give an actor the behavior that it has changes nothing for anyone. -/
lemma find?_setBehavior_self {s : Scheduler M B} {entry : Entry B} (found : s.find? id = some entry)
    (id' : ActorId) : (s.setBehavior id entry.behavior).find? id' = s.find? id' := by
  rw [find?_setBehavior]
  split
  · rename_i hid
    rw [hid, found]
    rfl
  · rfl

/-- Without timers there is nowhere to jump to. -/
lemma skipAhead_of_timers {s : Scheduler M B} (timers : s.timers = []) : s.skipAhead = s := by
  rw [skipAhead, timers]
  exact ite_self s

end Scheduler

namespace Configuration

variable {c : Ensemble}

/-- The lines that are printed for messages on the queue. -/
def lines (c : Ensemble) (queue : List (Envelope Value)) : List String :=
  queue.filterMap fun e =>
    match c.find? e.target with
    | some ⟨_, .println⟩ => some e.message.text
    | _ => none

/-- The actor prints its messages, or keeps them. -/
def Records (c : Ensemble) (id : ActorId) : Prop :=
  ∃ name, c.find? id = some ⟨name, .println⟩ ∨ c.find? id = some ⟨name, .logger⟩

lemma Rested.congr (rested : c.Rested) (h : ∀ i, c'.find? i = c.find? i) : c'.Rested :=
  fun i name a found => rested i name a ((h i).symm.trans found)

lemma Records.congr (records : c.Records id) (h : ∀ i, c'.find? i = c.find? i) : c'.Records id :=
  records.imp fun _ found => found.imp (h id).trans (h id).trans

lemma lines_congr (h : ∀ i, c'.find? i = c.find? i) (queue : List (Envelope Value)) :
    c'.lines queue = c.lines queue := by
  simp only [lines, h]

/-- Messages to the printer are printed, and reports are not. -/
lemma lines_mail {name : String} (prints : c.find? printer = some ⟨name, .println⟩)
    {reports : List (Envelope Value)}
    (keeps : ∀ e ∈ reports, ∃ name, c.find? e.target = some ⟨name, .logger⟩) (sent : List Value) :
    c.lines ((sent.map fun m => ⟨printer, m⟩) ++ reports) = sent.map text := by
  have hreports : c.lines reports = [] := by
    refine filterMap_eq_nil_iff.2 fun e he => ?_
    obtain ⟨name, hname⟩ := keeps e he
    rw [hname]
  have happend (l l' : List (Envelope Value)) : c.lines (l ++ l') = c.lines l ++ c.lines l' :=
    filterMap_append
  rw [happend, hreports, append_nil, lines, filterMap_map, ← filterMap_eq_map]
  refine filterMap_congr fun m _ => ?_
  simp only [Function.comp_apply, prints]

lemma dispatch_rested (rested : c.Rested) {wakeups : Fifo ActorId}
    (next : c.wakeups.pop? = some (id, wakeups)) :
    ∃ c', c.dispatch = (true, c') ∧ c'.world = c.world ∧ c'.queue = c.queue ∧
      c'.wakeups = wakeups ∧ c'.timers = c.timers ∧ ∀ i, c'.find? i = c.find? i := by
  cases hfound : c.find? id with
  | none =>
    refine ⟨c.withWakeups wakeups, ?_, rfl, rfl, rfl, rfl, fun _ => rfl⟩
    rw [dispatch_wakeup next, invoke_missing (c := c.withWakeups wakeups) none hfound]
  | some entry =>
    have hresume : Behavior.resume entry.behavior ⟨id, c.clock.now⟩ c.world =
        .done (entry.behavior, c.world) := by
      refine Performer.resume_rested (fun a ha => rested id entry.name a ?_) _ _
      rw [hfound, ← ha]
    refine ⟨⟨(c.withWakeups wakeups).toScheduler.setBehavior id entry.behavior, c.world⟩, ?_, rfl,
      rfl, rfl, rfl, fun i => find?_setBehavior_self
        (s := (c.withWakeups wakeups).toScheduler) hfound i⟩
    have hrespond : Behavior.respond entry.behavior ⟨id, c.clock.now⟩ none c.world =
        .done (entry.behavior, c.world) := hresume
    rw [dispatch_wakeup next, invoke_found (c := c.withWakeups wakeups) none hfound]
    simp only [withWakeups, hrespond, Script.run]

lemma dispatch_records (idle : c.wakeups.pop? = none) {e : Envelope Value}
    {queue : Fifo (Envelope Value)} (next : c.queue.pop? = some (e, queue))
    (records : c.Records e.target) :
    ∃ c', c.dispatch = (true, c') ∧
      c'.world.output.toList = c.world.output.toList ++ c.lines [e] ∧ c'.queue = queue ∧
      c'.wakeups = c.wakeups ∧ c'.timers = c.timers ∧ ∀ i, c'.find? i = c.find? i := by
  obtain ⟨name, hfound | hfound⟩ := records
  · refine ⟨_, dispatch_found idle next hfound, ?_, rfl, rfl, rfl,
      find?_setBehavior_self (s := c.toScheduler.withQueue e.target queue) hfound⟩
    simp only [lines, filterMap_cons, filterMap_nil, hfound]
    exact Array.toList_push
  · refine ⟨_, dispatch_found idle next hfound, ?_, rfl, rfl, rfl,
      find?_setBehavior_self (s := c.toScheduler.withQueue e.target queue) hfound⟩
    simp only [lines, filterMap_cons, filterMap_nil, hfound]
    exact (append_nil _).symm

lemma modify_skipAhead (timers : c.timers = []) : c.modify (·.skipAhead) = c :=
  congrArg (fun s => (⟨s, c.world⟩ : Ensemble))
    (skipAhead_of_timers timers)

/-- With a step that finds something to do, the loop goes on after it. -/
lemma runIdleFrom_succ (timers : c.timers = []) (dispatched : c.dispatch = (true, c'))
    (count limit : Nat) : runIdleFrom count (limit + 1) c = runIdleFrom (count + 1) limit c' := by
  rw [runIdleFrom, modify_skipAhead timers, dispatched]

/-- Messages to actors that print or keep them are printed in the order of the queue. -/
theorem output_runIdle : ∀ (n : Nat) {c : Ensemble}, c.Rested →
    c.timers = [] → (∀ e ∈ c.queue.toList, c.Records e.target) →
    c.wakeups.toList.length + c.queue.toList.length = n → ∀ limit ≥ n, ∀ count,
      (runIdleFrom count limit c).2.world.output.toList =
        c.world.output.toList ++ c.lines c.queue.toList := by
  intro n
  induction n with
  | zero =>
    intro c _ timers _ hn limit _ count
    have hwakeups : c.wakeups.toList = [] := length_eq_zero_iff.1 (Nat.add_eq_zero_iff.1 hn).1
    have hqueue : c.queue.toList = [] := length_eq_zero_iff.1 (Nat.add_eq_zero_iff.1 hn).2
    have hout : c.world.output.toList ++ c.lines c.queue.toList = c.world.output.toList := by
      rw [hqueue]
      exact append_nil _
    rw [hout]
    cases limit with
    | zero => rfl
    | succ limit =>
      rw [runIdleFrom, modify_skipAhead timers, dispatch_nothing (pop?_eq_none_iff.2 hwakeups)
        (pop?_eq_none_iff.2 hqueue)]
  | succ n ih =>
    intro c rested timers records hn limit hlimit count
    obtain ⟨limit, rfl⟩ : ∃ l, limit = l + 1 := ⟨limit - 1, by omega⟩
    -- what is left in the loop, after a step that changes no actor
    have hrest {c' : Ensemble} (hdispatch : c.dispatch = (true, c'))
        (hfind : ∀ i, c'.find? i = c.find? i) (htimers : c'.timers = c.timers)
        (hqueue : ∀ e ∈ c'.queue.toList, e ∈ c.queue.toList)
        (hn' : c'.wakeups.toList.length + c'.queue.toList.length = n) :
        (runIdleFrom count (limit + 1) c).2.world.output.toList =
          c'.world.output.toList ++ c.lines c'.queue.toList := by
      rw [runIdleFrom_succ timers hdispatch, ← lines_congr hfind]
      refine ih (rested.congr hfind) (htimers.trans timers) (fun e he => ?_) hn' limit (by omega) _
      exact (records e (hqueue e he)).congr hfind
    cases hwake : c.wakeups.pop? with
    | some x =>
      obtain ⟨c', hdispatch, hworld, hqueue, hwakeups, htimers, hfind⟩ :=
        dispatch_rested rested hwake
      have hlength := congrArg length (toList_eq_cons_of_pop? hwake)
      rw [length_cons] at hlength
      rw [hrest hdispatch hfind htimers (fun e he => hqueue ▸ he) (by rw [hwakeups, hqueue]; omega),
        hworld, hqueue]
    | none =>
      obtain ⟨e, queue, hnext⟩ : ∃ e queue, c.queue.pop? = some (e, queue) := by
        cases hpop : c.queue.pop? with
        | some x => exact ⟨x.1, x.2, rfl⟩
        | none =>
          rw [pop?_eq_none_iff.1 hwake, pop?_eq_none_iff.1 hpop] at hn
          cases hn
      have hcons := toList_eq_cons_of_pop? hnext
      have hlength := congrArg length hcons
      rw [length_cons] at hlength
      obtain ⟨c', hdispatch, houtput, hqueue, hwakeups, htimers, hfind⟩ :=
        dispatch_records hwake hnext (records e (hcons ▸ mem_cons_self))
      rw [hrest hdispatch hfind htimers (fun e' he => hcons ▸ mem_cons_of_mem e (hqueue ▸ he))
        (by rw [hwakeups, hqueue]; omega), houtput, hqueue, hcons, append_assoc]
      simp only [lines, ← filterMap_append, singleton_append]

end Configuration

namespace Session

/-- The session, with another amount of fuel for each run of a task. -/
def withFuel (x : Session) (fuel : Nat) : Session := { x with config := x.config.withFuel fuel }

/-- Nothing is in progress, the top-level actor gives back the blocks that it is handed, and
`println` is an actor that prints. -/
structure AtRest (x : Session) (printer : ActorId) : Prop where
  queue : x.config.queue.toList = []
  wakeups : x.config.wakeups.toList = []
  timers : x.config.timers = []
  rested : x.config.Rested
  top : ∃ name a f, x.config.find? x.top = some ⟨name, .program a⟩ ∧ a.behavior = .native f ∧
    x.config.world.store.heap.natives[f.index]? = some .identity ∧
    ∀ logger, a.logger = some logger → ∃ name, x.config.find? logger = some ⟨name, .logger⟩
  println : x.config.world.store.heap.lookup "println" x.global = .value (.actor printer) ∧
    ∃ name, x.config.find? printer = some ⟨name, .println⟩

/-- The configuration once statements were handed to the top-level actor. -/
def handOver (x : Session) (stmt : Stmt) : Ensemble :=
  ⟨Scheduler.resume { x.config.toScheduler with
      journal := x.config.journal.record x.config.clock.now (.sent x.top)
      queue := x.config.queue.push ⟨x.top, .block x.config.world.store.heap.blocks.size⟩ },
    { x.config.world with
      store := { x.config.world.store with
        heap := (x.config.world.store.heap.newBlock ⟨stmt.declared, stmt, x.global⟩).2 } }⟩

lemma execute_eq (registered : x.config.contains x.top = true) (stmt : Stmt) (fuel : Nat) :
    (x.withFuel fuel).execute stmt = .ok { x with config := (x.handOver stmt).withFuel fuel } := by
  obtain ⟨⟨s, store, output, traces, fuel', exhausted⟩, global, top, logger⟩ := x
  have hcontains : s.contains top = true := registered
  simp only [execute, withFuel, Configuration.withFuel, onStore, Store.onHeap, send, Scheduler.send,
    hcontains, if_true]
  rfl

/-- The top-level actor is about to run the statements. -/
lemma AtRest.executes (h : x.AtRest printer) (stmt : Stmt) :
    ∃ a queue, (x.handOver stmt).Executes x.top a
    (.block x.config.world.store.heap.blocks.size) queue
        stmt x.global (x.handOver stmt).world.store.heap ∧ queue.toList = [] ∧
      ∀ logger, a.logger = some logger → ∃ name, x.config.find? logger = some ⟨name, .logger⟩ := by
  obtain ⟨name, a, f, hfound, hbehavior, hnative, hlogger⟩ := h.top
  have hqueue : (x.handOver stmt).queue.toList =
      [⟨x.top, .block x.config.world.store.heap.blocks.size⟩] := by
    change (x.config.queue.push _).toList = _
    rw [toList_push, h.queue]
    rfl
  obtain ⟨queue, hnext, hempty⟩ := pop?_of_toList_cons hqueue
  refine ⟨a, queue, ⟨pop?_eq_none_iff.2 h.wakeups, hnext, ⟨name, hfound⟩,
    h.rested _ _ _ hfound, ?_⟩, hempty, hlogger⟩
  rw [hbehavior]
  refine answers_identity hnative ?_
  simp only [Heap.block?, handOver, Heap.newBlock, Array.getElem?_push, if_true]

/-- A session in which nothing is in progress prints what it is told to print: each message once,
and up to the limit of nesting in order. -/
theorem exists_printing (h : x.AtRest printer) (ms : List Value) :
    ∃ sent bound, sent.Perm ms ∧ (ms.length ≤ maxNesting → sent = ms) ∧ ∀ fuel ≥ bound,
      ∃ y, (x.withFuel fuel).execute (.sends (.ident "println") ms) = .ok y ∧
        ∃ enough, ∀ limit ≥ enough, (y.runUntilIdle limit).2.config.world.output.toList =
          x.config.world.output.toList ++ sent.map text := by
  set stmt := Stmt.sends (.ident "println") ms with hstmt
  obtain ⟨a, queue, hexecutes, hempty, hlogger⟩ := h.executes stmt
  obtain ⟨hlookup, printing, hprinter⟩ := h.println
  have hpoints : (Expr.ident "println").Points x.global
      (x.handOver stmt).world.store.heap printer :=
    .ident ((Heap.lookup_newBlock _ _ _ _).trans hlookup)
  have hregistered : (x.handOver stmt).contains printer = true := by
    change (x.config.find? printer).isSome = true
    rw [hprinter]
    rfl
  obtain ⟨sent, bound, hperm, horder, hdispatches⟩ :=
    Configuration.exists_dispatch_sends hexecutes hpoints hregistered
  refine ⟨sent, bound, hperm, horder, fun fuel hfuel => ?_⟩
  obtain ⟨-, hmoved, houtput, hfind, htimers, hqueue⟩ := hdispatches fuel hfuel
  set c := (x.handOver stmt).withFuel fuel with hc
  set c1 := c.dispatch.2
  have htop : x.config.contains x.top = true := by
    obtain ⟨name, hfound⟩ := hexecutes.found
    have hfound' : x.config.find? x.top = some ⟨name, .program a⟩ := hfound
    rw [Scheduler.contains, hfound']
    rfl
  refine ⟨_, execute_eq htop stmt fuel, c1.wakeups.toList.length + c1.queue.toList.length + 1,
    fun limit hlimit => ?_⟩
  obtain ⟨limit, rfl⟩ : ∃ l, limit = l + 1 := ⟨limit - 1, by omega⟩
  have hfind' : ∀ i, c1.find? i = x.config.find? i := hfind
  have hrested : c1.Rested := h.rested.congr hfind'
  have hrun := Configuration.runIdleFrom_succ (c := c) h.timers (Prod.ext hmoved rfl) 0 limit
  rw [hempty, nil_append] at hqueue
  set reports := (a.trace x.top (.block x.config.world.store.heap.blocks.size)
    (Effects.mail printer sent).report).filterMap (x.handOver stmt).envelope?
  have hprints : c1.find? printer = some ⟨printing, .println⟩ := (hfind' printer).trans hprinter
  have hkeeps : ∀ e ∈ reports, ∃ name, c1.find? e.target = some ⟨name, .logger⟩ := by
    intro e he
    obtain ⟨logger, hsome, htarget⟩ := Actor.target_of_trace he
    rw [htarget, hfind']
    exact hlogger logger hsome
  have hrecords : ∀ e ∈ c1.queue.toList, c1.Records e.target := by
    intro e he
    rw [hqueue] at he
    rcases mem_append.1 he with he | he
    · obtain ⟨m, -, rfl⟩ := mem_map.1 he
      exact ⟨printing, .inl hprints⟩
    · obtain ⟨name, hname⟩ := hkeeps e he
      exact ⟨name, .inr hname⟩
  have hprinted :=
    Configuration.output_runIdle _ hrested (htimers.trans h.timers) hrecords rfl limit
    (by omega) 1
  rw [hqueue, Configuration.lines_mail hprints hkeeps, houtput] at hprinted
  exact (congrArg (fun r => r.2.world.output.toList) hrun).trans hprinted

lemma registry_ofSettings (settings : Settings) (fuel : Nat) :
    (ofSettings settings fuel).config.registry =
      [(⟨1⟩, ⟨"logger", .logger⟩), (⟨2⟩, ⟨"println", .println⟩), (⟨3⟩, ⟨"sink", .sink⟩),
        (⟨4⟩, ⟨"timer", .timer⟩), (⟨5⟩, ⟨"random", .random (.ofSeed settings.seed)⟩),
        (⟨6⟩, ⟨"repl", .program
          ⟨.native ⟨19, "repl"⟩, .global 0 .empty, some ⟨1⟩, true, none, []⟩⟩)] := rfl

/-- Nothing is in progress in a new session. -/
lemma atRest_ofSettings (settings : Settings) (fuel : Nat) :
    (ofSettings settings fuel).AtRest ⟨2⟩ where
  queue := rfl
  wakeups := rfl
  timers := rfl
  rested := by
    intro id name a found
    rw [Scheduler.find?, registry_ofSettings] at found
    simp only [lookup_cons, lookup_nil] at found
    repeat' split at found
    all_goals cases found
    exact ⟨rfl, rfl⟩
  top := ⟨_, _, _, rfl, rfl, rfl, fun logger hlogger => by cases hlogger; exact ⟨_, rfl⟩⟩
  println := by
    -- the names of a new session do not depend on its settings
    have hlookup : (ofSettings {} 0).config.world.store.heap.lookup? "println" (.global 0 .empty) =
        some (.actor ⟨2⟩) := by decide +kernel
    refine ⟨?_, _, rfl⟩
    change (ofSettings {} 0).config.world.store.heap.lookup "println" (.global 0 .empty) = _
    rw [Heap.lookup?] at hlookup
    split at hlookup
    · rename_i v hv
      cases hlookup
      exact hv
    · cases hlookup

end Session

open Session

/-- The sends of one block. A delivery that runs a block of sends of constants to a registered actor
commits, whether the message has just arrived or comes from a backlog with others behind it. Its
sends are those of the program, each exactly once, and up to as many as the limit of nesting they
are gathered and put on the queue in program order. Once they were dispatched so, the actor gets
them in that order, behind what stood on the queue for it before, whatever happens next. Likewise a
session in which nothing is in progress prints the lines that it is told to print, each exactly
once, and up to the limit in order. -/
theorem sends_in_order_up_to_limit (ms : List Value) :
    (∀ (a : Actor) (moment : Moment) (message : Value) (rest : List Value) (w : World) (s : Stage)
      (id : ActorId) (target : Expr) (env : Env) (h' : Heap),
      a.behavior.Answers message w.store.heap (.sends target ms) env h' → target.Points env h' id →
      s.contains id = true →
      ∃ sent bound, sent.Perm ms ∧ (ms.length ≤ maxNesting → sent = ms) ∧ ∀ fuel ≥ bound,
        a.Gathers moment message { w with fuel } s id sent ∧
        ∃ w' s', (Actor.serve moment (message :: rest) a { w with fuel }).run s =
            (Actor.serve moment rest a w').run s' ∧
          s'.queue.toList = s.queue.toList ++ ((sent.map fun m => ⟨id, m⟩) ++
            (a.trace moment.self message (Effects.mail id sent).report).filterMap s.envelope?)) ∧
    (∀ (c : Ensemble) (self id : ActorId) (a : Actor) (message : Value)
      (queue : Fifo (Envelope Value)) (target : Expr) (env : Env) (h' : Heap),
      c.Executes self a message queue (.sends target ms) env h' → target.Points env h' id →
      c.contains id = true →
      ∃ sent bound, sent.Perm ms ∧ (ms.length ≤ maxNesting → sent = ms) ∧ ∀ fuel ≥ bound,
        a.Gathers ⟨self, c.clock.now⟩ message { c.world with fuel }
          (c.toScheduler.withQueue self queue) id sent ∧
        (c.withFuel fuel).dispatch.2.queue.toList = queue.toList ++ ((sent.map fun m => ⟨id, m⟩) ++
          (a.trace self message (Effects.mail id sent).report).filterMap c.envelope?) ∧
        ∀ acts s, (c.withFuel fuel).dispatch.2.toScheduler.Steps acts s → ∃ later,
          queue.toList.filter (·.target = id) ++ ((sent.map fun m => ⟨id, m⟩) ++ later) =
            (acts.flatMap Act.delivered).filter (·.target = id) ++
              s.queue.toList.filter (·.target = id)) ∧
    ∀ (x : Session) (printer : ActorId), x.AtRest printer →
      ∃ sent bound, sent.Perm ms ∧ (ms.length ≤ maxNesting → sent = ms) ∧ ∀ fuel ≥ bound,
        ∃ y, (x.withFuel fuel).execute (.sends (.ident "println") ms) = .ok y ∧
          ∃ enough, ∀ limit ≥ enough, (y.runUntilIdle limit).2.config.world.output.toList =
            x.config.world.output.toList ++ sent.map text := by
  refine ⟨fun a moment message rest w s id target env h' answers points registered => ?_,
    fun c self id a message queue target env h' executes points registered => ?_,
    fun x printer rest => exists_printing rest ms⟩
  · obtain ⟨sent, bound, hperm, horder, hserve⟩ :=
      Actor.exists_serve_sends moment answers points registered rest
    refine ⟨sent, bound, hperm, horder, fun fuel hfuel => ?_⟩
    obtain ⟨hgathers, w', s', hrun, -, -, -, hqueue⟩ := hserve fuel hfuel
    exact ⟨hgathers, w', s', hrun, hqueue⟩
  obtain ⟨sent, bound, hperm, horder, hdispatch⟩ :=
    Configuration.exists_dispatch_sends executes points registered
  refine ⟨sent, bound, hperm, horder, fun fuel hfuel => ?_⟩
  obtain ⟨hgathers, -, -, hfind, -, hqueue⟩ := hdispatch fuel hfuel
  refine ⟨hgathers, hqueue, fun acts s steps => ?_⟩
  have hregistered : (c.withFuel fuel).dispatch.2.contains id = true := by
    rw [Scheduler.contains, hfind]
    exact registered
  obtain ⟨-, later, hlater⟩ := steps.delivered_filter hregistered
  refine ⟨((a.trace self message (Effects.mail id sent).report).filterMap c.envelope?).filter
    (·.target = id) ++ later, ?_⟩
  have hsent : (sent.map fun m => (⟨id, m⟩ : Envelope Value)).filter (·.target = id) =
      sent.map fun m => ⟨id, m⟩ := by
    refine filter_eq_self.2 fun e he => ?_
    obtain ⟨m, -, rfl⟩ := mem_map.1 he
    exact decide_eq_true rfl
  rw [← hlater, hqueue, filter_append, filter_append, hsent]
  simp only [append_assoc]

/-- A new session that was told to print two values. -/
def Session.told : Ensemble :=
  (ofSettings {} 0).handOver (.sends (.ident "println") [.nil, .undefined])

theorem told_sends_in_order :
    (∃ a queue, told.Executes ⟨6⟩ a (.block 0) queue (.sends (.ident "println") [.nil, .undefined])
        (.global 0 .empty) told.world.store.heap ∧
      ∃ bound, ∀ fuel ≥ bound, a.Gathers ⟨⟨6⟩, 0⟩ (.block 0) { told.world with fuel }
        (told.toScheduler.withQueue ⟨6⟩ queue) ⟨2⟩ [.nil, .undefined]) ∧
    ∃ bound, ∀ fuel ≥ bound, ∃ y,
      ((ofSettings {} 0).withFuel fuel).execute (.sends (.ident "println") [.nil, .undefined]) =
        .ok y ∧
      ∃ enough, ∀ limit ≥ enough, (y.runUntilIdle limit).2.config.world.output.toList =
        [Value.nil, .undefined].map Value.text := by
  have hrest := atRest_ofSettings {} 0
  constructor
  · obtain ⟨a, queue, hexecutes, -⟩ := hrest.executes (.sends (.ident "println") [.nil, .undefined])
    obtain ⟨sent, bound, -, horder, hsent⟩ :=
      (sends_in_order_up_to_limit [.nil, .undefined]).2.1 told
      ⟨6⟩ ⟨2⟩ a (.block 0) queue (.ident "println") (.global 0 .empty) _ hexecutes
      (.ident ((Heap.lookup_newBlock _ _ _ _).trans hrest.println.1)) rfl
    cases horder (by decide)
    exact ⟨a, queue, hexecutes, bound, fun fuel hfuel => (hsent fuel hfuel).1⟩
  · obtain ⟨sent, bound, -, horder, hprinted⟩ :=
      (sends_in_order_up_to_limit [.nil, .undefined]).2.2 (ofSettings {} 0) ⟨2⟩ hrest
    cases horder (by decide)
    exact ⟨bound, hprinted⟩

/-- With one send more than the limit of nesting, lines are out of order: the operands of one send
are detached, and so are, as a whole, the two sends behind it, which are then made first. -/
theorem thirtyThree_lines_out_of_order :
    ∃ y, (ofSettings {} 400).execute (.sends (.ident "println")
        ((range 33).map fun n => .number (Int64.ofNat n))) = .ok y ∧
      (y.runUntilIdle 100).2.config.world.output.toList =
        (range 30).map toString ++ ["31", "32", "30"] ∧
      (y.runUntilIdle 100).2.config.world.output.toList ≠ (range 33).map toString :=
  ⟨_, rfl, by decide +kernel, by decide +kernel⟩

end Troupe
