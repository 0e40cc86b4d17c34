import Troupe.Proofs.Addresses

/-!
No address is used twice.

Whoever is registered stays, and whoever registers takes an address that is free: a host that
creates an actor, a delivery that is committed, and an evaluation from outside. So no request is
ever refused because an address was taken (`Act.Seated`).

* `addresses_fresh`: for all configurations whose hosts keep to the addresses that they were handed
  out, and for all sessions.
-/

namespace Troupe

open Effects List Scheduler Script Session Troupe.Configuration

variable {w : World} {x : Session} {s : Stage} {id : ActorId} {r : List Staging}

/-- No request was refused because an address was taken. -/
def Act.Seated {M B : Type} (acts : List (Act M B)) : Prop :=
  ∀ id, refused (.alreadyRegistered id) ∉ acts

namespace Script

variable {M B α β : Type}

lemma acts_bind (x : Script M B α) (f : α → Script M B β) (s : Scheduler M B) :
    (x.bind f).acts s = x.acts s ++ (f (x.run s).1).acts (x.run s).2 := by
  induction x generalizing s with
  | done a => rfl
  | send m t k ih | sendAfter d m t k ih | create b n k ih | createReserved id b n k ih
  | reserve k ih
  | takeWakeup k ih => exact congrArg (cons _) (ih _ _)
  | issued k ih => exact ih _ _
  | wake id k ih => exact congrArg (cons _) (ih _)
  | countWakeups k ih => exact ih _ _

lemma seated_bind {x : Script M B α} {f : α → Script M B β} {s : Scheduler M B}
    (hx : Act.Seated (x.acts s)) (hf : Act.Seated ((f (x.run s).1).acts (x.run s).2)) :
    Act.Seated ((x.bind f).acts s) := by
  intro id hid
  rw [acts_bind, mem_append] at hid
  exact hid.elim (hx id) (hf id)

/-- A send that is refused has no target. -/
lemma seated_send (m : M) (t : ActorId) (k : Except Fault Unit → Script M B α) (s : Scheduler M B)
    (rest : ∀ r s, Act.Seated ((k r).acts s)) : Act.Seated ((send m t k).acts s) := by
  intro id hid
  rcases mem_cons.1 hid with heq | hid
  · rw [send_eq] at heq
    split at heq <;> cases heq
  · exact rest _ _ id hid

lemma seated_sendAfter (d : Millis) (m : M) (t : ActorId) (k : Except Fault Unit → Script M B α)
    (s : Scheduler M B) (rest : ∀ r s, Act.Seated ((k r).acts s)) :
    Act.Seated ((sendAfter d m t k).acts s) := by
  intro id hid
  rcases mem_cons.1 hid with heq | hid
  · rw [sendAfter_eq] at heq
    split at heq <;> cases heq
  · exact rest _ _ id hid

lemma seated_sendAll (sends : List PendingSend) (s : Scheduler Value B) :
    Act.Seated ((sendAll sends : Script Value B Unit).acts s) := by
  induction sends generalizing s with
  | nil => exact fun _ hid => absurd hid not_mem_nil
  | cons x sends ih =>
    obtain ⟨message, target, delay⟩ := x
    cases delay with
    | none => exact seated_send _ _ _ _ fun _ s => ih s
    | some delay => exact seated_sendAfter _ _ _ _ _ fun _ s => ih s

/-- Actors with different addresses that are free are all registered. -/
lemma seated_register (logger : Option ActorId) {staged : List StagedActor}
    (nodup : (staged.map (·.id)).Nodup) (free : ∀ b ∈ staged, s.contains b.id = false) :
    Act.Seated ((register logger staged).acts s) := by
  induction staged generalizing s with
  | nil => exact fun _ hid => absurd hid not_mem_nil
  | cons b staged ih =>
    obtain ⟨hnotin, hnodup⟩ := nodup_cons.1 nodup
    have hfree := free b (mem_cons_self ..)
    have hgranted : s.createReserved b.id
        (.program { behavior := b.behavior, env := b.env, logger }) b.name = .ok (s.register b.id
          (.program { behavior := b.behavior, env := b.env, logger }) b.name) := by
      rw [Scheduler.createReserved, if_neg (by rw [hfree]; simp)]
    intro id hid
    simp only [register, acts, hgranted, settle, Act.ofGrant] at hid
    rcases mem_cons.1 hid with heq | hid
    · cases heq
    · refine ih hnodup (fun c hc => ?_) id hid
      have hne : c.id ≠ b.id := fun heq => hnotin (mem_map.2 ⟨c, hc, heq⟩)
      rw [Scheduler.contains, Scheduler.find?_register, if_neg hne]
      exact free c (mem_cons_of_mem _ hc)

end Script

/-- Effects whose actors have different addresses that are free take place as a whole. -/
lemma seated_flush {e : Effects} (logger : Option ActorId)
    (nodup : (e.created.toList.map (·.id)).Nodup)
    (free : ∀ b ∈ e.created.toList, s.contains b.id = false) :
    Act.Seated ((e.flush logger).acts s) :=
  seated_bind (seated_register logger nodup free) (seated_sendAll _ _)

lemma World.seated_passWakeups (w : World) (s : Stage) : Act.Seated (w.passWakeups.acts s) := by
  have hwake : ∀ (ids : List ActorId) (s : Stage),
      Act.Seated ((wakeAll ids : Response Unit).acts s) := by
    intro ids
    induction ids with
    | nil => exact fun _ _ hid => absurd hid not_mem_nil
    | cons id ids ih =>
      intro s id' hid
      rcases mem_cons.1 hid with heq | hid
      · cases heq
      · exact ih _ id' hid
  exact seated_bind (hwake _ s) fun _ hid => absurd hid not_mem_nil

/-- When a delivery is settled, no address is taken if those that it has staged are different and
free. -/
lemma Actor.seated_settle (a : Actor) (self : ActorId) (d : Delivery) (outcome : Outcome)
    (staged : ∀ e, w.store.transaction d.transaction = .gathering e →
      (e.created.toList.map (·.id)).Nodup ∧ ∀ b ∈ e.created.toList, s.contains b.id = false) :
    Act.Seated ((a.settle self d outcome w).acts s) := by
  have hreport : ∀ (a : Actor) (message result : Value) (s : Stage),
      Act.Seated ((a.report self message result).acts s) := by
    intro a message result s
    unfold report
    cases a.logger with
    | none => exact fun _ hid => absurd hid not_mem_nil
    | some logger => exact seated_send _ _ _ _ fun _ _ _ hid => absurd hid not_mem_nil
  have hrest : ∀ (x : Value × Actor × World) (s : Stage), Act.Seated ((do
      x.2.1.report self d.message x.1
      let w ← (closeTask d x.2.2).passWakeups
      return (x.2.1, w) : Response (Actor × World)).acts s) := fun x s =>
    seated_bind (hreport _ _ _ _) (seated_bind (World.seated_passWakeups _ _)
      fun _ hid => absurd hid not_mem_nil)
  unfold settle
  dsimp only
  split
  · exact seated_bind (x := a.revert d w) (fun _ hid => absurd hid not_mem_nil)
      (hrest ((a.revert d w).run s).1 ((a.revert d w).run s).2)
  · refine seated_bind (x := a.commit d outcome w) ?_
      (hrest ((a.commit d outcome w).run s).1 ((a.commit d outcome w).run s).2)
    have hflush : Act.Seated (((w.store.transaction d.transaction).commit.1.flush
        (a.next outcome).logger).acts s) := by
      cases htx : w.store.transaction d.transaction with
      | gathering e =>
        obtain ⟨hnodup, hfree⟩ := staged e htx
        exact seated_flush _ hnodup hfree
      | failed y =>
        exact seated_flush _ nodup_nil fun b hb => absurd hb not_mem_nil
    exact seated_bind hflush fun _ hid => absurd hid not_mem_nil

namespace Session

/-- The acts of an evaluation from outside: what it has asked for is done, if it has a value. -/
def evaluateActs (x : Session) (e : Expr) : List (Act Value Performer) :=
  match (x.evaluation e).1.advance x.config.world.fuel (x.evaluation e).2 with
  | none => []
  | some (task, store) =>
    match task.answer? with
    | none => []
    | some _ => ((store.transaction task.context.transaction).commit.1.flush (some x.logger)).acts
        { x.config.toScheduler with ids := store.ids }

variable {m : Moment} {a : Actor} {d : Delivery} {current : Option Delivery} {backlog : List Value}
  {r' : List Staging}

/-- What an evaluation has staged is free. -/
lemma Books.seated_evaluate (h : x.Books r) (e : Expr) : Act.Seated (x.evaluateActs e) := by
  obtain ⟨own, h⟩ := h
  unfold evaluateActs
  split
  · exact fun _ hid => absurd hid not_mem_nil
  · rename_i task store hrun
    split
    · exact fun _ hid => absurd hid not_mem_nil
    · cases htx : store.transaction task.context.transaction with
      | gathering effects =>
        obtain ⟨hnodup, hnew⟩ := staged_evaluation hrun htx
        refine seated_flush _ hnodup fun b hb => ?_
        rw [← Bool.not_eq_true, contains_eq_true_iff]
        rintro ⟨entry, hentry⟩
        exact absurd (h.regular.registered b.id entry hentry).1 (Nat.not_le.2 (hnew b hb).1)
      | failed y =>
        exact seated_flush _ nodup_nil fun b hb => absurd hb not_mem_nil

end Session

namespace Booked

variable {own : ActorId → Option Nat} {D : ActorId → Delivery → Prop} {d : Delivery}

/-- An address that belongs to someone is not registered. -/
lemma free_of_own (h : Booked own D s w r) {task : Nat} (hid : own id = some task) :
    s.contains id = false := by
  rw [← Bool.not_eq_true, contains_eq_true_iff]
  rintro ⟨e, he⟩
  rw [(h.regular.registered id e he).2] at hid
  cases hid

/-- When a delivery is settled, all that it has staged is registered. -/
lemma seated (h : Booked own D s w r) (hd : D id d) (a : Actor) (self : ActorId)
    (outcome : Outcome) : Act.Seated ((a.settle self d outcome w).acts s) := by
  have hgood := h.regular.good id d hd
  refine a.seated_settle self d outcome fun e he => ?_
  rw [← hgood.transaction] at he
  obtain ⟨hnodup, hown⟩ := hgood.charged.staged he
  exact ⟨hnodup, fun b hb => h.free_of_own (hown b hb).1⟩

end Booked

/-! ### Who is registered stays -/

namespace Session

/-- A dispatch leaves all entries as they are, except for the behavior of an actor that has run. -/
lemma find?_dispatch {entry : Entry Performer} (found : x.config.find? id = some entry) :
    x.config.dispatch.2.find? id = some entry ∨
      ∃ b, Act.settled id b ∈ x.config.dispatchActs ∧
        x.config.dispatch.2.find? id = some { entry with behavior := b } := by
  have hinvoke : ∀ (c : Ensemble) (target : ActorId)
      (message : Option Value), c.find? id = some entry →
        (c.invoke target message).find? id = some entry ∨
          ∃ b, Act.settled id b ∈ c.invokeActs target message ∧
            (c.invoke target message).find? id = some { entry with behavior := b } := by
    intro c target message hfound
    cases htarget : c.find? target with
    | none =>
      rw [invoke_missing message htarget]
      exact .inl hfound
    | some e =>
      have hkept := ((e.behavior.tame_respond ⟨target, c.clock.now⟩ message c.world).run
        c.toScheduler).kept id entry hfound
      rw [invoke_found message htarget, invokeActs, htarget]
      have hsame : Behavior.respond e.behavior ⟨target, c.clock.now⟩ message c.world =
          e.behavior.respond ⟨target, c.clock.now⟩ message c.world := by cases message <;> rfl
      dsimp only
      rw [hsame, find?_setBehavior, hkept]
      by_cases hid : id = target
      · subst hid
        rw [if_pos rfl]
        exact .inr ⟨_, mem_append_right _ (mem_singleton_self _), rfl⟩
      · rw [if_neg hid]
        exact .inl rfl
  cases hwake : x.config.wakeups.pop? with
  | some y =>
    obtain ⟨target, wakeups⟩ := y
    rw [dispatch_wakeup hwake]
    refine (hinvoke (x.config.withWakeups wakeups) target none found).imp_right ?_
    rintro ⟨b, hb, hfind⟩
    refine ⟨b, ?_, hfind⟩
    rw [dispatchActs, hwake]
    exact mem_cons_of_mem _ hb
  | none =>
    cases hqueue : x.config.queue.pop? with
    | none =>
      rw [dispatch_nothing hwake hqueue]
      exact .inl found
    | some y =>
      obtain ⟨e, queue⟩ := y
      rw [dispatch_message hwake hqueue]
      refine (hinvoke (x.config.withQueue e.target queue) e.target (some e.message)
        found).imp_right ?_
      rintro ⟨b, hb, hfind⟩
      refine ⟨b, ?_, hfind⟩
      simp only [dispatchActs, hwake, hqueue]
      cases x.config.find? e.target with
      | none | some => exact mem_cons_of_mem _ hb

/-- An evaluation from outside leaves all entries as they are. -/
lemma find?_evaluate {entry : Entry Performer} (found : x.config.find? id = some entry) (e : Expr)
    (alive : (x.evaluate e).2.config.world.exhausted = false) :
    (x.evaluate e).2.config.find? id = some entry := by
  obtain ⟨task, after, effects, store, hev⟩ := x.evaluates e alive
  have htame : (effects.flush (some x.logger)).Tame Performer.Fresh :=
    (tame_register ..).bind fun _ => tame_sendAll _
  have hkept := (htame.run { x.config.toScheduler with ids := after.ids }).kept id entry found
  rw [run_flush] at hkept
  rwa [hev.result]

end Session

/-! ### The main result -/

/-- No address is above the counter, a new actor takes a free one and nothing else changes,
different tasks have staged different addresses, and those of a delivery that is under way are
free. -/
structure Fresh (D : ActorId → Delivery → Prop) (s : Stage) (r : List Staging) :
    Prop where
  bounded : ∀ id e, (id, e) ∈ s.registry → id.raw ≤ s.ids.issued
  create : ∀ p name, s.contains (s.create p name).1 = false ∧
    (s.create p name).2.registry = s.registry ++ [((s.create p name).1, ⟨name, p⟩)]
  distinct : ∀ x ∈ r, ∀ y ∈ r, x.id = y.id → x.task = y.task
  free : ∀ id d, D id d → ∀ x ∈ r, x.task = d.task.context.task → s.contains x.id = false

lemma Booked.fresh {own : ActorId → Option Nat} {D : ActorId → Delivery → Prop}
    (h : Booked own D s w r) : Fresh D s r :=
  have hbounded := fun id e he => (h.regular.registered id e he).1
  ⟨hbounded, create_fresh hbounded, h.unique, fun _ _ hd _ hx ht =>
    h.free_of_own (h.underway _ _ hd _ hx ht)⟩

/-- Addresses are used once. In a configuration, whatever its behaviors are and whatever its host
tells it to do, as long as actors join under addresses only that were handed out: the books of
addresses and actors are right at every moment. In a session: whoever stages, delivery or
evaluation, stages under addresses of its own that are free, and no address is refused when actors
are registered; entries stay, except for the behavior of an actor that has run. -/
theorem addresses_fresh :
    (∀ {M B W : Type} [Behavior M B W] (settings : Settings) (world : W)
        (commands : List (Command M B)),
      let start : Configuration M B W := .ofSettings settings world
      Act.Earned (start.history commands) → ∀ acts rest s, start.history commands = acts ++ rest →
        start.toScheduler.Steps acts s → s.Issued acts ∧ ∀ b name,
          s.contains (s.create b name).1 = false ∧
            (s.create b name).2.registry = s.registry ++ [((s.create b name).1, ⟨name, b⟩)]) ∧
    (∀ x : Session, x.Reachable → ∃ r, x.Ledger r) ∧
    ∀ (x : Session) (r : List Staging), x.Ledger r →
      Fresh x.config.Waiting x.config.toScheduler r ∧
      (∀ s w m a current backlog r', x.Stages r s w m a current backlog r' →
        Fresh (s.Beside m.self current) s r' ∧ ∀ d outcome, current = some d →
          d.task.answer? = some outcome → Act.Seated ((a.settle m.self d outcome w).acts s)) ∧
      (∀ e log task after, (x.evaluation e).1.Poll (x.evaluation e).2 log task after →
        ∀ id ∈ Request.stages log, x.config.contains id = false) ∧
      (∀ e, Act.Seated (x.evaluateActs e)) ∧
      (∀ id entry, x.config.find? id = some entry →
        (x.config.dispatch.2.find? id = some entry ∨ ∃ b, Act.settled id b ∈ x.config.dispatchActs ∧
          x.config.dispatch.2.find? id = some { entry with behavior := b }) ∧
        ∀ e, (x.evaluate e).2.config.world.exhausted = false →
          (x.evaluate e).2.config.find? id = some entry) := by
  refine ⟨?_, fun x hx => hx.ledger, fun x r h => ?_⟩
  · intro M B W _ settings world commands start earned acts rest s hacts hsteps
    rw [hacts] at earned
    have hissued := Scheduler.Steps.issued hsteps earned.of_append
    exact ⟨hissued, create_fresh fun id e he => (hissued.bounded id e he).2⟩
  · have hbooks := h.books
    obtain ⟨own, hbooked⟩ := hbooks
    refine ⟨hbooked.fresh, fun s w m a current backlog r' hstages => ?_, ?_, ?_, ?_⟩
    · obtain ⟨own', hpoint⟩ := hstages.booked h.books
      refine ⟨hpoint.fresh, ?_⟩
      rintro d outcome rfl -
      exact hpoint.seated (.inl ⟨rfl, rfl⟩) a m.self outcome
    · intro e log task after polled id hid
      have hlog := owned_evaluation polled
      rw [← Bool.not_eq_true, contains_eq_true_iff]
      rintro ⟨entry, hentry⟩
      exact absurd (hbooked.regular.registered id entry hentry).1 (Nat.not_le.2 (hlog id hid).1)
    · exact h.books.seated_evaluate
    · exact fun id entry found =>
        ⟨find?_dispatch found, fun e alive => find?_evaluate found e alive⟩

/-- A host that reserves an address, creates an actor and lets another one join. -/
def twoNewcomers : List (Command Value Performer) :=
  [.ask (.reserve fun id => .create .sink "second" fun _ =>
    .createReserved id .println "first" fun _ => .done ())]

/-- A new session whose top-level actor is handed a new actor. -/
def founding : Except Fault Session :=
  (Session.ofSettings {} 40).execute (.create "a" (.const (.number 1)))

theorem newcomers_fresh :
    (∃ s : Scheduler Value Performer, s.registry.map Prod.fst = [⟨2⟩, ⟨1⟩] ∧
      ∃ acts, (Scheduler.ofSettings {}).Steps acts s ∧ Act.Earned acts ∧ s.Issued acts) ∧
    ∃ x s w m a d backlog r r', founding = .ok x ∧ x.Ledger r ∧
      x.Stages r s w m a (some d) backlog r' ∧ ⟨d.task.context.task, ⟨7⟩⟩ ∈ r' ∧
      s.contains ⟨7⟩ = false ∧ d.task.answer? = some .ok ∧
      Act.Seated ((a.settle m.self d .ok w).acts s) := by
  constructor
  · set start : Configuration Value Performer World := .ofSettings {} { fuel := 0 }
    have hearned : Act.Earned (start.history twoNewcomers) := by
      rintro (_ | ⟨_, _ | ⟨_, _ | ⟨_, before⟩⟩⟩) id entry after h
      · cases h
      · cases h
      · cases h
        exact List.mem_cons_self ..
      · cases before <;> cases h
    have hsteps := (start.timely_history twoNewcomers).steps
    refine ⟨_, ?_, _, hsteps, hearned, ?_⟩
    · decide +kernel
    · exact (addresses_fresh.1 {} _ twoNewcomers hearned _ [] _ (List.append_nil _).symm hsteps).1
  · obtain ⟨x, hx, hpoints⟩ : ∃ x, founding = .ok x ∧ ∀ r, ∃ s w a d backlog r',
        x.Stages r s w ⟨⟨6⟩, 0⟩ a (some d) backlog r' ∧ ⟨d.task.context.task, ⟨7⟩⟩ ∈ r' ∧
          d.task.answer? = some .ok := by
      refine ⟨founding.toOption.getD (Session.ofSettings {} 40), rfl, fun r => ?_⟩
      have hbegins := Session.Begins.received (m := ⟨⟨6⟩, 0⟩)
        (x := founding.toOption.getD (ofSettings {} 40)) rfl rfl rfl rfl
      obtain ⟨r', hstages, hin⟩ := (hbegins.begun r).first (by decide +kernel)
      exact ⟨_, _, _, _, _, r', ⟨hbegins, hstages⟩, hin ⟨7⟩ (by decide +kernel), by decide +kernel⟩
    have hreachable : x.Reachable := .execute (.start (.ofSettings {} 40)) hx
    obtain ⟨r, hledger⟩ := addresses_fresh.2.1 x hreachable
    obtain ⟨s, w, a, d, backlog, r', hstages, hin, hanswer⟩ := hpoints r
    have hpoint := (addresses_fresh.2.2 x r hledger).2.1 s w ⟨⟨6⟩, 0⟩ a (some d) backlog r' hstages
    exact ⟨x, s, w, _, a, d, backlog, r, r', hx, hledger, hstages, hin,
      hpoint.1.free _ d (.inl ⟨rfl, rfl⟩) _ hin rfl, hanswer, hpoint.2 d .ok rfl hanswer⟩

end Troupe
