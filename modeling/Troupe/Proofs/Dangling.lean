import Troupe.Proofs.Hosting
import Troupe.Proofs.Registration

/-!
No address dangles.

In a session whose host hands over addresses of registered actors only, every address that a
message, an actor or the global environment leads to is registered. A delivery that is under way
leads to registered actors, and to those under addresses that it has reserved itself. Reports of
exceptions are the only messages that mention other addresses: those of actors that were never
registered, because the delivery that has made them was reverted. They reach no one but the logger.

So no send is ever refused: what a delivery has sent is accepted, message by message, when it
commits.

* `Session.no_dangling_address`
-/

namespace Troupe

open List Scheduler Script

variable {d : Delivery} {s : Stage} {w : World}

/-! ### What is sent by a script -/

/-- The message that was sent, with its delay. -/
def Act.posted? {M B : Type} : Act M B → Option (Envelope M × Option Millis)
  | .sent e => some (e, none)
  | .scheduled _ delay timer => some (timer.envelope, some delay)
  | _ => none

/-- A send as a message with its delay. -/
def PendingSend.posted (x : PendingSend) : Envelope Value × Option Millis :=
  (⟨x.target, x.message⟩, x.delay)

namespace Script

/-- All that is sent by a script, in order. What is refused is not sent. -/
def posted {M B α : Type} (x : Script M B α) (s : Scheduler M B) :
    List (Envelope M × Option Millis) :=
  (x.acts s).filterMap Act.posted?

variable {M B α β : Type}

lemma posted_bind (x : Script M B α) (f : α → Script M B β) (s : Scheduler M B) :
    (x.bind f).posted s = x.posted s ++ (f (x.run s).1).posted (x.run s).2 := by
  rw [posted, acts_bind, filterMap_append]
  rfl

/-- Messages to registered actors are all sent. -/
lemma posted_sendAll {sends : List PendingSend} {s : Scheduler Value B}
    (registered : ∀ x ∈ sends, s.contains x.target = true) :
    (sendAll sends : Script Value B Unit).posted s = sends.map PendingSend.posted := by
  induction sends generalizing s with
  | nil => rfl
  | cons x sends ih =>
    have hx := registered x (mem_cons_self ..)
    have hrest : ∀ s' : Scheduler Value B, s'.registry = s.registry →
        ∀ y ∈ sends, s'.contains y.target = true := fun s' hs' y hy =>
      (contains_congr hs' _).trans (registered y (mem_cons_of_mem _ hy))
    obtain ⟨message, target, delay⟩ := x
    cases delay with
    | none =>
      rw [posted, sendAll, acts, send_eq, if_pos hx]
      exact congrArg (_ :: ·) (ih (hrest _ rfl))
    | some delay =>
      rw [posted, sendAll, acts, sendAfter_eq, if_pos hx]
      exact congrArg (_ :: ·) (ih (hrest _ rfl))

lemma posted_register (logger : Option ActorId) (staged : List StagedActor)
    (s : Stage) : (register logger staged).posted s = [] := by
  induction staged generalizing s with
  | nil => rfl
  | cons b staged ih =>
    rw [posted, register, acts, filterMap_cons_none]
    · exact ih _
    · cases s.createReserved b.id _ b.name <;> rfl

lemma posted_wakeAll (ids : List ActorId) (s : Stage) :
    (wakeAll ids : Response Unit).posted s = [] := by
  induction ids generalizing s with
  | nil => rfl
  | cons id ids ih => exact ih _

end Script

lemma World.posted_passWakeups (w : World) (s : Stage) : w.passWakeups.posted s = [] :=
  (posted_bind ..).trans (congrArg (· ++ []) (posted_wakeAll ..))

/-- Effects take place: all their sends to registered actors are sent. -/
lemma Effects.posted_flush (e : Effects) (logger : Option ActorId) (registered : ∀ x ∈ e.sends,
      (e.created.toList.foldl (seat logger) s).contains x.target = true) :
    (e.flush logger).posted s = e.sends.toList.map PendingSend.posted := by
  refine (posted_bind ..).trans ?_
  rw [posted_register, run_register, nil_append]
  exact posted_sendAll fun x hx => registered x (Array.mem_toList_iff.1 hx)

namespace Actor

variable (a : Actor) (self : ActorId)

/-- The report of a delivery is sent if the logger is registered. -/
lemma posted_report (message result : Value)
    (logger : ∀ id, a.logger = some id → s.contains id = true) :
    (a.report self message result).posted s = (a.trace self message result).map
    PendingSend.posted := by
  have hreport : a.report self message result = sendAll (a.trace self message result) := by
    unfold report trace
    cases a.logger <;> rfl
  rw [hreport]
  refine posted_sendAll fun x hx => ?_
  obtain ⟨id, hid, rfl⟩ := mem_map.1 hx
  exact logger id (Option.mem_toList.1 hid)

/-- A delivery that is committed sends all that it has gathered, and its report. -/
lemma posted_settle {outcome : Outcome} {e : Effects}
    (gathered : w.store.transaction d.transaction = .gathering e) (sound : outcome ≠ .fail)
    (logger : ∀ id, a.logger = some id → s.contains id = true) (registered : ∀ x ∈ e.sends,
      (e.created.toList.foldl (seat a.logger) s).contains x.target = true) :
    (a.settle self d outcome w).posted s =
      (e.sends.toList ++ a.trace self d.message e.report).map PendingSend.posted := by
  have hnext : (a.next outcome).logger = a.logger := by cases outcome <;> rfl
  obtain ⟨store, output, traces, fuel, exhausted⟩ := w
  have hfailed : ¬ (outcome = .fail ∨ (store.transaction d.transaction).isFailed = true) := by
    rw [gathered]
    exact fun h => h.elim sound Bool.false_ne_true
  have hcommit : (store.onTransaction d.transaction (·.commit)).1 = e := by
    rw [Store.onTransaction, gathered]
    rfl
  unfold settle
  rw [if_neg hfailed, commit]
  dsimp only
  rw [hnext, hcommit]
  refine (posted_bind ..).trans ?_
  rw [posted_bind, Effects.posted_flush e a.logger registered, run_bind, Effects.run_flush,
    map_append]
  refine congrArg₂ (· ++ ·) (append_nil _) ((Script.posted_bind ..).trans ?_)
  rw [Script.run, posted_report]
  · rw [trace, hnext]
    refine (congrArg (_ ++ ·) ((posted_bind ..).trans ?_)).trans (append_nil _)
    rw [World.posted_passWakeups]
    rfl
  · intro id hid
    exact (contains_flush id).2 (.inl (logger id (hnext ▸ hid)))

end Actor

/-! ### No address dangles -/

/-- The addresses that the parts lead to are registered. -/
def Scheduler.Covers (s : Stage) (heap : Heap) (S : Set Part) : Prop :=
  ∀ id, .actor id ∈ heap.reach S → s.contains id = true

/-- No address dangles, with the deliveries `D` under way: messages, actors and the global
environment lead to registered actors, and deliveries lead to them and to those that they have
reserved. A delivery that has failed is about to be reverted, and so are those who are reported to
have failed. -/
structure Sealed (logger : ActorId) (D : ActorId → Delivery → Prop) (global : Env)
    (s : Stage) (w : World) : Prop where
  mail : ∀ e, s.Carries e → s.contains e.target = true ∧
    (e.IsException logger ∨ s.Covers w.store.heap e.message.parts)
  programs : ∀ id name a, (id, ⟨name, .program a⟩) ∈ s.registry →
    s.Covers w.store.heap (a.parts a.backlog)
  global : s.Covers w.store.heap global.parts
  deliveries : ∀ id d, D id d → s.Covers w.store.heap d.message.parts ∧
    (d.task.answer? ≠ some .fail → ∀ id', .actor id' ∈ w.store.heap.reach (d.task.parts w.store) →
      s.contains id' = true ∨ d.task.Reserves w.store id')

namespace Borders

variable {logger self : ActorId} {D : ActorId → Delivery → Prop} {W G : Set Part}
  {P : ActorId → Set Part} {own : ActorId → Option Nat}

/-- The world leads to registered actors. -/
lemma covers (h : Borders logger D s w W G P) {S : Set Part} (hS : S ⊆ W) :
    s.Covers w.store.heap S :=
  fun id hid => (h.registered id).1 (h.world.reach_subset hS hid)

theorem noDangling (h : Borders logger D s w W G P) {global : Env} (hglobal : global.parts ⊆ W) :
    Sealed logger D global s w where
  mail e he := by
    obtain ⟨htarget, hmessage⟩ := h.mail e he
    exact ⟨htarget, hmessage.elim (fun hW => .inr (h.covers hW)) fun hex => .inl hex.1⟩
  programs id name a ha := h.covers (h.programs id name a ha).parts
  global := h.covers hglobal
  deliveries id d hd := by
    obtain ⟨hmessage, hf⟩ := h.deliveries id d hd
    refine ⟨h.covers hmessage, fun hsound id' hid => hf.usable (fun r hr hfailure => ?_) hid⟩
    exact hsound (hr.trans (congrArg some hfailure))

/-- A delivery that has finished without failing sends all that it has gathered. -/
theorem posted (h : Borders logger D s w W G P) (hd : D self d)
    (good : d.Good own w.store) {a : Actor}
    {backlog : List Value} (actor : a.Within W logger backlog) {outcome : Outcome}
    (answer : d.task.answer? = some outcome) (sound : outcome ≠ .fail) :
    ∃ e, w.store.transaction d.transaction = .gathering e ∧ (a.settle self d outcome w).posted s =
      (e.sends.toList ++ a.trace self d.message e.report).map PendingSend.posted := by
  have hfailed : ¬ (w.store.transaction d.transaction).isFailed = true := by
    intro hfailed
    rw [← good.transaction] at hfailed
    obtain ⟨r, hr, hfailure⟩ := (h.deliveries self d hd).2.failure hfailed
    exact sound (Option.some.inj (answer.symm.trans hr) ▸ hfailure)
  cases gathered : w.store.transaction d.transaction with
  | failed x =>
    rw [gathered] at hfailed
    exact absurd rfl hfailed
  | gathering e =>
    obtain ⟨name, hreports⟩ := h.reports
    refine ⟨e, rfl, a.posted_settle self gathered sound (fun id hid => ?_) fun x hx => ?_⟩
    · rw [actor.logger id hid, Scheduler.contains, hreports]
      rfl
    · exact h.accepts hd good answer gathered hx a.logger

end Borders

namespace Session

variable {x : Session} {known : Set Part}

/-- An evaluation from outside sends all that it has gathered. -/
lemma Bordered.posted (h : x.Bordered known) {e : Expr} (code : e.Tidy)
    (parts : e.parts ⊆ x.holds known) {task : Task .value} {store : Store} {v : Value}
    (run : (x.evaluation e).1.advance x.config.world.fuel (x.evaluation e).2 = some (task, store))
    (answer : task.answer? = some v) :
    ∃ effects, store.transaction task.context.transaction = .gathering effects ∧
      (x.evaluateActs e).filterMap Act.posted? = effects.sends.toList.map PendingSend.posted := by
  obtain ⟨W, G, P, hb, hglobal, hknown⟩ := h
  obtain ⟨hf, _⟩ :=
    (fenced_evaluation hb hglobal code (parts.trans (holds_subset hb hknown))).run run
  have hsound := hf.sound (by simp)
  have htransaction := hf.transaction
  have hstaged := fun id (hid : Part.actor id ∈ _) => hf.staged answer hsound hid
  cases gathered : store.transaction task.context.transaction with
  | failed y =>
    rw [gathered] at hsound
    cases hsound
  | gathering effects =>
    rw [gathered] at htransaction hstaged
    refine ⟨effects, rfl, ?_⟩
    have hflush : (effects.flush (some x.logger)).posted
        { x.config.toScheduler with ids := store.ids } =
        effects.sends.toList.map PendingSend.posted := by
      refine effects.posted_flush _ fun y hy => (contains_seatAll ..).2 ?_
      refine (hstaged _ (htransaction (Effects.parts_send hy (Set.mem_insert ..)))).imp_right ?_
      exact Effects.mem_staged
    rw [evaluateActs, run]
    dsimp only
    rwa [answer, gathered]

/-- No address dangles in a session whose host hands over addresses of registered actors only, and
code that declares what it binds: not in the session, nor at any point of the run of an actor. So no
send is refused. What a delivery has sent when it commits is accepted, message by message, and so is
its report; what an evaluation from outside has sent is accepted when it has a value. -/
theorem no_dangling_address (hosted : x.Hosted known) :
    Sealed x.logger x.config.Waiting x.global x.config.toScheduler x.config.world ∧
    (∀ s w m a current backlog, x.Runs s w m a current backlog →
      Sealed x.logger (s.Beside m.self current) x.global s w ∧
      s.Covers w.store.heap (a.parts backlog) ∧
      ∀ d outcome, current = some d → d.task.answer? = some outcome → outcome ≠ .fail →
        ∃ e, w.store.transaction d.transaction = .gathering e ∧
        (a.settle m.self d outcome w).posted s =
          (e.sends.toList ++ a.trace m.self d.message e.report).map PendingSend.posted) ∧
    ∀ e : Expr, e.Tidy → e.parts ⊆ x.holds known → ∀ task store v,
      (x.evaluation e).1.advance x.config.world.fuel (x.evaluation e).2 = some (task, store) →
      task.answer? = some v →
        ∃ effects, store.transaction task.context.transaction = .gathering effects ∧
          (x.evaluateActs e).filterMap Act.posted? = effects.sends.toList.map
          PendingSend.posted := by
  obtain ⟨W, G, P, hb, hglobal, _⟩ := hosted.bordered
  refine ⟨hb.noDangling hglobal, fun s w m a current backlog point => ?_, ?_⟩
  · obtain ⟨W', G', P', hglobal', _, hactor, hb'⟩ := point.borders hosted
    refine ⟨hb'.noDangling hglobal', hb'.covers hactor.parts, ?_⟩
    rintro d outcome rfl answer sound
    obtain ⟨own, hregular⟩ := point.regular hosted.reachable
    have hd : s.Beside m.self (some d) m.self d := .inl ⟨rfl, rfl⟩
    exact hb'.posted hd (hregular.good _ d hd) hactor answer sound
  · intro e code parts task store v run answer
    exact hosted.bordered.posted code parts run answer

lemma Runs.delivered {m : Moment} {a : Actor} {backlog : List Value}
    (h : x.Runs s w m a (some d) backlog) (alive : ((d.advance w).run s).1.2.exhausted = false) :
    x.Runs ((d.advance w).run s).2 ((d.advance w).run s).1.2 m a
    (some ((d.advance w).run s).1.1) backlog :=
  h.onward fun h => h.advanced rfl alive

/-- A new session whose top-level actor is told to create an actor and to send it its own
address. -/
def introduction : Except Fault Session :=
  (ofSettings {} 60).execute
    (.seq (.create "a" (.const (.number 1))) (.send (.ident "a") (.ident "a")))

theorem introduction_accepted : ∃ x known s w m a d backlog e, introduction = .ok x ∧
    x.Hosted known ∧
    x.Runs s w m a (some d) backlog ∧ d.task.answer? = some .ok ∧ s.contains ⟨7⟩ = false ∧
    w.store.transaction d.transaction = .gathering e ∧ e.sends.toList.map (·.target) = [⟨7⟩] ∧
    (a.settle m.self d .ok w).posted s =
      (e.sends.toList ++ a.trace m.self d.message e.report).map PendingSend.posted := by
  obtain ⟨x, hx, s, w, m, a, d, backlog, hruns, hanswer, hfree, hsends⟩ : ∃ x,
    introduction = .ok x ∧
      ∃ s w m a d backlog, x.Runs s w m a (some d) backlog ∧ d.task.answer? = some .ok ∧
        s.contains ⟨7⟩ = false ∧
        (w.store.transaction d.transaction).commit.1.sends.toList.map (·.target) = [⟨7⟩] := by
    refine ⟨introduction.toOption.getD (ofSettings {} 60), rfl, ?_⟩
    have hreceived := Runs.received (x := introduction.toOption.getD (ofSettings {} 60))
      (m := ⟨⟨6⟩, 0⟩) rfl rfl rfl rfl .begun
    exact ⟨_, _, _, _, _, _, (hreceived.onward fun h => h.started).delivered (by decide +kernel),
      by decide +kernel, by decide +kernel, by decide +kernel⟩
  have hcode : (.seq (.create "a" (.const (.number 1))) (.send (.ident "a") (.ident "a")) :
      Stmt).Tidy := by
    simp [Stmt.Tidy, Expr.Tidy]
  have hparts :
    (.seq (.create "a" (.const (.number 1))) (.send (.ident "a") (.ident "a")) : Stmt).parts ⊆
      (ofSettings {} 60).holds ∅ := by
    simp [Stmt.parts, Expr.parts, Value.parts]
  obtain ⟨known, -, hosted⟩ := (Hosted.ofSettings {} 60).execute hcode hparts hx
  obtain ⟨e, hgathered, hposted⟩ :=
    ((no_dangling_address hosted).2.1 s w m a (some d) backlog hruns).2.2 d .ok rfl
    hanswer (by simp)
  rw [hgathered] at hsends
  exact ⟨x, known, s, w, m, a, d, backlog, e, hx, hosted, hruns, hanswer, hfree, hgathered,
    hsends, hposted⟩

end Session

end Troupe
