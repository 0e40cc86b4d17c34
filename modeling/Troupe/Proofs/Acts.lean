import Mathlib.Order.Lattice
import Troupe.Configuration
import Troupe.Proofs.Response

/-!
What a configuration does, act by act.

An `Act` is one thing that has happened to a scheduler, with all that it was about. The acts of an
operation are told by functions that follow the operation (`Script.acts`,
`Configuration.dispatchActs`, `Command.acts`). Each act is a step of the scheduler
(`Scheduler.Step`), so what holds of all steps holds of all that a host and its actors can do.

* `Configuration.timely_history`: whatever a host tells a configuration to do, its acts are steps.
-/

namespace Troupe

open Behavior List Millis Timer

variable {id : ActorId}

/-- One thing that has happened to a scheduler. -/
inductive Act (M B : Type) where
  /-- A message was put on the queue by a send. -/
  | sent (e : Envelope M)
  /-- A message was put on the timers, at a time and for a delay. -/
  | scheduled (now delay : Millis) (timer : Timer M)
  /-- A request was refused. -/
  | refused (fault : Fault)
  /-- An address was handed out. -/
  | reserved (id : ActorId)
  /-- An actor was registered under the next address. -/
  | created (id : ActorId) (entry : Entry B)
  /-- An actor was registered under an address that was asked for. -/
  | joined (id : ActorId) (entry : Entry B)
  /-- A wake-up was asked for. -/
  | woken (id : ActorId)
  /-- The oldest wake-up was taken, if there was one. -/
  | roused (id : Option ActorId)
  /-- The oldest message was taken, and a behavior was run for it. -/
  | received (e : Envelope M) (behavior : B)
  /-- The oldest message was taken, and no one was there to run for it. -/
  | discarded (e : Envelope M)
  /-- The run of a behavior has ended, with the behavior for the next one. -/
  | settled (id : ActorId) (behavior : B)
  /-- Time has moved and timers were released: `fired` to the queue, `lost` for want of an actor. -/
  | released (now : Millis) (fired lost : List (Timer M))
  /-- The run state has changed, or a tick was counted. -/
  | noted

namespace Scheduler

variable {M B : Type}

/-- The scheduler once its oldest message was taken. -/
def withQueue (s : Scheduler M B) (target : ActorId) (queue : Fifo (Envelope M)) : Scheduler M B :=
  { s with
    queue
    journal := s.journal.record s.clock.now (.delivered target) }

/-- The timers that are released when the clock is set. -/
def dueAt (s : Scheduler M B) (clock : Clock) : List (Timer M) :=
  s.timers.takeWhile (·.due ≤ clock.now)

/-- What happens when the clock is set. -/
def releaseAct (s : Scheduler M B) (clock : Clock) : Act M B :=
  .released clock.now ((s.dueAt clock).filter fun t => s.contains t.envelope.target)
    ((s.dueAt clock).filter fun t => !s.contains t.envelope.target)

/-- The steps of a scheduler, each with the act that it is. -/
inductive Step : Scheduler M B → Act M B → Scheduler M B → Prop where
  | send {s s' : Scheduler M B} {message : M} {target : ActorId}
      (granted : s.send message target = .ok s') : Step s (.sent ⟨target, message⟩) s'
  | sendAfter {s s' : Scheduler M B} {delay : Millis} {message : M} {target : ActorId}
      (granted : s.sendAfter delay message target = .ok s') :
      Step s (.scheduled s.clock.now delay
        ⟨after s.clock.now delay, s.timerSeq, ⟨target, message⟩⟩) s'
  | refuse (s : Scheduler M B) (fault : Fault) : Step s (.refused fault) s
  | reserve (s : Scheduler M B) : Step s (.reserved s.reserve.1) s.reserve.2
  | create (s : Scheduler M B) (b : B) (name : String) :
      Step s (.created (s.create b name).1 ⟨name, b⟩) (s.create b name).2
  | createReserved {s s' : Scheduler M B} {id : ActorId} {b : B} {name : String}
      (granted : s.createReserved id b name = .ok s') : Step s (.joined id ⟨name, b⟩) s'
  | wake (s : Scheduler M B) (id : ActorId) : Step s (.woken id) (s.wake id)
  | takeWakeup (s : Scheduler M B) : Step s (.roused s.takeWakeup.1) s.takeWakeup.2
  | receive {s : Scheduler M B} {e : Envelope M} {queue : Fifo (Envelope M)} {entry : Entry B}
      (next : s.queue.pop? = some (e, queue)) (found : s.find? e.target = some entry) :
      Step s (.received e entry.behavior) (s.withQueue e.target queue)
  | discard {s : Scheduler M B} {e : Envelope M} {queue : Fifo (Envelope M)}
      (next : s.queue.pop? = some (e, queue)) (missing : s.find? e.target = none) :
      Step s (.discarded e) (s.withQueue e.target queue)
  | settle (s : Scheduler M B) (id : ActorId) (b : B) : Step s (.settled id b) (s.setBehavior id b)
  | advance (s : Scheduler M B) (ms : Millis) :
      Step s (s.releaseAct (s.clock.advance ms)) (s.advance ms)
  | jump (s : Scheduler M B) (time : Millis) :
      Step s (s.releaseAct (s.clock.advanceTo time)) (s.advanceTo time)
  | tick (s : Scheduler M B) : Step s .noted { s with clock := s.clock.recordTick }
  | setState (s : Scheduler M B) (state : RunState) : Step s .noted { s with state }

/-- The runs of a scheduler, with all acts in the order in which they happened. -/
inductive Steps (s0 : Scheduler M B) : List (Act M B) → Scheduler M B → Prop where
  | refl : Steps s0 [] s0
  | snoc {acts : List (Act M B)} {a : Act M B} {s s' : Scheduler M B} (before : Steps s0 acts s)
      (step : Step s a s') : Steps s0 (acts ++ [a]) s'

namespace Steps

variable {s s1 s2 : Scheduler M B} {acts acts' : List (Act M B)} {a : Act M B}

lemma trans (h : Steps s acts s1) (h' : Steps s1 acts' s2) : Steps s (acts ++ acts') s2 := by
  induction h' with
  | refl =>
    rwa [append_nil]
  | snoc _ step ih =>
    rw [← append_assoc]
    exact ih.snoc step

lemma single (step : Step s a s1) : Steps s [a] s1 := refl.snoc step

lemma cons (step : Step s a s1) (h : Steps s1 acts s2) : Steps s (a :: acts) s2 :=
  (single step).trans h

end Steps

end Scheduler

/-! ### What a step does -/

section Accounts

open List

/-- Records events that happen at one time. -/
def Journal.recordAll (j : Journal) (time : Millis) (events : List Event) : Journal :=
  events.foldl (·.record time ·) j

/-- All addresses that were handed out, in order. -/
def IdSource.addresses (ids : IdSource) : List ActorId := (range ids.issued).map fun n => ⟨n + 1⟩

lemma IdSource.addresses_next (ids : IdSource) :
    ids.next.2.addresses = ids.addresses ++ [ids.next.1] := by
  simp [addresses, next, range_succ]

namespace Act

variable {M B : Type}

/-- The messages that an act puts on the queue. -/
def enqueued : Act M B → List (Envelope M)
  | sent e => [e]
  | released _ fired _ => fired.map (·.envelope)
  | _ => []

/-- The message that an act takes from the queue. -/
def taken : Act M B → List (Envelope M)
  | received e _ => [e]
  | discarded e => [e]
  | _ => []

/-- The timer that an act sets. -/
def timed : Act M B → List (Timer M)
  | scheduled _ _ t => [t]
  | _ => []

/-- The address that an act hands out. -/
def handedOut : Act M B → List ActorId
  | reserved id => [id]
  | created id _ => [id]
  | _ => []

/-- The registry after an act. A new actor is put behind all others. The entry of an actor stays as
it is, except that an actor that has run may have another behavior. -/
def book (registry : List (ActorId × Entry B)) : Act M B → List (ActorId × Entry B)
  | created id e => registry ++ [(id, e)]
  | joined id e => registry ++ [(id, e)]
  | settled id b => registry.map fun (id', e) =>
      (id', if id' = id then { e with behavior := b } else e)
  | _ => registry

/-- The events of an act, in the order in which they are recorded. -/
def events : Act M B → List Event
  | sent e => [.sent e.target]
  | scheduled _ _ t => [.scheduled t.due t.envelope.target]
  | created id entry | joined id entry => [.created id entry.name]
  | received e _ | discarded e => [.delivered e.target]
  | released _ fired _ => fired.map fun t => .sent t.envelope.target
  | _ => []

/-- The act does not move the clock beyond the last time. -/
def InTime : Act M B → Prop
  | released now _ _ => now ≤ last
  | _ => True

end Act

namespace Scheduler

variable {M B : Type} {s s' : Scheduler M B} {a : Act M B}

lemma send_eq (s : Scheduler M B) (message : M) (target : ActorId) :
    s.send message target =
      if s.contains target then
        .ok (resume { s with
          journal := s.journal.record s.clock.now (.sent target)
          queue := s.queue.push ⟨target, message⟩ })
      else .error (.notAnActor target) := rfl

lemma sendAfter_eq (s : Scheduler M B) (delay : Millis) (message : M) (target : ActorId) :
    s.sendAfter delay message target =
      if s.contains target then
        .ok { s with
          timerSeq := s.timerSeq + 1
          journal := s.journal.record s.clock.now
            (.scheduled (after s.clock.now delay) target)
          timers := insert s.timers
            ⟨after s.clock.now delay, s.timerSeq, ⟨target, message⟩⟩ }
      else .error (.notAnActor target) := by
  simp only [sendAfter, span_eq_takeWhile_dropWhile, Timer.insert]

lemma send_ok {message : M} {target : ActorId} (granted : s.send message target = .ok s') :
    s.contains target = true ∧ s' = resume { s with
      journal := s.journal.record s.clock.now (.sent target)
      queue := s.queue.push ⟨target, message⟩ } := by
  rw [send_eq] at granted
  split at granted <;> cases granted
  exact ⟨‹_›, rfl⟩

lemma sendAfter_ok {delay : Millis} {message : M} {target : ActorId}
    (granted : s.sendAfter delay message target = .ok s') :
    s.contains target = true ∧ s' = { s with
      timerSeq := s.timerSeq + 1
      journal := s.journal.record s.clock.now
        (.scheduled (after s.clock.now delay) target)
      timers := insert s.timers
        ⟨after s.clock.now delay, s.timerSeq, ⟨target, message⟩⟩ } := by
  rw [sendAfter_eq] at granted
  split at granted <;> cases granted
  exact ⟨‹_›, rfl⟩

lemma createReserved_ok {b : B} {name : String} (granted : s.createReserved id b name = .ok s') :
    (∀ e, (id, e) ∉ s.registry) ∧ s' = s.register id b name := by
  rw [createReserved] at granted
  split at granted <;> cases granted
  rename_i h
  rw [contains_eq_true_iff, not_exists] at h
  exact ⟨h, rfl⟩

lemma takeWakeup_snd (s : Scheduler M B) :
    s.takeWakeup.2 = { s with wakeups := s.takeWakeup.2.wakeups } := by
  unfold takeWakeup
  split <;> rfl

/-- The release of timers: their messages are put on the queue, in order, if their targets are
there. -/
structure Releases (due : List (Timer M)) (s s' : Scheduler M B) : Prop where
  registry : s'.registry = s.registry
  timers : s'.timers = s.timers
  timerSeq : s'.timerSeq = s.timerSeq
  clock : s'.clock = s.clock
  ids : s'.ids = s.ids
  queue : s'.queue.toList = s.queue.toList ++
    (due.filter fun t => s.contains t.envelope.target).map (·.envelope)
  journal : s'.journal = s.journal.recordAll s.clock.now
    ((due.filter fun t => s.contains t.envelope.target).map fun t => .sent t.envelope.target)

lemma releases (timers : List (Timer M)) (s : Scheduler M B) :
    Releases timers s (timers.foldl release s) := by
  induction timers generalizing s with
  | nil => exact ⟨rfl, rfl, rfl, rfl, rfl, (append_nil _).symm, rfl⟩
  | cons t timers ih =>
    have hrest := ih (s.release t)
    rw [foldl_cons]
    rw [release, send_eq] at hrest ⊢
    by_cases h : s.contains t.envelope.target = true
    · have hfilter :=
        filter_cons_of_pos (p := fun t => s.contains t.envelope.target) (l := timers) h
      simp only [if_pos h] at hrest ⊢
      refine ⟨hrest.registry, hrest.timers, hrest.timerSeq, hrest.clock, hrest.ids, ?_, ?_⟩
      · rw [hfilter, hrest.queue]
        exact (congrArg (· ++ _) (Fifo.toList_push ..)).trans (append_assoc ..)
      · rw [hfilter]
        exact hrest.journal
    · have hfilter :=
        filter_cons_of_neg (p := fun t => s.contains t.envelope.target) (l := timers) h
      simp only [if_neg h] at hrest ⊢
      exact { hrest with queue := hfilter ▸ hrest.queue, journal := hfilter ▸ hrest.journal }

lemma releases_at (s : Scheduler M B) (clock : Clock) : Releases (s.dueAt clock)
    { s with clock, timers := s.timers.dropWhile (·.due ≤ clock.now) }
    (releaseTimers { s with clock }) := by
  rw [releaseTimers, span_eq_takeWhile_dropWhile]
  exact releases _ _

/-- What an act does to the timers. -/
def timersAfter (timers : List (Timer M)) : Act M B → List (Timer M)
  | .scheduled _ _ t => insert timers t
  | .released now _ _ => timers.dropWhile (·.due ≤ now)
  | _ => timers

/-- What a step does, as its act tells it. The registry is what is written down as long as no one is
registered above the counter. -/
structure Account (s : Scheduler M B) (a : Act M B) (s' : Scheduler M B) : Prop where
  /-- What is taken from the queue stood in front, and what is put there stands behind. -/
  queue : s.queue.toList ++ a.enqueued = a.taken ++ s'.queue.toList
  timers : s'.timers = timersAfter s.timers a
  timerSeq : s'.timerSeq = s.timerSeq + a.timed.length
  /-- Time passes only when timers are released. -/
  now : (∀ now fired lost, a ≠ .released now fired lost) → s'.clock.now = s.clock.now
  journal : s'.journal = s.journal.recordAll s'.clock.now a.events
  addresses : s'.ids.addresses = s.ids.addresses ++ a.handedOut
  registry : (∀ id e, (id, e) ∈ s.registry → id.raw ≤ s.ids.issued) → s'.registry =
    a.book s.registry
  /-- No one leaves. -/
  contains : ∀ id, s.contains id = true → s'.contains id = true

lemma account_release (s : Scheduler M B) (clock : Clock) :
    s.Account (s.releaseAct clock) (releaseTimers { s with clock }) := by
  have h := s.releases_at clock
  refine ⟨h.queue.symm, h.timers, h.timerSeq, fun hnot => absurd rfl (hnot _ _ _), ?_, ?_,
    fun _ => h.registry, fun id hid => (contains_congr h.registry id).trans hid⟩
  · rw [h.clock]
    exact h.journal
  · rw [h.ids]
    exact (append_nil _).symm

lemma contains_register (s : Scheduler M B) (id' : ActorId) (b : B) (name : String) (id : ActorId)
    (h : s.contains id = true) : (s.register id' b name).contains id = true := by
  rw [contains, find?_register]
  split
  · rfl
  · exact h

/-- What a step does is told by its act. -/
lemma Step.account (step : s.Step a s') : s.Account a s' := by
  cases step with
  | send granted =>
    obtain ⟨-, rfl⟩ := send_ok granted
    exact ⟨(Fifo.toList_push ..).symm, rfl, rfl, fun _ => rfl, rfl,
      (append_nil _).symm, fun _ => rfl, fun _ => id⟩
  | sendAfter granted =>
    obtain ⟨-, rfl⟩ := sendAfter_ok granted
    exact ⟨append_nil _, rfl, rfl, fun _ => rfl, rfl, (append_nil _).symm, fun _ =>
      rfl, fun _ => id⟩
  | createReserved granted =>
    obtain ⟨hfree, rfl⟩ := createReserved_ok granted
    exact ⟨append_nil _, rfl, rfl, fun _ => rfl, rfl, (append_nil _).symm,
      fun _ => enter_of_free hfree, s.contains_register _ _ _⟩
  | reserve =>
    exact ⟨append_nil _, rfl, rfl, fun _ => rfl, rfl, s.ids.addresses_next, fun _ =>
      rfl, fun _ => id⟩
  | create b name =>
    exact ⟨append_nil _, rfl, rfl, fun _ => rfl, rfl, s.ids.addresses_next,
      fun bounded => enter_of_free fun e he => absurd (bounded _ e he) (Nat.not_succ_le_self _),
      s.reserve.2.contains_register _ b name⟩
  | takeWakeup =>
    rw [takeWakeup_snd]
    exact ⟨append_nil _, rfl, rfl, fun _ => rfl, rfl, (append_nil _).symm, fun _ =>
      rfl, fun _ => id⟩
  | receive next _ | discard next _ =>
    exact ⟨(append_nil _).trans (Fifo.toList_eq_cons_of_pop? next), rfl, rfl, fun _ => rfl, rfl,
      (append_nil _).symm, fun _ => rfl, fun _ => id⟩
  | settle id' b =>
    refine ⟨append_nil _, rfl, rfl, fun _ => rfl, rfl, (append_nil _).symm, fun _ => rfl,
      fun id hid => ?_⟩
    rw [contains, find?_setBehavior]
    split
    · rwa [Option.isSome_map]
    · exact hid
  | advance ms | jump time => exact s.account_release _
  | _ =>
    exact ⟨append_nil _, rfl, rfl, fun _ => rfl, rfl, (append_nil _).symm, fun _ =>
      rfl, fun _ => id⟩

/-! ### Time -/

/-- A message is put on the queue or on the timers only if its target is registered. A timer has the
next number, and is due after its delay. A release is of the timers that are due, and those that are
lost have no target. -/
lemma Step.sound (step : s.Step a s') :
    (∀ e, a = .sent e → s.contains e.target = true) ∧ (∀ now delay t, a = .scheduled now delay t →
      now = s.clock.now ∧ t.due = after now delay ∧ t.seq = s.timerSeq ∧
        s.contains t.envelope.target = true) ∧
    (∀ now fired lost, a = .released now fired lost → ∃ clock, clock.now = now ∧ s'.clock = clock ∧
      min s.clock.now last ≤ now ∧ a = s.releaseAct clock) := by
  have hadvance : ∀ ms, min s.clock.now last ≤ (s.clock.advance ms).now :=
    fun ms => le_min ((min_le_left _ _).trans (Nat.le_add_right _ ms)) (min_le_right _ _)
  have hjump : ∀ time, min s.clock.now last ≤ (s.clock.advanceTo time).now :=
    fun time => (min_le_left _ _).trans (le_max_left _ time)
  cases step with
  | send granted => exact ⟨fun e he => by cases he; exact (send_ok granted).1, by simp, by simp⟩
  | sendAfter granted =>
    refine ⟨by simp, fun now delay t ht => ?_, by simp⟩
    cases ht
    exact ⟨rfl, rfl, rfl, (sendAfter_ok granted).1⟩
  | advance ms =>
    refine ⟨by simp [releaseAct], by simp [releaseAct], fun now fired lost h => ?_⟩
    cases h
    exact ⟨_, rfl, (s.releases_at _).clock, hadvance ms, rfl⟩
  | jump time =>
    refine ⟨by simp [releaseAct], by simp [releaseAct], fun now fired lost h => ?_⟩
    cases h
    exact ⟨_, rfl, (s.releases_at _).clock, hjump time, rfl⟩
  | _ => exact ⟨by simp, by simp, by simp⟩

lemma mem_insert {timers : List (Timer M)} {t t' : Timer M} :
    t' ∈ insert timers t ↔ t' = t ∨ t' ∈ timers := by
  conv_rhs => rw [← takeWhile_append_dropWhile (p := (Timer.le · t)) (l := timers)]
  simp only [Timer.insert, mem_append, mem_cons]
  exact or_left_comm

/-- The clock and all due times are within the bounds of time. -/
structure InTime (s : Scheduler M B) : Prop where
  now : s.clock.now ≤ last
  due : ∀ t ∈ s.timers, t.due ≤ last

/-- Time stays within its bounds, and does not run backwards. -/
lemma Step.inTime (step : s.Step a s') (h : s.InTime) (inTime : a.InTime) :
    s'.InTime ∧ s.clock.now ≤ s'.clock.now := by
  obtain ⟨-, hscheduled, hreleased⟩ := step.sound
  have htimers := step.account.timers
  cases ha : a with
  | scheduled now delay t =>
    have hnow := step.account.now (by simp [ha])
    obtain ⟨-, hdue, -, -⟩ := hscheduled now delay t ha
    refine ⟨⟨hnow ▸ h.now, fun t' ht' => ?_⟩, hnow.ge⟩
    rw [htimers, ha, timersAfter, mem_insert] at ht'
    rcases ht' with rfl | ht'
    · rw [hdue]
      exact min_le_right _ _
    · exact h.due t' ht'
  | released now fired lost =>
    obtain ⟨clock, rfl, hclock, hlater, -⟩ := hreleased now fired lost ha
    rw [ha] at inTime
    rw [min_eq_left h.now] at hlater
    refine ⟨⟨hclock ▸ inTime, fun t' ht' => ?_⟩, hclock ▸ hlater⟩
    rw [htimers, ha, timersAfter] at ht'
    exact h.due t' ((dropWhile_suffix _).subset ht')
  | _ =>
    have hnow := step.account.now (by simp [ha])
    have hsame : s'.timers = s.timers := by rw [htimers, ha]; rfl
    exact ⟨⟨hnow ▸ h.now, fun t' ht' => h.due t' (hsame ▸ ht')⟩, hnow.ge⟩

/-- Steps that stay within the bounds of time if they begin there. -/
structure Timely (s : Scheduler M B) (acts : List (Act M B)) (s' : Scheduler M B) : Prop where
  steps : s.Steps acts s'
  inTime : s.InTime → s'.InTime ∧ ∀ a ∈ acts, a.InTime

namespace Timely

variable {s1 s2 : Scheduler M B} {acts acts' : List (Act M B)}

lemma refl : s.Timely [] s := ⟨.refl, fun h => ⟨h, fun _ ha => absurd ha not_mem_nil⟩⟩

lemma trans (h : s.Timely acts s1) (h' : s1.Timely acts' s2) : s.Timely (acts ++ acts') s2 := by
  refine ⟨h.steps.trans h'.steps, fun hs => ?_⟩
  obtain ⟨hs1, hacts⟩ := h.inTime hs
  obtain ⟨hs2, hacts'⟩ := h'.inTime hs1
  exact ⟨hs2, forall_mem_append.2 ⟨hacts, hacts'⟩⟩

lemma single (step : s.Step a s1) (timely : s.InTime → a.InTime) : s.Timely [a] s1 :=
  ⟨.single step, fun h => ⟨(step.inTime h (timely h)).1, forall_mem_singleton.2 (timely h)⟩⟩

lemma cons (step : s.Step a s1) (timely : s.InTime → a.InTime) (h : s1.Timely acts s2) :
    s.Timely (a :: acts) s2 :=
  (single step timely).trans h

end Timely

end Scheduler

end Accounts

/-! ### The acts of scripts -/

/-- What happened when something was asked for: what was to happen, or a refusal. -/
def Act.ofGrant {M B : Type} (act : Act M B) : Except Fault (Scheduler M B) → Act M B
  | .ok _ => act
  | .error fault => .refused fault

namespace Script

variable {M B α β : Type}

/-- The acts of a script. -/
def acts : Script M B α → Scheduler M B → List (Act M B)
  | done _, _ => []
  | send m t k, s =>
    let granted := s.send m t
    Act.ofGrant (.sent ⟨t, m⟩) granted :: (k (settle s granted).1).acts (settle s granted).2
  | sendAfter d m t k, s =>
    let granted := s.sendAfter d m t
    let timer : Timer M := ⟨after s.clock.now d, s.timerSeq, ⟨t, m⟩⟩
    Act.ofGrant (.scheduled s.clock.now d timer) granted ::
      (k (settle s granted).1).acts (settle s granted).2
  | create b n k, s =>
    .created (s.create b n).1 ⟨n, b⟩ :: (k (s.create b n).1).acts (s.create b n).2
  | createReserved id b n k, s =>
    let granted := s.createReserved id b n
    Act.ofGrant (.joined id ⟨n, b⟩) granted :: (k (settle s granted).1).acts (settle s granted).2
  | reserve k, s => .reserved s.reserve.1 :: (k s.reserve.1).acts s.reserve.2
  | issued k, s => (k s.ids.issued).acts s
  | wake id k, s => .woken id :: k.acts (s.wake id)
  | takeWakeup k, s => .roused s.takeWakeup.1 :: (k s.takeWakeup.1).acts s.takeWakeup.2
  | countWakeups k, s => (k s.wakeups.size).acts s

/-- A request that may be refused is a step. -/
lemma timely_settle {s s' : Scheduler M B} {act : Act M B} {granted : Except Fault (Scheduler M B)}
    {acts : List (Act M B)} (timely : act.InTime) (step : ∀ s', granted = .ok s' → s.Step act s')
    (rest : (settle s granted).2.Timely acts s') :
    s.Timely (Act.ofGrant act granted :: acts) s' := by
  cases granted with
  | ok s1 => exact .cons (step s1 rfl) (fun _ => timely) rest
  | error fault => exact .cons (.refuse s fault) (fun _ => trivial) rest

/-- The acts of a script are steps, and move no clock. -/
theorem timely (x : Script M B α) (s : Scheduler M B) : s.Timely (x.acts s) (x.run s).2 := by
  induction x generalizing s with
  | done a => exact .refl
  | send m t k ih => exact timely_settle trivial (fun _ h => .send h) (ih _ _)
  | sendAfter d m t k ih => exact timely_settle trivial (fun _ h => .sendAfter h) (ih _ _)
  | create b n k ih => exact .cons (.create s b n) (fun _ => trivial) (ih _ _)
  | createReserved id b n k ih =>
    exact timely_settle trivial (fun _ h => .createReserved h) (ih _ _)
  | reserve k ih => exact .cons (.reserve s) (fun _ => trivial) (ih _ _)
  | issued k ih => exact ih _ _
  | wake id k ih => exact .cons (.wake s id) (fun _ => trivial) (ih _)
  | takeWakeup k ih => exact .cons (.takeWakeup s) (fun _ => trivial) (ih _ _)
  | countWakeups k ih => exact ih _ _

end Script

/-! ### The acts of a configuration -/

/-- The response of a behavior to a message, or to being resumed if there is none. -/
def Behavior.respond {M B W : Type} [Behavior M B W] (b : B) (moment : Moment) (message : Option M)
    (w : W) : Script M B (B × W) :=
  match message with
  | some m => receive b moment m w
  | none => resume b moment w

namespace Configuration

variable {M B W : Type}

/-- A configuration at time zero without actors. -/
def ofSettings (settings : Settings) (world : W) : Configuration M B W :=
  ⟨Scheduler.ofSettings settings, world⟩

variable [Behavior M B W]

/-- The acts when the behavior of an actor is run. -/
def invokeActs (c : Configuration M B W) (id : ActorId) (message : Option M) : List (Act M B) :=
  match c.find? id with
  | none => []
  | some entry =>
    let script := respond entry.behavior ⟨id, c.clock.now⟩ message c.world
    script.acts c.toScheduler ++ [.settled id (script.run c.toScheduler).1.1]

/-- The configuration once its oldest message was taken. -/
def withQueue (c : Configuration M B W) (target : ActorId) (queue : Fifo (Envelope M)) :
    Configuration M B W :=
  ⟨c.toScheduler.withQueue target queue, c.world⟩

/-- The configuration once its oldest wake-up was taken. -/
def withWakeups (c : Configuration M B W) (wakeups : Fifo ActorId) : Configuration M B W :=
  ⟨{ c.toScheduler with wakeups }, c.world⟩

/-- The acts of one unit of work. -/
def dispatchActs (c : Configuration M B W) : List (Act M B) :=
  match c.wakeups.pop? with
  | some (id, wakeups) => .roused (some id) :: (c.withWakeups wakeups).invokeActs id none
  | none =>
    match c.queue.pop? with
    | some (e, queue) =>
      let taken := (c.withQueue e.target queue).invokeActs e.target (some e.message)
      match c.find? e.target with
      | some entry => .received e entry.behavior :: taken
      | none => .discarded e :: taken
    | none => []

/-- The acts of dispatching, `limit` times at most. -/
def dispatchLoopActs : Nat → Configuration M B W → List (Act M B)
  | 0, _ => []
  | limit + 1, c =>
    c.dispatchActs ++ if c.dispatch.1 then dispatchLoopActs limit c.dispatch.2 else []

/-- The acts of a tick. -/
def tickActs (c : Configuration M B W) : List (Act M B) :=
  match c.state with
  | .running period =>
    let moved : Configuration M B W := c.modify fun s =>
      { s.advance period with clock := (s.advance period).clock.recordTick }
    let acts := .noted :: dispatchLoopActs moved.settings.batchLimit.toNat moved
    let after := (moved.dispatchLoop moved.settings.batchLimit.toNat).2
    c.releaseAct (c.clock.advance period) ::
      if after.pending = 0 ∧ after.scheduled = 0 then acts ++ [.noted] else acts
  | _ => []

/-- The acts of jumping to due times as long as nothing is pending. -/
def skipActs : List (Timer M) → Scheduler M B → List (Act M B)
  | [], _ => []
  | t :: timers, s =>
    if s.isIdle then
      s.releaseAct (s.clock.advanceTo t.due) :: skipActs timers (s.advanceTo t.due)
    else skipActs timers s

/-- The acts of dispatching and jumping to due times, `limit` times at most. -/
def runIdleActs : Nat → Configuration M B W → List (Act M B)
  | 0, _ => []
  | limit + 1, c =>
    let skipped : Configuration M B W := c.modify (·.skipAhead)
    (if c.isIdle then skipActs c.timers c.toScheduler else []) ++ (skipped.dispatchActs ++
      if skipped.dispatch.1 then runIdleActs limit skipped.dispatch.2 else [])

end Configuration

/-- What a host can tell a configuration to do. -/
inductive Command (M B : Type) where
  /-- The requests that behaviors can make, too: sends, new actors, addresses, wake-ups. -/
  | ask (script : Script M B Unit)
  | dispatch
  | dispatchLoop (limit : Nat)
  | tick
  | advance (ms : Millis)
  | runUntilIdle (limit : Nat)
  | run (period : Millis)
  | halt
  | pause
  | resume

namespace Command

variable {M B W : Type} [Behavior M B W]

/-- Does what the host says. -/
def apply : Command M B → Configuration M B W → Configuration M B W
  | ask script, c => c.modify fun s => (script.run s).2
  | dispatch, c => c.dispatch.2
  | dispatchLoop limit, c => (c.dispatchLoop limit).2
  | tick, c => c.tick.2
  | advance ms, c => c.modify (·.advance ms)
  | runUntilIdle limit, c => (c.runUntilIdle limit).2
  | run period, c => c.modify (·.run period)
  | halt, c => c.modify (·.halt)
  | pause, c => c.modify (·.pause)
  | resume, c => c.modify (·.resume)

/-- The acts of what the host says. -/
def acts : Command M B → Configuration M B W → List (Act M B)
  | ask script, c => script.acts c.toScheduler
  | dispatch, c => c.dispatchActs
  | dispatchLoop limit, c => c.dispatchLoopActs limit
  | tick, c => c.tickActs
  | advance ms, c => [c.releaseAct (c.clock.advance ms)]
  | runUntilIdle limit, c => c.runIdleActs limit
  | _, _ => [.noted]

end Command

namespace Configuration

variable {M B W : Type} [Behavior M B W]

/-- Does all that the host says. -/
def obey (c : Configuration M B W) (commands : List (Command M B)) : Configuration M B W :=
  commands.foldl (fun c command => command.apply c) c

/-- All acts, from first to last, when a configuration does what the host says. -/
def history (c : Configuration M B W) : List (Command M B) → List (Act M B)
  | [] => []
  | command :: commands => command.acts c ++ (command.apply c).history commands

/-- What an invocation is, for an actor that is there. -/
lemma invoke_found {c : Configuration M B W} {entry : Entry B} (message : Option M)
    (found : c.find? id = some entry) : c.invoke id message =
      let r := (respond entry.behavior ⟨id, c.clock.now⟩ message c.world).run c.toScheduler
      ⟨r.2.setBehavior id r.1.1, r.1.2⟩ := by
  obtain ⟨s, w⟩ := c
  simp only [invoke, show s.find? id = some entry from found]
  cases message <;> rfl

lemma invoke_missing {c : Configuration M B W} (message : Option M) (missing : c.find? id = none) :
    c.invoke id message = c := by
  obtain ⟨s, w⟩ := c
  simp only [invoke, show s.find? id = none from missing]

lemma timely_invoke (c : Configuration M B W) (id : ActorId) (message : Option M) :
    c.toScheduler.Timely (c.invokeActs id message) (c.invoke id message).toScheduler := by
  cases hfound : c.find? id with
  | none =>
    rw [invoke_missing message hfound, invokeActs, hfound]
    exact .refl
  | some entry =>
    rw [invoke_found message hfound, invokeActs, hfound]
    exact (Script.timely _ _).trans (.single (.settle _ id _) fun _ => trivial)

lemma dispatch_wakeup {c : Configuration M B W} {wakeups : Fifo ActorId}
    (next : c.wakeups.pop? = some (id, wakeups)) :
    c.dispatch = (true, (c.withWakeups wakeups).invoke id none) := by
  unfold dispatch
  rw [next]
  rfl

lemma dispatch_message {c : Configuration M B W} {e : Envelope M} {queue : Fifo (Envelope M)}
    (idle : c.wakeups.pop? = none) (next : c.queue.pop? = some (e, queue)) :
    c.dispatch = (true, (c.withQueue e.target queue).invoke e.target (some e.message)) := by
  unfold dispatch
  rw [idle, next]
  rfl

lemma dispatch_nothing {c : Configuration M B W} (idle : c.wakeups.pop? = none)
    (empty : c.queue.pop? = none) : c.dispatch = (false, c) := by
  unfold dispatch
  rw [idle, empty]

lemma timely_dispatch (c : Configuration M B W) :
    c.toScheduler.Timely c.dispatchActs c.dispatch.2.toScheduler := by
  unfold dispatchActs
  cases hwake : c.wakeups.pop? with
  | some x =>
    obtain ⟨id, wakeups⟩ := x
    rw [dispatch_wakeup hwake]
    have htake : c.takeWakeup = (some id, (c.withWakeups wakeups).toScheduler) := by
      rw [Scheduler.takeWakeup, hwake]
      rfl
    have hstep := Scheduler.Step.takeWakeup c.toScheduler
    rw [htake] at hstep
    exact .cons hstep (fun _ => trivial) (timely_invoke ..)
  | none =>
    cases hqueue : c.queue.pop? with
    | none =>
      rw [dispatch_nothing hwake hqueue]
      exact .refl
    | some x =>
      obtain ⟨e, queue⟩ := x
      rw [dispatch_message hwake hqueue]
      have hinvoke := timely_invoke (c.withQueue e.target queue) e.target (some e.message)
      dsimp only
      cases hfound : c.find? e.target with
      | some entry => exact .cons (.receive hqueue hfound) (fun _ => trivial) hinvoke
      | none => exact .cons (.discard hqueue hfound) (fun _ => trivial) hinvoke

lemma timely_dispatchFrom (count limit : Nat) (c : Configuration M B W) :
    c.toScheduler.Timely (c.dispatchLoopActs limit) (dispatchFrom count limit c).2.toScheduler := by
  induction limit generalizing count c with
  | zero => exact .refl
  | succ limit ih =>
    refine (timely_dispatch c).trans ?_
    rw [dispatchFrom]
    obtain ⟨more, c'⟩ := c.dispatch
    cases more with
    | true => exact ih _ c'
    | false => exact .refl

lemma timely_tick (c : Configuration M B W) :
    c.toScheduler.Timely c.tickActs c.tick.2.toScheduler := by
  unfold tickActs tick
  cases c.state with
  | halted | paused => exact .refl
  | running period =>
    set moved : Configuration M B W := c.modify fun s =>
      { s.advance period with clock := (s.advance period).clock.recordTick }
    set after := (moved.dispatchLoop moved.settings.batchLimit.toNat).2
    have hmove : (c.toScheduler.advance period).Step .noted moved.toScheduler := .tick _
    have hloop : (c.toScheduler.advance period).Timely
        (.noted :: moved.dispatchLoopActs moved.settings.batchLimit.toNat) after.toScheduler :=
      .cons hmove (fun _ => trivial) (timely_dispatchFrom 0 _ moved)
    refine .cons (.advance _ period) (fun _ => min_le_right _ _) ?_
    change Scheduler.Timely _ _ (if after.pending = 0 ∧ after.scheduled = 0 then
      after.modify (·.pause) else after).toScheduler
    split
    · exact hloop.trans (.single (.setState _ _) fun _ => trivial)
    · exact hloop

/-- Jumps go to due times. -/
lemma timely_skip (timers : List (Timer M)) (s : Scheduler M B) :
    s.Steps (skipActs timers s)
      (timers.foldl (fun s t => if s.isIdle then s.advanceTo t.due else s) s) ∧
    (s.InTime → (∀ t ∈ timers, t.due ≤ last) →
      (timers.foldl (fun s t => if s.isIdle then s.advanceTo t.due else s) s).InTime ∧
        ∀ a ∈ skipActs timers s, a.InTime) := by
  induction timers generalizing s with
  | nil => exact ⟨.refl, fun h _ => ⟨h, fun _ ha => absurd ha not_mem_nil⟩⟩
  | cons t timers ih =>
    rw [skipActs, foldl_cons]
    split
    · obtain ⟨hsteps, htimely⟩ := ih (s.advanceTo t.due)
      refine ⟨.cons (.jump s t.due) hsteps, fun h due => ?_⟩
      obtain ⟨hfirst, hrest⟩ := forall_mem_cons.1 due
      have hjump : (s.releaseAct (s.clock.advanceTo t.due)).InTime := max_le h.now hfirst
      obtain ⟨hend, hacts⟩ := htimely ((Scheduler.Step.jump s t.due).inTime h hjump).1 hrest
      exact ⟨hend, forall_mem_cons.2 ⟨hjump, hacts⟩⟩
    · exact (ih s).imp_right fun htimely h due => htimely h (forall_mem_cons.1 due).2

omit [Behavior M B W] in
lemma timely_skipAhead (c : Configuration M B W) :
    c.toScheduler.Timely (if c.isIdle then skipActs c.timers c.toScheduler else [])
      (c.modify (·.skipAhead)).toScheduler := by
  change c.toScheduler.Timely _ c.toScheduler.skipAhead
  unfold Scheduler.skipAhead
  split
  · obtain ⟨hsteps, htimely⟩ := timely_skip c.timers c.toScheduler
    exact ⟨hsteps, fun h => htimely h h.due⟩
  · exact .refl

lemma timely_runIdle (count limit : Nat) (c : Configuration M B W) :
    c.toScheduler.Timely (c.runIdleActs limit) (runIdleFrom count limit c).2.toScheduler := by
  induction limit generalizing count c with
  | zero => exact .refl
  | succ limit ih =>
    refine (timely_skipAhead c).trans ((timely_dispatch _).trans ?_)
    rw [runIdleFrom]
    obtain ⟨more, c'⟩ := (c.modify (·.skipAhead)).dispatch
    cases more with
    | true => exact ih _ c'
    | false => exact .refl

lemma timely_command (command : Command M B) (c : Configuration M B W) :
    c.toScheduler.Timely (command.acts c) (command.apply c).toScheduler := by
  cases command with
  | ask script => exact script.timely c.toScheduler
  | dispatch => exact timely_dispatch c
  | dispatchLoop limit => exact timely_dispatchFrom 0 limit c
  | tick => exact timely_tick c
  | advance ms => exact .single (.advance _ ms) fun _ => min_le_right _ _
  | runUntilIdle limit => exact timely_runIdle 0 limit c
  | run | halt | pause | resume => exact .single (.setState _ _) fun _ => trivial

/-- Whatever a host tells a configuration to do, its acts are steps. -/
theorem timely_history (c : Configuration M B W) (commands : List (Command M B)) :
    c.toScheduler.Timely (c.history commands) (c.obey commands).toScheduler := by
  induction commands generalizing c with
  | nil => exact .refl
  | cons command commands ih => exact (timely_command command c).trans (ih _)

end Configuration

end Troupe
