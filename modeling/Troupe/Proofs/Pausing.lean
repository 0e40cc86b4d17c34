import Troupe.Proofs.Mailbox

/-!
A run that has paused has nothing left to do.

A run is paused by a tick that leaves nothing pending and no timer. From then on no behavior is run,
because there is neither a message nor a wake-up to run it for, and only behaviors set timers and
ask for wake-ups. What the host sends continues the run. So a paused run stays without work
(`Scheduler.WellPaused`), however the host's commands follow each other.

* `Script.run_awake`: a behavior cannot pause the run it is part of.
* `Command.apply_wellPaused`: one command of the host.
* `Configuration.idle_of_paused`: all commands of the host.
-/

namespace Troupe

open Troupe.Configuration

namespace Scheduler

variable {M B : Type} {s s' : Scheduler M B}

/-- The run is not paused. -/
def Awake (s : Scheduler M B) : Prop := s.state.isPaused = false

/-- No message, no wake-up and no timer is left. -/
structure Spent (s : Scheduler M B) : Prop where
  queue : s.queue.toList = []
  wakeups : s.wakeups.toList = []
  timers : s.timers = []

/-- If the run is paused, then there is nothing left to do. -/
def WellPaused (s : Scheduler M B) : Prop := s.Awake ∨ s.Spent

/-- A send continues a paused run. -/
lemma awake_of_send {message : M} {target : ActorId} (granted : s.send message target = .ok s') :
    s'.Awake := by
  obtain ⟨-, rfl⟩ := send_ok granted
  rw [Awake, resume]
  cases s.state <;> rfl

lemma Awake.release (h : s.Awake) (t : Timer M) : (s.release t).Awake := by
  unfold Scheduler.release
  split
  · rename_i granted
    exact awake_of_send granted
  · exact h

lemma Awake.releaseTimers (h : s.Awake) (clock : Clock) :
    (Scheduler.releaseTimers { s with clock }).Awake := by
  unfold Scheduler.releaseTimers
  exact List.foldlRecOn _ _ (motive := Awake) h fun _ h' t _ => h'.release t

lemma Spent.releaseTimers (h : s.Spent) (clock : Clock) :
    (Scheduler.releaseTimers { s with clock }).Spent := by
  have hnone : Scheduler.releaseTimers { s with clock } = { s with clock } := by
    simp [Scheduler.releaseTimers, h.timers]
  rw [hnone]
  exact ⟨h.queue, h.wakeups, h.timers⟩

lemma WellPaused.advance (h : s.WellPaused) (ms : Millis) : (s.advance ms).WellPaused :=
  h.imp (·.releaseTimers _) (·.releaseTimers _)

lemma WellPaused.advanceTo (h : s.WellPaused) (time : Millis) : (s.advanceTo time).WellPaused :=
  h.imp (·.releaseTimers _) (·.releaseTimers _)

lemma WellPaused.skipAhead (h : s.WellPaused) : s.skipAhead.WellPaused := by
  unfold Scheduler.skipAhead
  split
  · refine List.foldlRecOn _ _ (motive := WellPaused) h fun s' h' t _ => ?_
    split
    · exact h'.advanceTo t.due
    · exact h'
  · exact h

/-- What is pending and what is scheduled is all there is to do. -/
lemma spent_of_nothing_left (pending : s.pending = 0) (scheduled : s.scheduled = 0) : s.Spent := by
  simp only [Scheduler.pending, Fifo.size_eq_length, Nat.add_eq_zero_iff, List.length_eq_zero_iff]
    at pending
  exact ⟨pending.1, pending.2, List.length_eq_zero_iff.1 scheduled⟩

end Scheduler

namespace Script

open Scheduler

variable {M B α : Type} {s : Scheduler M B}

/-- A request that may be refused keeps what it keeps when it is granted. -/
lemma settle_keeps {P : Scheduler M B → Prop} {granted : Except Fault (Scheduler M B)} (h : P s)
    (keeps : ∀ s', granted = .ok s' → P s') : P (settle s granted).2 := by
  cases granted with
  | ok s' => exact keeps s' rfl
  | error fault => exact h

/-- A behavior cannot pause the run it is part of. -/
lemma run_awake (x : Script M B α) (h : s.Awake) : (x.run s).2.Awake := by
  induction x generalizing s with
  | done a => exact h
  | send m t k ih => exact ih _ (settle_keeps h fun s' => awake_of_send)
  | sendAfter d m t k ih =>
    refine ih _ (settle_keeps h fun s' granted => ?_)
    obtain ⟨-, rfl⟩ := sendAfter_ok granted
    exact h
  | create b n k ih | reserve k ih | issued k ih | countWakeups k ih => exact ih _ h
  | createReserved id b n k ih =>
    refine ih _ (settle_keeps h fun s' granted => ?_)
    obtain ⟨-, rfl⟩ := createReserved_ok granted
    exact h
  | wake id k ih => exact ih h
  | takeWakeup k ih =>
    have htake : s.takeWakeup.2.Awake := by
      rw [takeWakeup_snd]
      exact h
    exact ih _ htake

/-- The script creates actors and sends to them, and leaves the timers and the wake-ups alone. -/
def Direct : Script M B α → Prop
  | done _ => True
  | send _ _ k | createReserved _ _ _ k => ∀ r, (k r).Direct
  | create _ _ k | reserve k => ∀ id, (k id).Direct
  | issued k => ∀ n, (k n).Direct
  | sendAfter .. | wake .. | takeWakeup _ | countWakeups _ => False

/-- A direct script leaves a paused run without work, or continues it. -/
lemma run_wellPaused (x : Script M B α) (direct : x.Direct) (h : s.WellPaused) :
    (x.run s).2.WellPaused := by
  have registers : ∀ {s : Scheduler M B} (id : ActorId) (b : B) (name : String),
      s.WellPaused → (s.register id b name).WellPaused :=
    fun _ _ _ h => h.imp id fun h => ⟨h.queue, h.wakeups, h.timers⟩
  have reserves : ∀ {s : Scheduler M B}, s.WellPaused → s.reserve.2.WellPaused :=
    fun h => h.imp id fun h => ⟨h.queue, h.wakeups, h.timers⟩
  induction x generalizing s with
  | done a => exact h
  | send m t k ih =>
    exact ih _ (direct _) (settle_keeps h fun s' granted => .inl (awake_of_send granted))
  | create b n k ih => exact ih _ (direct _) (registers _ b n (reserves h))
  | createReserved id b n k ih =>
    refine ih _ (direct _) (settle_keeps h fun s' granted => ?_)
    rw [Scheduler.createReserved] at granted
    split at granted <;> cases granted
    exact registers id b n h
  | reserve k ih => exact ih _ (direct _) (reserves h)
  | issued k ih => exact ih _ (direct _) h
  | _ => exact direct.elim

end Script

namespace Configuration

open Scheduler (Awake WellPaused Spent)

variable {M B W : Type} [Behavior M B W] {c : Configuration M B W}

lemma invoke_awake (id : ActorId) (message : Option M) (h : c.Awake) :
    (c.invoke id message).Awake := by
  cases hfound : c.find? id with
  | none =>
    rwa [invoke_missing message hfound]
  | some entry =>
    rw [invoke_found message hfound]
    exact Script.run_awake _ h

/-- A dispatch that does something finds a run that is not paused, and leaves it so. -/
lemma dispatch_wellPaused (h : c.WellPaused) : c.dispatch.2.WellPaused := by
  cases hwake : c.wakeups.pop? with
  | some x =>
    obtain ⟨id, wakeups⟩ := x
    rw [dispatch_wakeup hwake]
    refine h.elim (fun awake => .inl (invoke_awake id none awake)) fun spent => ?_
    have hcons := Fifo.toList_eq_cons_of_pop? hwake
    rw [spent.wakeups] at hcons
    cases hcons
  | none =>
    cases hqueue : c.queue.pop? with
    | some x =>
      obtain ⟨e, queue⟩ := x
      rw [dispatch_message hwake hqueue]
      refine h.elim (fun awake => .inl (invoke_awake e.target (some e.message) awake)) fun spent =>
        ?_
      have hcons := Fifo.toList_eq_cons_of_pop? hqueue
      rw [spent.queue] at hcons
      cases hcons
    | none =>
      rwa [dispatch_nothing hwake hqueue]

lemma dispatchFrom_wellPaused (count limit : Nat) (h : c.WellPaused) :
    (dispatchFrom count limit c).2.WellPaused := by
  induction limit generalizing count c with
  | zero => exact h
  | succ limit ih =>
    have hnext := dispatch_wellPaused h
    rw [dispatchFrom]
    generalize c.dispatch = r at hnext
    obtain ⟨more, c'⟩ := r
    cases more with
    | true => exact ih (count + 1) hnext
    | false => exact hnext

lemma runIdleFrom_wellPaused (count limit : Nat) (h : c.WellPaused) :
    (runIdleFrom count limit c).2.WellPaused := by
  induction limit generalizing count c with
  | zero => exact h
  | succ limit ih =>
    have hskip : (c.modify (·.skipAhead)).WellPaused := h.skipAhead
    have hnext := dispatch_wellPaused hskip
    rw [runIdleFrom]
    generalize (c.modify (·.skipAhead)).dispatch = r at hnext
    obtain ⟨more, c'⟩ := r
    cases more with
    | true => exact ih (count + 1) hnext
    | false => exact hnext

/-- A tick pauses the run only if nothing is left to do. -/
lemma tick_wellPaused (h : c.WellPaused) : c.tick.2.WellPaused := by
  unfold tick
  cases hstate : c.state with
  | halted | paused => exact h
  | running period =>
    set moved : Configuration M B W := c.modify fun s =>
      { s.advance period with clock := (s.advance period).clock.recordTick }
    set after := (moved.dispatchLoop moved.settings.batchLimit.toNat).2
    have hmoved : moved.WellPaused :=
      (h.advance period).imp id fun h => ⟨h.queue, h.wakeups, h.timers⟩
    have hafter : after.WellPaused := dispatchFrom_wellPaused 0 _ hmoved
    change (if after.pending = 0 ∧ after.scheduled = 0 then
      after.modify (·.pause) else after).WellPaused
    split
    · rename_i hleft
      have hspent : after.Spent := Scheduler.spent_of_nothing_left hleft.1 hleft.2
      exact .inr ⟨hspent.queue, hspent.wakeups, hspent.timers⟩
    · exact hafter

end Configuration

namespace Command

variable {M B W : Type} [Behavior M B W]

/-- The host leaves pausing, the timers and the wake-ups to the configuration. -/
def HandsOff : Command M B → Prop
  | ask script => script.Direct
  | pause => False
  | _ => True

lemma apply_wellPaused {c : Configuration M B W} {command : Command M B}
    (handsOff : command.HandsOff) (h : c.WellPaused) : (command.apply c).WellPaused := by
  cases command with
  | ask script => exact script.run_wellPaused handsOff h
  | dispatch => exact dispatch_wellPaused h
  | dispatchLoop limit => exact dispatchFrom_wellPaused 0 limit h
  | tick => exact tick_wellPaused h
  | advance ms => exact Scheduler.WellPaused.advance h ms
  | runUntilIdle limit => exact runIdleFrom_wellPaused 0 limit h
  | run | halt => exact .inl rfl
  | pause => exact handsOff.elim
  | resume =>
    refine .inl ?_
    change c.state.resume.isPaused = false
    cases c.state <;> rfl

end Command

namespace Configuration

variable {M B W : Type} [Behavior M B W]

/-- A paused run has nothing left to do, for all behaviors, as long as the host does not pause it
and does not set timers or ask for wake-ups itself: no message, no wake-up and no timer waits. -/
theorem idle_of_paused (settings : Settings) (world : W) (commands : List (Command M B))
    (handsOff : ∀ command ∈ commands, command.HandsOff) :
    let c : Configuration M B W := (ofSettings settings world).obey commands
    c.state.isPaused = true → c.queue.toList = [] ∧ c.wakeups.toList = [] ∧ c.timers = [] := by
  intro c paused
  have hpaused : c.WellPaused :=
    List.foldlRecOn commands _ (motive := fun c : Configuration M B W => c.WellPaused) (.inl rfl)
      fun _ h command hin => Command.apply_wellPaused (handsOff command hin) h
  rcases hpaused with awake | spent
  · rw [Scheduler.Awake, paused] at awake
    cases awake
  · exact ⟨spent.queue, spent.wakeups, spent.timers⟩

/-- A message goes to a timer, which sends it on to a printer after a while. -/
def relayed : List (Command Value Performer) :=
  [.run 4,
    .ask (.create .println "println" fun printer => .create .timer "timer" fun timer =>
      .send (Value.tuple [.number 10, .symbol "late", .actor printer]) timer fun _ => .done ()),
    .tick, .tick, .tick, .tick]

/-- The run pauses in the tick that releases and delivers the message, and not before. -/
theorem relayed_idle :
    let before : Configuration Value Performer World :=
      (ofSettings {} { fuel := 0 }).obey (relayed.take 5)
    let c : Configuration Value Performer World := (ofSettings {} { fuel := 0 }).obey relayed
    before.state = .running 4 ∧ before.scheduled = 1 ∧ c.world.output = #["#late"] ∧
      c.state = .paused 4 ∧ c.queue.toList = [] ∧ c.wakeups.toList = [] ∧ c.timers = [] := by
  intro before c
  have handsOff : ∀ command ∈ relayed, command.HandsOff := by
    simp [relayed, Command.HandsOff, Script.Direct]
  have hstate : c.state = .paused 4 := by decide +kernel
  exact ⟨by decide +kernel, by decide +kernel, by decide +kernel, hstate,
    idle_of_paused {} ({ fuel := 0 } : World) relayed handsOff (by rw [hstate]; rfl)⟩

end Configuration

end Troupe
