import Troupe.Proofs.Freshness
import Troupe.Proofs.Timetable

/-!
The journal is a faithful transcript of a run.

Each act of a scheduler writes its own events into the journal (`Act.events`), at the time of the
act (`Scheduler.Step.account`). A journal that records everything therefore holds the events of all
acts, in order, and what the books of the run say about the acts can be read in it: which messages
are still on the queue, who is registered, how many timers wait.

Time does not run backwards as long as it stays within its bounds (`Scheduler.InTime`), which it
does when the clock jumps to due times only, so the entries are in the order of their times, too.

* `Scheduler.Steps.transcribed`: the journal of every run of a scheduler.
* `Configuration.journal_faithful`: that of a configuration, whatever its behaviors are and whatever
  its host tells it to do.
-/

namespace Troupe

open Act Array Event List

variable {j : Journal}

/-! ### Reading a journal -/

namespace Event

/-- The target of a message that was put on the queue. -/
def sent? : Event → Option ActorId
  | sent target => some target
  | _ => none

/-- The actor that was registered. -/
def created? : Event → Option ActorId
  | created id _ => some id
  | _ => none

/-- The target of a message that was handed over. -/
def delivered? : Event → Option ActorId
  | delivered target => some target
  | _ => none

/-- A message was put on the timers. -/
def isScheduled : Event → Bool
  | scheduled .. => true
  | _ => false

end Event

namespace Journal

/-- What has happened, from first to last. -/
def events (j : Journal) : List Event := j.entries.toList.map (·.event)

/-- The journal records everything and forgets nothing. -/
structure Complete (j : Journal) : Prop where
  recording : j.settings.recording = true
  unbounded : j.settings.maxEntries = 0

lemma entries_record (h : j.Complete) (time : Millis) (event : Event) :
    (j.record time event).entries = j.entries.push ⟨j.nextSeq, time, event⟩ := by
  simp [record, h.recording, h.unbounded, trim]

lemma settings_record (j : Journal) (time : Millis) (event : Event) :
    (j.record time event).settings = j.settings := by
  unfold record
  split <;> rfl

lemma Complete.record (h : j.Complete) (time : Millis) (event : Event) :
    (j.record time event).Complete := by
  obtain ⟨hrecording, hunbounded⟩ := h
  rw [← j.settings_record time event] at hrecording hunbounded
  exact ⟨hrecording, hunbounded⟩

lemma Complete.recordAll (h : j.Complete) (time : Millis) (events : List Event) :
    (j.recordAll time events).Complete :=
  foldlRecOn events _ (motive := Complete) h fun _ h' event _ => h'.record time event

/-- What is recorded is put behind all else, with the time. -/
lemma exists_recordAll (h : j.Complete) (time : Millis) (events : List Event) :
    ∃ new : List Record, (j.recordAll time events).entries.toList = j.entries.toList ++ new ∧
      new.map (·.event) = events ∧ ∀ r ∈ new, r.time = time := by
  induction events generalizing j with
  | nil => exact ⟨[], (append_nil _).symm, rfl, fun _ h => absurd h not_mem_nil⟩
  | cons event events ih =>
    obtain ⟨new, hentries, hevents, htimes⟩ := ih (h.record time event)
    refine ⟨⟨j.nextSeq, time, event⟩ :: new, ?_, by rw [map_cons, hevents], ?_⟩
    · rw [recordAll, foldl_cons]
      rw [entries_record h, Array.toList_push, List.append_assoc] at hentries
      exact hentries
    · exact forall_mem_cons.2 ⟨rfl, htimes⟩

lemma deliveries_eq (j : Journal) : j.deliveries.toList = j.events.filterMap delivered? := by
  rw [deliveries, Array.toList_filterMap, events, List.filterMap_map]
  rfl

/-- How many messages were put on the timers. -/
lemma tally_scheduled (j : Journal) : j.tally.scheduled = j.events.countP isScheduled := by
  have hfold : ∀ (records : List Record) (t : Tally),
      (records.foldl (fun t r => t.add r.event) t).scheduled =
        t.scheduled + (records.map (·.event)).countP isScheduled := by
    intro records
    induction records with
    | nil => exact fun t => rfl
    | cons r records ih =>
      intro t
      rw [foldl_cons, ih, map_cons, countP_cons, ← Nat.add_assoc, Nat.add_right_comm]
      cases r.event <;> rfl
  rw [tally, ← foldl_toList, hfold, events]
  exact Nat.zero_add _

/-- In a journal in the order of times, the entries since some time are the last ones. -/
lemma since_suffix (ordered : j.entries.toList.Pairwise (·.time ≤ ·.time)) (time : Millis) :
    (j.since time).toList <:+ j.entries.toList := by
  rw [since, toList_filter]
  generalize j.entries.toList = records at ordered
  induction records with
  | nil => exact suffix_refl _
  | cons r records ih =>
    obtain ⟨hfirst, hrest⟩ := pairwise_cons.1 ordered
    by_cases h : time ≤ r.time
    · -- all that follows is no earlier
      have hall : ∀ r' ∈ r :: records, decide (time ≤ r'.time) = true :=
        forall_mem_cons.2 ⟨decide_eq_true h, fun r' hr' => decide_eq_true (h.trans (hfirst r' hr'))⟩
      exact ⟨[], filter_eq_self.2 hall⟩
    · rw [filter_cons_of_neg (by simpa using h)]
      exact (ih hrest).trans (suffix_cons _ _)

end Journal

/-! ### What acts write -/

namespace Act

variable {M B : Type}

lemma filterMap_sent (a : Act M B) : a.events.filterMap sent? = a.enqueued.map (·.target) := by
  cases a with
  | released now fired lost =>
    rw [events, enqueued, List.filterMap_map, List.map_map, ← List.filterMap_eq_map]
    rfl
  | _ => rfl

lemma filterMap_delivered (a : Act M B) :
    a.events.filterMap delivered? = a.taken.map (·.target) := by
  cases a with
  | released now fired lost =>
    rw [events, List.filterMap_map]
    exact filterMap_eq_nil_iff.2 fun _ _ => rfl
  | _ => rfl

lemma taken_eq_delivered {a : Act M B} (h : ∀ e, a ≠ .discarded e) : a.taken = a.delivered := by
  cases a with
  | discarded e => exact absurd rfl (h e)
  | _ => rfl

lemma filterMap_created (a : Act M B) : a.events.filterMap created? = a.entered := by
  cases a with
  | released now fired lost =>
    rw [events, List.filterMap_map]
    exact filterMap_eq_nil_iff.2 fun _ _ => rfl
  | _ => rfl

lemma countP_scheduled (a : Act M B) : a.events.countP isScheduled = a.timed.length := by
  cases a with
  | released now fired lost =>
    rw [events, List.countP_map]
    exact countP_eq_zero.2 fun _ _ => Bool.false_ne_true
  | _ => rfl

end Act

namespace Scheduler

variable {M B : Type} {s s' : Scheduler M B} {a : Act M B} {acts : List (Act M B)}

/-! ### The transcript of a run -/

/-- The journal tells all acts of a run, in order and in time. -/
structure Transcribed (acts : List (Act M B)) (s : Scheduler M B) : Prop where
  inTime : s.InTime
  complete : s.journal.Complete
  events : s.journal.events = acts.flatMap events
  ordered : s.journal.entries.toList.Pairwise (·.time ≤ ·.time)
  past : ∀ r ∈ s.journal.entries.toList, r.time ≤ s.clock.now

lemma Transcribed.step (h : s.Transcribed acts) (step : s.Step a s') (inTime : a.InTime) :
    s'.Transcribed (acts ++ [a]) := by
  obtain ⟨hinTime, later⟩ := step.inTime h.inTime inTime
  have hjournal := step.account.journal
  obtain ⟨new, hentries, hevents, htimes⟩ :=
    Journal.exists_recordAll h.complete s'.clock.now a.events
  rw [← hjournal] at hentries
  refine ⟨hinTime, hjournal ▸ h.complete.recordAll _ _, ?_, ?_, ?_⟩
  · rw [Journal.events, hentries, List.map_append, hevents, ← Journal.events, h.events]
    simp
  · rw [hentries]
    refine pairwise_append.2 ⟨h.ordered, ?_, fun r hr r' hr' => ?_⟩
    · refine pairwise_of_forall_mem_list fun r hr r' hr' => ?_
      rw [htimes r hr, htimes r' hr']
    · rw [htimes r' hr']
      exact (h.past r hr).trans later
  · rw [hentries]
    refine forall_mem_append.2 ⟨fun r hr => (h.past r hr).trans later, fun r hr => ?_⟩
    rw [htimes r hr]

/-- The journal of every run that stays in time. -/
theorem Steps.transcribed {settings : Settings} (recording : settings.journal.recording = true)
    (unbounded : settings.journal.maxEntries = 0)
    (h : (ofSettings settings : Scheduler M B).Steps acts s) (inTime : ∀ a ∈ acts, a.InTime) :
    s.Transcribed acts := by
  induction h with
  | refl =>
    exact ⟨⟨Nat.zero_le _, fun _ h => absurd h not_mem_nil⟩, ⟨recording, unbounded⟩, rfl,
      Pairwise.nil, fun _ h => absurd h not_mem_nil⟩
  | snoc _ step ih =>
    rw [List.forall_mem_append] at inTime
    exact (ih inTime.1).step step (inTime.2 _ (mem_singleton_self _))

end Scheduler

/-! ### Configurations -/

namespace Configuration

variable {M B W : Type} [Behavior M B W]

/-- A journal that records everything from the start is a faithful trace of the run, for all
behaviors, whatever the host tells the configuration to do, and at every moment, also while a
behavior runs, as long as actors join only under addresses that were handed out. The targets of the
sends are those of the deliveries, followed by those of the messages that are on the queue. The
actors that were created are those that are registered. As many messages were scheduled as timers
wait or were released. And times do not decrease along the entries, and have passed, so that the
entries since some time are the last ones. -/
theorem journal_faithful (settings : Settings) (world : W) (commands : List (Command M B))
    (recording : settings.journal.recording = true) (unbounded : settings.journal.maxEntries = 0)
    (earned : Act.Earned ((ofSettings settings world : Configuration M B W).history commands)) :
    let start : Configuration M B W := ofSettings settings world
    let history := start.history commands
    start.toScheduler.Steps history (start.obey commands).toScheduler ∧
    ∀ acts rest s, history = acts ++ rest → start.toScheduler.Steps acts s →
      s.journal.events.filterMap sent? =
        s.journal.deliveries.toList ++ s.queue.toList.map (·.target) ∧
      s.journal.events.filterMap created? = s.registry.map Prod.fst ∧
      s.journal.tally.scheduled = s.timers.length + (acts.flatMap fired).length ∧
      s.journal.entries.toList.Pairwise (·.time ≤ ·.time) ∧
      (∀ r ∈ s.journal.entries, r.time ≤ s.clock.now) ∧
      ∀ time, (s.journal.since time).toList <:+ s.journal.entries.toList := by
  intro start history
  refine ⟨(timely_history start commands).steps, fun acts rest s hhistory hsteps => ?_⟩
  have hinTime : ∀ a ∈ acts ++ rest, a.InTime :=
    hhistory ▸
    ((timely_history start commands).inTime ⟨Nat.zero_le _, fun _ h => absurd h not_mem_nil⟩).2
  have hjournal := hsteps.transcribed recording unbounded (List.forall_mem_append.1 hinTime).1
  have hbalanced := Scheduler.Steps.balanced hsteps
  have hearned : Act.Earned (acts ++ rest) := hhistory ▸ (earned : Act.Earned history)
  have hissued := hsteps.issued hearned.of_append
  refine ⟨?_, ?_, ?_, hjournal.ordered, fun r hr => hjournal.past r hr.val,
    Journal.since_suffix hjournal.ordered⟩
  · have hsent : s.journal.events.filterMap sent? =
        (acts.flatMap enqueued).map (·.target) := by
      rw [hjournal.events, List.filterMap_flatMap, List.map_flatMap]
      simp only [filterMap_sent]
    have hdelivered : s.journal.deliveries.toList = (acts.flatMap delivered).map (·.target) := by
      rw [Journal.deliveries_eq, hjournal.events, List.filterMap_flatMap, List.map_flatMap]
      refine List.flatMap_congr fun a ha => ?_
      rw [filterMap_delivered, taken_eq_delivered (hbalanced.nothing_lost a ha).1]
    rw [hsent, hdelivered, hbalanced.fifo, List.map_append]
  · rw [hjournal.events, List.filterMap_flatMap, hissued.entered]
    simp only [filterMap_created]
  · have hlength := hbalanced.once.length_eq
    rw [List.length_append, Nat.add_comm] at hlength
    rw [Journal.tally_scheduled, hjournal.events, List.countP_flatMap, ← hlength,
      List.length_flatMap]
    exact congrArg List.sum (List.map_congr_left fun a _ => a.countP_scheduled)

/-- Settings with which everything is recorded. -/
def recordingAll : Settings := { journal := { recording := true } }

/-- Messages that are delivered, that wait on the queue, one of them released by a timer, and that
wait on the timers. -/
def recorded : List (Command Value Performer) :=
  [.ask (.reserve fun printer => .create .timer "timer" fun timer =>
    .createReserved printer .println "println" fun _ =>
      .send (Value.tuple [.number 3, .symbol "late", .actor printer]) timer fun _ =>
        .send (.symbol "early") printer fun _ => .done ()),
    .dispatchLoop 2,
    .advance 5,
    .ask (.send (.symbol "again") ⟨1⟩ fun _ => .sendAfter 9 (.symbol "last") ⟨1⟩ fun _ => .done ())]

theorem recorded_faithful :
    ∃ acts s, (Scheduler.ofSettings recordingAll : Scheduler Value Performer).Steps acts s ∧
      s.journal.deliveries = #[⟨2⟩, ⟨1⟩] ∧
      s.journal.events.filterMap sent? =
        s.journal.deliveries.toList ++ s.queue.toList.map (·.target) ∧
      s.journal.events.filterMap created? = [⟨2⟩, ⟨1⟩] ∧
      s.journal.events.filterMap created? = s.registry.map Prod.fst ∧
      s.journal.tally.scheduled = 2 ∧
      s.journal.tally.scheduled = s.timers.length + (acts.flatMap fired).length ∧
      (s.journal.since 5).size = 3 ∧ (s.journal.since 5).toList <:+ s.journal.entries.toList := by
  have h :=
    journal_faithful recordingAll ({ fuel := 0 } : World) recorded rfl rfl (by decide +kernel)
  have hend := h.2 _ [] _ (List.append_nil _).symm h.1
  exact ⟨_, _, h.1, by decide +kernel, hend.1, by decide +kernel, hend.2.1, by decide +kernel,
    hend.2.2.1, by decide +kernel, hend.2.2.2.2.2 5⟩

end Configuration

end Troupe
