import Troupe.Proofs.Apart
import Troupe.Proofs.Idle

/-!
What happens outside of a task, as the task sees it.

While a task waits, others run, names are bound and frames are added. The task sees of this
(`Store.Outside`) that waiters of its own are told something: whoever waits for a slot waits on, or
was told. A task that is told something while it does not run asks for its actor to be resumed.

* `Task.Poll.outside`: the run of another task.
* `Store.Outside.bind`: a name that is bound by whom ever.
-/

namespace Troupe

open Agenda Array Nat

/-! ### Wake-ups -/

namespace Store

/-- Wake-ups that were asked for stay, and a task that was told something while it did not run has
asked for its actor to be resumed. -/
structure Rouses (task : Nat) (s s' : Store) : Prop where
  kept : ∀ id ∈ s.wakeups, id ∈ s'.wakeups
  asked : (s.agenda task).running = false → (s.agenda task).muted = false →
    (s'.agenda task).woken = true →
      (s.agenda task).woken = true ∨ (s.agenda task).actor ∈ s'.wakeups

variable {task : Nat}

lemma Rouses.refl (s : Store) : s.Rouses task s :=
  ⟨fun _ hid => hid, fun _ _ woken => .inl woken⟩

/-- One after the other; the flags of the task are the same in between. -/
lemma Rouses.trans {s s1 s' : Store} (h1 : s.Rouses task s1) (h2 : s1.Rouses task s')
    (flags : (s1.agenda task).actor = (s.agenda task).actor ∧
      (s1.agenda task).muted = (s.agenda task).muted ∧
      (s1.agenda task).running = (s.agenda task).running) : s.Rouses task s' := by
  obtain ⟨hactor, hmuted, hrunning⟩ := flags
  refine ⟨fun id hid => h2.kept id (h1.kept id hid), fun running muted woken => ?_⟩
  rcases h2.asked (hrunning.trans running) (hmuted.trans muted) woken with h | h
  · exact (h1.asked running muted h).imp id (h2.kept _)
  · exact .inr (hactor ▸ h)

lemma rouses_wake (s : Store) (w : Waiter) (hs : task < s.agendas.size) :
    s.Rouses task (s.wake w) := by
  obtain ⟨task', called, alerts, heq, hother, hcalled, -⟩ := s.wake_eq w
  refine ⟨fun id hid => ?_, fun running muted woken => ?_⟩
  · rw [heq]
    exact mem_append_left _ hid
  · rw [s.agenda_wake w hs] at woken
    by_cases htask : task = task'
    · subst htask
      rcases hcalled with hcalled | ⟨-, hsame⟩
      · rw [heq, hcalled, caller, running, muted]
        exact .inr (mem_append_right _ (mem_singleton_self _))
      · exact .inl (hsame ▸ woken)
    · rw [hother task htask] at woken
      exact .inl woken

lemma rouses_wakeAll (ws : List Waiter) (s : Store) (hs : task < s.agendas.size) :
    s.Rouses task (ws.foldl wake s) := by
  induction ws generalizing s with
  | nil => exact .refl s
  | cons w ws ih =>
    refine (s.rouses_wake w hs).trans (ih (s.wake w) ((s.size_wakeAll [w]).symm ▸ hs)) ?_
    rw [agenda_wake s w hs]
    exact (Later.told task _ w).flags

/-! ### Outside of a task -/

/-- What a task sees of what happens outside of it: waiters of its own are told something. Whoever
waits for a slot waits on, or was told. -/
structure Outside (task : Nat) (s s' : Store) : Prop where
  heap : s.heap.Anchors s'.heap
  size : s.agendas.size ≤ s'.agendas.size
  told : task < s.agendas.size → ∃ ws : List Waiter,
    s'.agenda task = ws.foldl (told task) (s.agenda task)
  moored : task < s.agendas.size → ∀ w slot, (s.agenda task).Listens task w →
    s.heap.Moored w slot → s'.heap.Moored w slot ∨ (s'.agenda task).Heard w
  rouses : task < s.agendas.size → s.Rouses task s'

namespace Outside

variable {s s1 s' : Store} {cx : Context} {who : Waiter}

/-- The agenda of the task stays as it is, and so does everyone who waits. -/
lemma of_agenda (heap : s.heap.Anchors s'.heap) (size : s.agendas.size ≤ s'.agendas.size)
    (agenda : task < s.agendas.size → s'.agenda task = s.agenda task)
    (moored : ∀ w slot, s.heap.Moored w slot → s'.heap.Moored w slot)
    (wakeups : s'.wakeups = s.wakeups) : s.Outside task s' where
  heap := heap
  size := size
  told hs := ⟨[], agenda hs⟩
  moored _ w slot _ hm := .inl (moored w slot hm)
  rouses hs := ⟨fun _ hid => wakeups ▸ hid, fun _ _ woken => .inl (agenda hs ▸ woken)⟩

lemma refl (s : Store) : s.Outside task s :=
  .of_agenda (.refl _) le_rfl (fun _ => rfl) (fun _ _ => id) rfl

lemma trans (h1 : s.Outside task s1) (h2 : s1.Outside task s') : s.Outside task s' where
  heap := h1.heap.trans h2.heap
  size := h1.size.trans h2.size
  told hs := by
    obtain ⟨ws, hws⟩ := h1.told hs
    obtain ⟨ws', hws'⟩ := h2.told (lt_of_lt_of_le hs h1.size)
    exact ⟨ws ++ ws', by rw [hws', hws, List.foldl_append]⟩
  moored hs w slot hl hm := by
    have hs1 := lt_of_lt_of_le hs h1.size
    obtain ⟨ws, hws⟩ := h1.told hs
    obtain ⟨ws', hws'⟩ := h2.told hs1
    rcases h1.moored hs w slot hl hm with hm1 | hheard
    · refine h2.moored hs1 w slot ?_ hm1
      rw [hws]
      exact (Later.toldAll task ws _).listens hl
    · refine .inr ?_
      rw [hws']
      exact (Later.toldAll task ws' _).heard hheard
  rouses hs := by
    obtain ⟨ws, hws⟩ := h1.told hs
    refine (h1.rouses hs).trans (h2.rouses (lt_of_lt_of_le hs h1.size)) ?_
    rw [hws]
    exact (Later.toldAll task ws _).flags

/-- A change of other parts of the store. -/
lemma of_eq (heap : s'.heap = s.heap) (agendas : s'.agendas = s.agendas)
    (wakeups : s'.wakeups = s.wakeups) : s.Outside task s' :=
  .of_agenda (heap ▸ .refl _) (by rw [agendas]) (fun _ => by rw [agenda, agenda, agendas])
    (fun _ _ => by rw [heap]; exact id) wakeups

/-- A change of the heap under which everyone goes on waiting. -/
lemma onHeap (s : Store) {h : Heap} (anchors : s.heap.Anchors h)
    (moored : ∀ w slot, s.heap.Moored w slot → h.Moored w slot) :
    s.Outside task { s with heap := h } :=
  .of_agenda anchors le_rfl (fun _ => rfl) moored rfl

lemma grows (s : Store) {h : Heap} (grows : s.heap.Grows h) : s.Outside task { s with heap := h } :=
  .onHeap s (.of_grows grows) fun _ _ hm => hm.grows grows.slots.choose_spec

lemma modifyAgenda (s : Store) {task' : Nat} (f : Agenda → Agenda) (hne : task' ≠ task) :
    s.Outside task (s.modifyAgenda task' f) :=
  .of_agenda (.refl _) (by rw [size_modifyAgenda]) (fun _ => s.agenda_modifyAgenda_of_ne f hne)
    (fun _ _ => id) rfl

lemma wakeAll (s : Store) (ws : List Waiter) : s.Outside task (ws.foldl wake s) := by
  refine ⟨?_, by rw [size_wakeAll], fun hs => ⟨ws,
      s.agenda_wakeAll ws hs⟩, fun _ _ _ _ hm => .inl ?_, s.rouses_wakeAll ws⟩
  · rw [heap_wakeAll]
    exact .refl _
  · rwa [heap_wakeAll]

lemma bind (s : Store) (name : String) (v : Value) (env : Env) :
    s.Outside task (s.bind name v env).2 := by
  set waiting := (s.heap.bind name v env).2.1 with hwaiting
  set s1 : Store := { s with heap := (s.heap.bind name v env).2.2 } with hs1
  have hbind : (s.bind name v env).2 = waiting.foldl wake s1 := rfl
  have hafter : s1.Outside task (waiting.foldl wake s1) := .wakeAll s1 waiting
  rw [hbind]
  refine ⟨(s.heap.anchors_bind name v env).trans hafter.heap, hafter.size, hafter.told, ?_,
    fun hs => ⟨(hafter.rouses hs).kept, (hafter.rouses hs).asked⟩⟩
  intro hs w slot hl hm
  rcases s.heap.bind_slots name v env slot with hsame | ⟨htold, _⟩
  · refine .inl ?_
    rw [heap_wakeAll]
    obtain ⟨ws, hws, hin⟩ := hm
    exact ⟨ws, by rw [← hws, ← hsame], hin⟩
  · refine .inr ?_
    obtain ⟨ws, hws, hin⟩ := hm
    rw [hws] at htold
    cases htold
    rw [agenda_wakeAll s1 _ hs]
    exact heard_toldAll hl hin

lemma touch (h : Touch cx who s s') (hne : cx.task ≠ task) : s.Outside task s' := by
  cases h with
  | heap grows => exact .grows s grows
  | bind _ name v env => exact .bind s name v env
  | @park _ slot unbound =>
    exact .onHeap s (s.heap.anchors_park slot who) fun _ _ hm => hm.park slot
  | request | reserve => exact .of_eq rfl rfl rfl
  | detach _ job => exact .modifyAgenda s _ hne
  | read _ ticket =>
    rw [readAnswer_eq]
    exact .modifyAgenda s _ hne

lemma moves (h : s.Moves cx s') (hne : cx.task ≠ task) : s.Outside task s' := by
  induction h with
  | refl => exact .refl s
  | tail _ last ih =>
    refine ih.trans ?_
    cases last with
    | touch _ touch => exact .touch touch hne
    | stir _ ws _ _ => exact (Outside.modifyAgenda _ _ hne).trans (.wakeAll _ ws)

lemma close (s : Store) {cx : Context} (hne : cx.task ≠ task) : s.Outside task (s.close cx.task) :=
  .moves (course_close s).steps hne

lemma newTransaction (s : Store) : s.Outside task s.newTransaction.2 := .of_eq rfl rfl rfl

lemma newAgenda (s : Store) (actor : ActorId) (muted : Bool) :
    s.Outside task (s.newAgenda actor muted).2 := by
  refine .of_agenda (.refl _) (by simp [Store.newAgenda]) (fun hs => ?_) (fun _ _ => id) rfl
  simp [agenda, Store.newAgenda, getElem?_push, Nat.ne_of_lt hs]

lemma onTransaction {α : Type} (s : Store) (i : Nat) (f : Transaction → α × Transaction) :
    s.Outside task (s.onTransaction i f).2 := .of_eq rfl rfl rfl

end Outside

end Store

/-! ### The run of another task -/

namespace Task

variable {task : Nat} {g : Goal} {s s' : Store} {log : List Request}

/-- The run of a task, as another one sees it. -/
theorem Poll.outside {t t' : Task g} (h : Poll t s log t' s') (hne : t.context.task ≠ task) :
    s.Outside task s' := .moves h.course.steps hne

end Task

end Troupe
