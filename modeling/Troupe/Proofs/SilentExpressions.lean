import Troupe.Proofs.Frames
import Troupe.Proofs.Ledger

/-!
Expressions run in silence.

An expression may apply functions of other deliveries, detach parts and wait for slots of others. As
long as it binds no slot that was there before, no one outside of its task is told anything, if the
task is muted: whoever waits for a new slot, or for an answer, is a part of the task. All that an
expression asks of its transaction is to create actors, and it takes the addresses one after the
other.

* `Store.Hush`: nobody outside of a task was told anything, and no other agenda has changed.
* `Store.Moves.hush`: so it is after the moves of a muted task that binds no slot of others.
* `Evaluation.Forest.begets`: the trees of expressions ask for new actors only.
-/

namespace Troupe

open Agenda Array List Option Request Store

namespace Agenda

/-- Telling leaves alone who waits for answers. -/
lemma Akin.told (task : Nat) (a : Agenda) (w : Waiter) : a.Akin (a.told task w) := by
  obtain ⟨hactor, hmuted, -⟩ := (Later.told task a w).flags
  refine ⟨hactor, hmuted, ?_⟩
  rintro who ⟨ticket, p, hp, hreply⟩
  have hslip : a.slip ticket = some (p.work, p.reply) := by
    rw [← slip_told task a w, slip, hp]
    rfl
  obtain ⟨q, hq, heq⟩ := map_eq_some_iff.1 hslip
  exact ⟨ticket, q, hq, (congrArg Prod.snd heq).trans hreply⟩

end Agenda

namespace Store

/-- Nobody outside of the task was told anything, and the agendas of other tasks are the same. -/
structure Hush (task : Nat) (s s' : Store) : Prop where
  wakeups : s'.wakeups = s.wakeups
  alerts : s'.alerts = s.alerts
  others : ∀ task' ≠ task, s'.agenda task' = s.agenda task'

/-- The task is muted, and only parts of it wait for its answers and for slots that are not in
`old`. -/
structure Muffled (task : Nat) (old : Heap) (s : Store) : Prop where
  inside : task < s.agendas.size
  muted : (s.agenda task).muted = true
  readers : ∀ who, (s.agenda task).Awaited who → who.Of task
  moored : ∀ who slot, s.heap.Moored who slot → old.slots.size ≤ slot → who.Of task

variable {task : Nat} {old : Heap} {cx : Context} {who : Waiter} {s s1 s' : Store}

namespace Hush

lemma refl (s : Store) : s.Hush task s := ⟨rfl, rfl, fun _ _ => rfl⟩

lemma trans (h : s.Hush task s1) (h' : s1.Hush task s') : s.Hush task s' :=
  ⟨h'.wakeups.trans h.wakeups, h'.alerts.trans h.alerts,
    fun task' hne => (h'.others task' hne).trans (h.others task' hne)⟩

lemma modifyAgenda (s : Store) (f : Agenda → Agenda) : s.Hush task (s.modifyAgenda task f) :=
  ⟨rfl, rfl, fun _ hne => s.agenda_modifyAgenda_of_ne f hne.symm⟩

/-- A muted task asks no one to be resumed. -/
lemma wake {w : Waiter} (own : w.Of task)
    (muted : (s.agenda task).muted = true) : s.Hush task (s.wake w) := by
  obtain ⟨task', called, alerts, heq, hother, hcalled, hown⟩ := s.wake_eq w
  obtain ⟨rfl, rfl⟩ := hown task own
  have hnone : called = #[] := by
    rcases hcalled with h | ⟨h, -⟩
    · rw [h, caller, muted, Bool.or_true, if_pos rfl]
    · exact h
  rw [heq, hnone, append_empty, append_empty]
  exact ⟨rfl, rfl, fun _ hne => s.agenda_modifyAgenda_of_ne _ hne.symm⟩

end Hush

namespace Muffled

/-- The agenda of the task changes, and only parts of the task come to wait for its answers. -/
lemma agenda (h : s.Muffled task old) (size : s'.agendas.size = s.agendas.size)
    (heap : s'.heap = s.heap) (muted : (s'.agenda task).muted = (s.agenda task).muted)
    (readers : ∀ who, (s'.agenda task).Awaited who → (s.agenda task).Awaited who ∨ who.Of task) :
    s'.Muffled task old where
  inside := size ▸ h.inside
  muted := muted.trans h.muted
  readers who hwho := (readers who hwho).elim (h.readers who) id
  moored := heap ▸ h.moored

/-- The heap changes, and only parts of the task come to wait for slots. -/
lemma heap (h : s.Muffled task old) {heap : Heap}
    (moored : ∀ who slot, heap.Moored who slot → s.heap.Moored who slot ∨ who.Of task) :
    ({ s with heap } : Store).Muffled task old where
  inside := h.inside
  muted := h.muted
  readers := h.readers
  moored who slot hm hslot := (moored who slot hm).elim (h.moored who slot · hslot) id

lemma wakeAll (ws : List Waiter) : ∀ {s : Store}, s.Muffled task old → (∀ w ∈ ws, w.Of task) →
    s.Hush task (ws.foldl wake s) ∧ (ws.foldl wake s).Muffled task old := by
  induction ws with
  | nil => exact fun h _ => ⟨.refl _, h⟩
  | cons w ws ih =>
    intro s h own
    have hakin := Akin.told task (s.agenda task) w
    rw [← s.agenda_wake w h.inside] at hakin
    have hhush : s.Hush task (s.wake w) := .wake (own w mem_cons_self) h.muted
    obtain ⟨hrest, hend⟩ := ih (h.agenda (s.size_wakeAll [w]) (s.heap_wakeAll [w]) hakin.muted
      fun who hwho => .inl (hakin.awaited who hwho)) fun w' hw' => own w' (mem_cons_of_mem w hw')
    exact ⟨hhush.trans hrest, hend⟩

lemma modifyAgenda (h : s.Muffled task old) {f : Agenda → Agenda}
    (akin : ∀ a : Agenda, a.Akin (f a)) : (s.modifyAgenda task f).Muffled task old := by
  have hagenda := s.agenda_modifyAgenda f h.inside
  refine h.agenda (s.size_modifyAgenda f) rfl ?_ fun who hwho => .inl ?_
  · rw [hagenda]
    exact (akin _).muted
  · rw [hagenda] at hwho
    exact (akin _).awaited who hwho

/-- One change by a part of the task that binds no slot of others. -/
lemma touch (h : s.Muffled cx.task old) (touch : Touch cx who s s') (own : who.Of cx.task)
    (silent : ∀ i < old.slots.size, s.heap.slot? i = none → s'.heap.slot? i = none) :
    s.Hush cx.task s' ∧ s'.Muffled cx.task old := by
  cases touch with
  | heap grows =>
    exact ⟨⟨rfl, rfl, fun _ _ => rfl⟩, h.heap fun _ _ hm => .inl (hm.of_grows grows.slots)⟩
  | bind _ name v env =>
    obtain ⟨htold, hwait⟩ := s.heap.bind_waiters name v env
    have hheap : (s.bind name v env).2.heap = (s.heap.bind name v env).2.2 := heap_wakeAll ..
    have hown : ∀ w ∈ (s.heap.bind name v env).2.1, w.Of cx.task := by
      intro w hw
      obtain ⟨slot, hm, hbound⟩ := htold w hw
      refine h.moored w slot hm (Nat.le_of_not_lt fun hslot => ?_)
      have hnone := silent slot hslot hm.unbound
      rw [hheap, hbound] at hnone
      cases hnone
    obtain ⟨hhush, hend⟩ := wakeAll _ (h.heap fun who slot hm => .inl (hwait who slot hm)) hown
    exact ⟨⟨hhush.wakeups, hhush.alerts, hhush.others⟩, hend⟩
  | @park _ slot unbound =>
    refine ⟨⟨rfl, rfl, fun _ _ => rfl⟩, h.heap fun w slot hm => ?_⟩
    exact hm.of_park.imp_right fun heq : w = who ∧ _ => heq.1 ▸ own
  | request | reserve =>
    exact ⟨⟨rfl, rfl, fun _ _ => rfl⟩, ⟨h.inside, h.muted, h.readers, h.moored⟩⟩
  | detach _ job =>
    refine ⟨.modifyAgenda s _, h.modifyAgenda fun a => ⟨rfl, rfl, ?_⟩⟩
    rintro who ⟨ticket, p, hp, hreply⟩
    rw [getElem?_push] at hp
    split at hp
    · cases hp
      cases hreply
    · exact ⟨ticket, p, hp, hreply⟩
  | read _ ticket =>
    have hagenda := s.agenda_modifyAgenda (·.read ticket who) h.inside
    rw [readAnswer_eq]
    refine ⟨.modifyAgenda s _, h.agenda (s.size_modifyAgenda _) rfl (by rw [hagenda]; rfl) ?_⟩
    rw [hagenda]
    rintro w ⟨t, p, hp, hreply⟩
    rw [Agenda.read, Array.getElem?_modify] at hp
    split at hp
    · obtain ⟨q, _, rfl⟩ := map_eq_some_iff.1 hp
      dsimp only at hreply
      split at hreply
      · cases hreply
      · cases hreply
        exact .inr own
    · exact .inl ⟨t, p, hp, hreply⟩

lemma move (h : s.Muffled cx.task old) (move : Move cx s s')
    (silent : ∀ i < old.slots.size, s.heap.slot? i = none → s'.heap.slot? i = none) :
    s.Hush cx.task s' ∧ s'.Muffled cx.task old := by
  cases move with
  | touch own touch => exact h.touch touch own silent
  | stir _ ws akin heard =>
    obtain ⟨hhush, hend⟩ := wakeAll ws (h.modifyAgenda akin)
      fun w hw => (heard w hw).elim id (h.readers w)
    exact ⟨(Hush.modifyAgenda s _).trans hhush, hend⟩

end Muffled

/-- The moves of a muted task that binds no slot of others. -/
theorem Moves.hush (h : Moves cx s s') (muffled : s.Muffled cx.task old)
    (silent : ∀ i < old.slots.size, s.heap.slot? i = none → s'.heap.slot? i = none) :
    s.Hush cx.task s' := by
  induction h using Relation.ReflTransGen.head_induction_on with
  | refl => exact .refl _
  | @head s s1 first rest ih =>
    -- a slot that is bound stays bound, so what holds in the end holds in between
    have hfirst : ∀ i < old.slots.size, s.heap.slot? i = none → s1.heap.slot? i = none := by
      intro i hi hnone
      by_contra hsome
      obtain ⟨v, hv⟩ := ne_none_iff_exists'.1 hsome
      exact nomatch (silent i hi hnone).symm.trans (Moves.retains rest |>.bound i v hv)
    obtain ⟨hhush, hmuffled⟩ := muffled.move first hfirst
    refine hhush.trans (ih hmuffled fun i hi hnone => silent i hi ?_)
    by_contra hsome
    obtain ⟨v, hv⟩ := ne_none_iff_exists'.1 hsome
    exact nomatch hnone.symm.trans (first.retains.bound i v hv)

/-- New actors were asked for, under the addresses after `n` up to `m`, one after the other. -/
structure Brood (n : Nat) (staged : List StagedActor) (m : Nat) : Prop where
  le : n ≤ m
  ids : staged.map (·.id.raw) = List.range' (n + 1) (m - n)
  unnamed : ∀ a ∈ staged, a.name = "new"

lemma Brood.append {n m k : Nat} {staged staged' : List StagedActor} (h : Brood n staged m)
    (h' : Brood m staged' k) : Brood n (staged ++ staged') k := by
  obtain ⟨hnm, hids, hnames⟩ := h
  obtain ⟨hmk, hids', hnames'⟩ := h'
  refine ⟨hnm.trans hmk, ?_, fun a ha => (List.mem_append.1 ha).elim (hnames a) (hnames' a)⟩
  rw [List.map_append, hids, hids', show m + 1 = n + 1 + (m - n) by omega, List.range'_append_1,
    show m - n + (k - m) = k - n by omega]

end Store

/-! ### What expressions ask for -/

/-- The transaction was asked for new actors, under all addresses that were handed out meanwhile,
and nothing else. -/
def Core.Begets (cx : Context) (c c' : Core) : Prop :=
  ∃ staged : List StagedActor,
    c'.transactions = c.transactions.modify cx.transaction (·.replay (staged.map .init)) ∧
      Store.Brood c.ids.issued staged c'.ids.issued

namespace Core.Begets

variable {cx : Context} {c c1 c' : Core}

lemma none (transactions : c'.transactions = c.transactions) (ids : c'.ids = c.ids) :
    c.Begets cx c' := by
  refine ⟨[], ?_, ?_⟩
  · rw [transactions]
    exact (modify_replay_nil ..).symm
  · rw [ids]
    exact ⟨le_rfl, by simp, fun _ ha => absurd ha not_mem_nil⟩

lemma trans (h : c.Begets cx c1) (h' : c1.Begets cx c') : c.Begets cx c' := by
  obtain ⟨staged, hlog, hbrood⟩ := h
  obtain ⟨staged', hlog', hbrood'⟩ := h'
  refine ⟨staged ++ staged', ?_, hbrood.append hbrood'⟩
  rw [hlog', hlog, modify_replay_append, List.map_append]

/-- A step that asks for nothing and keeps no address. -/
lemma of_passes {g : Goal} {e : Evaluation g} {s : Store} {log : List Request} (hg : g ≠ .outcome)
    (asked : log = []) (replays : s.transactions = c.transactions.modify
      cx.transaction (·.replay log)) (passes : Passes ((firstException? log).isSome = true) c.ids 0
      (stages log + e.reserved) s.ids) : c.Begets cx s.core := by
  subst asked
  rw [modify_replay_nil] at replays
  rw [(e.modest_of_ne hg).free] at passes
  rcases passes with ⟨hids, _⟩ | ⟨_, _, hnew | hlost⟩
  · exact .none replays hids
  · exact absurd hnew.symm (by simp [stages])
  · cases hlost

end Core.Begets

namespace Evaluation

variable {cx : Context} {g : Goal} {f f' : Evaluation g} {ds : List Work} {c c' : Core} {n : Nat}

/-- A small step of a tree that is no statement asks for a new actor, or for nothing. -/
lemma Micro.begets (step : Micro cx f c f' ds c') (hg : g ≠ .outcome) : ds = [] ∧
    c.Begets cx c' := by
  refine step.core_of_ne (Core.Begets cx) hg (fun c => .none rfl rfl) (fun job c hg => ?_)
    (fun frame r c hh => ?_)
    fun join a b c hh => ?_
  · exact .of_passes hg (by cases job <;> first | rfl | exact absurd rfl hg)
      (job.begin_transactions cx c.store) (job.begin_honest cx c.store).passes
  · have hreplay := frame.resume_transactions cx c.store r
    cases frame with
    | new env =>
      refine ⟨[⟨c.store.reserve.1, "new", r, env⟩], hreplay, Nat.le_succ _, ?_, fun a ha => ?_⟩
      · simp [Frame.resume, create, reserve, IdSource.next, onTransaction, Core.store,
          core]
      · rw [mem_singleton.1 ha]
    | _ =>
      first
        | exact absurd rfl hh
        | exact .of_passes hh rfl hreplay (Frame.resume_honest _ r cx c.store).passes
  · exact .of_passes hh (by cases join <;> first | rfl | exact absurd rfl hh)
      (join.resume_transactions cx c.store a b) (join.resume_honest a b cx c.store).passes

/-- The trees of expressions ask for new actors only. -/
theorem Forest.begets {trees trees' : List Work} (h : Forest cx n trees c trees' c') :
    (∀ w ∈ trees, w.goal ≠ .outcome) → c.Begets cx c' := by
  induction h with
  | refl trees c => exact fun _ => .none rfl rfl
  | park slot who _ ih => exact ih
  | @step n before after trees' g f f' ds c c1 c' first _ ih =>
    intro hgoals
    obtain ⟨rfl, hfirst⟩ := first.begets (hgoals ⟨g, f⟩ (by simp))
    refine hfirst.trans (ih fun w hw => ?_)
    simp only [List.append_nil, List.mem_append, List.mem_cons] at hw
    rcases hw with hw | rfl | hw
    · exact hgoals w (by simp [hw])
    · exact hgoals ⟨g, f⟩ (by simp)
    · exact hgoals w (by simp [hw])

end Evaluation

end Troupe
