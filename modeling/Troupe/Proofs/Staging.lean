import Troupe.Proofs.Sessions

/-!
A task stages actors under its own addresses only.

What a run stages was reserved by its own tree before, or is handed out meanwhile
(`Evaluation.owned_closed`). So all that a task ever stages is its own, also what is forgotten
because the task fails afterwards (`Task.Poll.owned`).
-/

namespace Troupe

open Agenda Array Multiset Nat Option Request Store Within

variable {ids ids' : IdSource} {s s' : Store} {who : Waiter} {cx : Context} {own : ActorId → Prop}
  {log : List Request}

/-- Addresses that belong to someone and are handed out. -/
def Owned (own : ActorId → Prop) (ids : IdSource) (held : Multiset ActorId) : Prop :=
  ∀ id ∈ held, own id ∧ id.raw ≤ ids.issued

namespace Owned

variable {own' : ActorId → Prop} {held held' : Multiset ActorId}

lemma zero : Owned own ids 0 := fun _ hid => absurd hid (notMem_zero _)

lemma add (h : Owned own ids held) (h' : Owned own ids held') : Owned own ids (held + held') :=
  fun id hid => (mem_add.1 hid).elim (h id) (h' id)

lemma left (h : Owned own ids (held + held')) : Owned own ids held :=
  fun id hid => h id (mem_add.2 (.inl hid))

lemma right (h : Owned own ids (held + held')) : Owned own ids held' :=
  fun id hid => h id (mem_add.2 (.inr hid))

lemma mono (h : Owned own ids held) (later : ids.issued ≤ ids'.issued)
    (same : ∀ id : ActorId, id.raw ≤ ids.issued → own id → own' id) : Owned own' ids' held :=
  fun id hid => ⟨same id (h id hid).2 (h id hid).1, (h id hid).2.trans later⟩

lemma later (h : Owned own ids held) (later : ids.issued ≤ ids'.issued) : Owned own ids' held :=
  h.mono later fun _ _ hid => hid

/-- What is passed on stays with its owner, who also owns what is handed out. -/
lemma passes (h : Owned own ids held) (free : ∀ id, ids.issued < id.raw → own id)
    {lost : Prop} (hp : Passes lost ids held held' ids') : Owned own ids' held' := by
  rcases hp with ⟨rfl, hle, _⟩ | ⟨rfl, hle, _⟩
  · exact fun id hid => h id (mem_of_le hle hid)
  · intro id hid
    rcases mem_cons.1 (mem_of_le hle hid) with rfl | hid
    · exact ⟨free _ (lt_succ_self _), le_rfl⟩
    · exact ⟨(h id hid).1, (h id hid).2.trans (le_succ _)⟩

end Owned

lemma stages_append (log log' : List Request) :
    stages (log ++ log') = stages log + stages log' := by
  simp [stages]

/-! ### Runs -/

namespace Evaluation

variable {g : Goal} {e e' : Evaluation g}

lemma Run.ids_le (h : Run cx who e s log e' s') : s.ids.issued ≤ s'.ids.issued :=
  (Within.touches h.touches).ids

lemma owned_append {log' : List Request} (h : Owned own ids (stages log))
    (later : ids.issued ≤ ids'.issued) (h' : Owned own ids' (stages log')) :
    Owned own ids' (stages (log ++ log')) := by
  rw [stages_append]
  exact (h.later later).add h'

/-- A step passes on what belongs to the owner of its tree. -/
lemma owned_step {held : Multiset ActorId} {lost : Prop} (later : ids.issued ≤ ids'.issued)
    (passes : Passes lost ids held (stages log + e'.reserved) ids')
    (free : ∀ id : ActorId, ids.issued < id.raw → own id) (owned : Owned own ids held) :
    ids.issued ≤ ids'.issued ∧ Owned own ids' (stages log) ∧ Owned own ids' e'.reserved := by
  have hpasses := owned.passes free passes
  exact ⟨later, hpasses.left, hpasses.right⟩

/-- What the steps of a run stage, and what they leave reserved, belongs to the owner of its
tree. -/
lemma owned_closed (own : ActorId → Prop) (cx : Context) (who : Waiter) :
    Closed cx who fun e s log e' s' => (∀ id, s.ids.issued < id.raw → own id) →
      Owned own s.ids e.reserved → s.ids.issued ≤ s'.ids.issued ∧
        Owned own s'.ids (stages log) ∧ Owned own s'.ids e'.reserved where
  refl e s := fun _ he => ⟨le_rfl, .zero, he⟩
  trans first second := by
    intro free he
    obtain ⟨hle, hlog, he1⟩ := first free he
    obtain ⟨hle', hlog', he'⟩ := second (fun id hid => free id (lt_of_le_of_lt hle hid)) he1
    exact ⟨hle.trans hle', owned_append hlog hle' hlog', he'⟩
  start job s := owned_step (touches (job.begin_trail cx who s).touches).ids
    (job.begin_honest cx s).passes
  read bound := fun _ _ => ⟨le_rfl, .zero, .zero⟩
  park unbound := fun _ _ => ⟨le_rfl, .zero, .zero⟩
  answer {g ticket s s' a} given := fun _ _ => ⟨(Run.answer (g := g) given).ids_le, .zero, .zero⟩
  await {g ticket s s'} pending := fun _ _ => ⟨(Run.await (g := g) pending).ids_le, .zero, .zero⟩
  resume frame r s := fun free he =>
    owned_step (touches (frame.resume_trail cx who s r).touches).ids
      (frame.resume_honest r cx s).passes free he.left
  join join a b s := fun free _ =>
    owned_step (touches (join.resume_trail cx who s a b).touches).ids
      (join.resume_honest a b cx s).passes free .zero
  merge a b s := fun free _ =>
    owned_step (touches (a.join_trail cx who s b).touches).ids
      (a.join_honest b cx s).passes free .zero
  failLeft right s := fun _ _ => ⟨le_rfl, .zero, .zero⟩
  failRight left s := fun _ _ => ⟨le_rfl, .zero, .zero⟩
  one frame part := by
    intro free he
    obtain ⟨hle, hlog, hpart⟩ := part free he.right
    exact ⟨hle, hlog, (he.left.later hle).add hpart⟩
  bothLeft right join left := by
    intro free he
    obtain ⟨hle, hlog, hleft⟩ := left free he.left
    exact ⟨hle, hlog, hleft.add (he.right.later hle)⟩
  bothRight left join right := by
    intro free he
    obtain ⟨hle, hlog, hright⟩ := right free he.right
    exact ⟨hle, hlog, (he.left.later hle).add hright⟩
  raceLeft right left := by
    intro free he
    obtain ⟨hle, hlog, hleft⟩ := left free he.left
    exact ⟨hle, hlog, hleft.add (he.right.later hle)⟩
  raceRight left right := by
    intro free he
    obtain ⟨hle, hlog, hright⟩ := right free he.right
    exact ⟨hle, hlog, (he.left.later hle).add hright⟩

end Evaluation

/-! ### What is left to do -/

/-- All that is left to do for a task. -/
structure Store.Left (s : Store) (task : Nat) (Q : Work → Prop) : Prop where
  size : task < s.agendas.size
  left : ∀ t w r, (s.agenda task).slip t = some (some w, r) → Q w

namespace Store.Left

variable {task : Nat} {Q Q' : Work → Prop}

lemma mono (h : s.Left task Q) (hQ : ∀ w, Q w → Q' w) : s.Left task Q' :=
  ⟨h.size, fun t w r hw => hQ w (h.left t w r hw)⟩

lemma modify (h : s.Left task Q) {f : Agenda → Agenda}
    (hf : ∀ t w r, (f (s.agenda task)).slip t = some (some w, r) →
      (∃ r', (s.agenda task).slip t = some (some w, r')) ∨ Q w) :
      (s.modifyAgenda task f).Left task Q := by
  refine ⟨by simpa using h.size, fun t w r hw => ?_⟩
  rw [agenda_modifyAgenda _ _ h.size] at hw
  exact (hf t w r hw).elim (fun ⟨r', hr'⟩ => h.left t w r' hr') id

lemma flags (h : s.Left task Q) {f : Agenda → Agenda}
    (hf : ∀ t, (f (s.agenda task)).slip t = (s.agenda task).slip t) :
    (s.modifyAgenda task f).Left task Q :=
  h.modify fun t _ r hw => .inl ⟨r, (hf t).symm.trans hw⟩

lemma told (h : s.Left task Q) (size : s.agendas.size ≤ s'.agendas.size) {ws : List Waiter}
    (agenda : s'.agenda task = ws.foldl (told task) (s.agenda task)) : s'.Left task Q := by
  refine ⟨lt_of_lt_of_le h.size size, fun t w r hw => h.left t w r ?_⟩
  rwa [agenda, slip_toldAll] at hw

lemma wakeAll (h : s.Left task Q) (ws : List Waiter) : (ws.foldl wake s).Left task Q :=
  h.told (s.size_wakeAll ws).ge (s.agenda_wakeAll ws h.size)

lemma touches (h : s.Left cx.task Q) (fresh : ∀ (g : Goal) (job : Job g), Q ⟨g, .start job⟩)
    (run : Touches cx who s s') : s'.Left cx.task Q := by
  refine ⟨(Touches.size_agendas run).symm ▸ h.size, ?_⟩
  have hstirs := run.agenda h.size
  have hleft := h.left
  generalize s.agenda cx.task = a at hleft hstirs
  generalize s'.agenda cx.task = a' at hstirs ⊢
  induction hstirs with
  | refl => exact hleft
  | @tail a1 a2 _ last ih =>
    intro t w r hw
    cases last with
    | told _ w' =>
      rw [slip_told] at hw
      exact ih t w r hw
    | detach _ job =>
      simp only [Agenda.slip, Agenda.detach, getElem?_push] at hw
      split at hw
      · cases hw
        exact fresh _ job
      · exact ih t w r hw
    | read _ ticket =>
      by_cases ht : ticket = t
      · subst ht
        rw [slip_read] at hw
        obtain ⟨⟨work, reply⟩, hslip, heq⟩ := map_eq_some_iff.1 hw
        cases heq
        exact ih _ w reply hslip
      · rw [slip_read_of_ne _ _ ht] at hw
        exact ih t w r hw

lemma taken {ticket : Nat} {s1 s2 : Store} {work : Option Work} (h : s.Left task Q)
    (popped : s.nextReady task = (some ticket, s1)) (taken : s1.takeWork task ticket = (work, s2)) :
    s2.Left task Q ∧ (∀ w ∈ work, Q w) ∧ s2.ids = s.ids := by
  obtain ⟨ready, _, rfl⟩ := nextReady_some popped
  have h1 : (s.modifyAgenda task fun a => { a with ready }).Left task Q := h.flags fun _ => rfl
  cases work with
  | none =>
    obtain ⟨rfl, _⟩ := takeWork_none taken
    exact ⟨h1, by simp, rfl⟩
  | some w =>
    obtain ⟨p, hp, hw, rfl⟩ := takeWork_some taken
    have hflags : ∀ p : Piece, { p with queued := false, woken := false }.work = p.work ∧
        { p with queued := false, woken := false }.reply = p.reply := fun p => ⟨rfl, rfl⟩
    refine ⟨h1.flags (slip_of_modify (i := ticket) rfl (fun p => (hflags p).1)
      fun p => (hflags p).2), ?_, rfl⟩
    rintro w' ⟨⟩
    exact h1.left ticket w p.reply (by rw [slip, hp, map_some, hw])

lemma putBack {ticket : Nat} {w : Work} {woken : Bool} (h : s.Left task Q) (hw : Q w)
    (back : s.putBack task ticket w = (woken, s')) : s'.Left task Q := by
  cases back
  refine h.modify fun t w' r hslip => ?_
  simp only [slip, getElem?_modify] at hslip ⊢
  split at hslip
  · obtain ⟨p', hp', heq⟩ := map_eq_some_iff.1 hslip
    obtain ⟨p, _, rfl⟩ := map_eq_some_iff.1 hp'
    cases heq
    exact .inr hw
  · exact .inl ⟨r, hslip⟩

lemma finish (h : s.Left task Q) (ticket : Nat) (answer : Answer) :
    (s.finish task ticket answer).Left task Q := by
  rw [finish_eq]
  refine (h.modify fun t w r hslip => .inl ⟨r, ?_⟩).wakeAll _
  simp only [give, slip, getElem?_modify] at hslip ⊢
  split at hslip
  · obtain ⟨p', hp', heq⟩ := map_eq_some_iff.1 hslip
    obtain ⟨p, _, rfl⟩ := map_eq_some_iff.1 hp'
    cases heq
  · exact hslip

end Store.Left

/-! ### Tasks -/

namespace Task

open Evaluation

variable {own' : ActorId → Prop} {g : Goal}

/-- All that is left on the agenda of a task reserves addresses of its own. -/
abbrev Spares (own : ActorId → Prop) (cx : Context) (s : Store) : Prop :=
  s.Left cx.task fun w => Owned own s.ids w.evaluation.reserved

lemma owned_run {e e' : Evaluation g} (h : Spares own cx s)
    (free : ∀ id, s.ids.issued < id.raw → own id) (he : Owned own s.ids e.reserved)
    (run : e.Run cx who s log e' s') : s.ids.issued ≤ s'.ids.issued ∧
      Owned own s'.ids (stages log) ∧ Owned own s'.ids e'.reserved ∧ Spares own cx s' := by
  obtain ⟨-, hlog, he'⟩ := run.closed (owned_closed own cx who) free he
  exact ⟨run.ids_le, hlog, he',
    (h.mono fun w hw => hw.later run.ids_le).touches (fun _ _ => .zero) run.touches⟩

/-- A piece is run: what it leaves, and the main evaluation, reserves addresses of the task. -/
lemma owned_turn {main : Evaluation g} {ticket : Nat} {s1 s2 : Store} {k : Goal}
    {e e' : Evaluation k} (h : Spares own cx s) (free : ∀ id, s.ids.issued < id.raw → own id)
    (hmain : Owned own s.ids main.reserved) (popped : s.nextReady cx.task = (some ticket, s1))
    (taken : s1.takeWork cx.task ticket = (some ⟨k, e⟩, s2))
    (run : e.Run cx (.piece cx.task ticket) s2 log e' s') : s.ids.issued ≤ s'.ids.issued ∧
      Owned own s'.ids (stages log) ∧ Owned own s'.ids main.reserved ∧
      Owned own s'.ids e'.reserved ∧ Spares own cx s' := by
  obtain ⟨hs2, hw, hids⟩ := h.taken popped taken
  rw [← hids] at free hs2 hw hmain ⊢
  obtain ⟨hle, hlog, he', hs'⟩ := owned_run hs2 free (hw _ rfl) run
  exact ⟨hle, hlog, hmain.later hle, he', hs'⟩

/-- What a task stages, and what it leaves reserved, belongs to it. -/
lemma owned_steps (own : ActorId → Prop) (cx : Context) :
    Closed cx fun (e : Evaluation g) s log e' s' => (∀ id, s.ids.issued < id.raw → own id) →
      Owned own s.ids e.reserved → Spares own cx s → s.ids.issued ≤ s'.ids.issued ∧
        Owned own s'.ids (stages log) ∧ Owned own s'.ids e'.reserved ∧ Spares own cx s' where
  refl _ _ _ he hs := ⟨le_rfl, .zero, he, hs⟩
  trans first second free he hs := by
    obtain ⟨hle, hlog, he1, hs1⟩ := first free he hs
    obtain ⟨hle', hlog', he', hs'⟩ :=
      second (fun id hid => free id (lt_of_le_of_lt hle hid)) he1 hs1
    exact ⟨hle.trans hle', owned_append hlog hle' hlog', he', hs'⟩
  flag _ _ _ _ _ he hs := ⟨le_rfl, .zero, he, hs.flags fun _ => rfl⟩
  wake _ s _ he hs := by
    have hids : (s.wakeTask cx.task).ids = s.ids := s.ids_wakeAll [.task cx.task]
    rw [Spares, hids]
    exact ⟨le_rfl, .zero, he, hs.wakeAll [.task cx.task]⟩
  enlist _ _ _ he hs := ⟨le_rfl, .zero, he, hs.flags fun t => slip_enrollAll _ _ t⟩
  skip popped idle _ he hs := by
    obtain ⟨hs2, -, hids⟩ := hs.taken popped idle
    rw [Spares, hids]
    exact ⟨le_rfl, .zero, he, hs2⟩
  finish {_ ticket _ _ _ s3 _ k _ r} popped taken run free he hs := by
    obtain ⟨hle, hlog, he3, -, hs3⟩ := owned_turn hs free he popped taken run
    have hids : (s3.finish cx.task ticket ⟨k, r⟩).ids = s3.ids := by
      rw [finish_eq, ids_wakeAll]
      rfl
    rw [Spares, hids]
    exact ⟨hle, hlog, he3, hs3.finish ticket ⟨k, r⟩⟩
  back popped taken run _ free he hs := by
    obtain ⟨hle, hlog, he3, he', hs3⟩ := owned_turn hs free he popped taken run
    exact ⟨hle, hlog, he3, hs3.putBack he' rfl⟩
  main run free he hs := owned_run hs free he run

/-- What a task reserves, in its main evaluation and on its agenda, is its own. -/
structure Thrifty (own : ActorId → Prop) (t : Task g) (s : Store) : Prop where
  main : Owned own s.ids t.main.reserved
  agenda : Spares own t.context s

/-- All that a run of a task stages is its own. -/
theorem Poll.owned {t t' : Task g} (h : Poll t s log t' s') (thrifty : t.Thrifty own s)
    (free : ∀ id, s.ids.issued < id.raw → own id) :
    Owned own s'.ids (stages log) ∧ t'.Thrifty own s' := by
  obtain ⟨-, hlog, hmain, hs'⟩ :=
    h.closed (owned_steps own t.context) free thrifty.main thrifty.agenda
  exact ⟨hlog, hmain, h.context ▸ hs'⟩

lemma thrifty_spawn (s : Store) (actor : ActorId) (muted : Bool) (transaction : Nat) (now : Millis)
    (job : Job g) :
    (spawn s actor muted transaction now (.start job)).1.Thrifty own
      (spawn s actor muted transaction now (.start job)).2 := by
  refine ⟨.zero, (size_push ..).symm ▸ lt_succ_self _, fun t w r hw => ?_⟩
  simp [slip, spawn, newAgenda, agenda] at hw

lemma Thrifty.elsewhere {t : Task g} (h : t.Thrifty own s) (other : s.Elsewhere t.context s')
    (ids : s.ids.issued ≤ s'.ids.issued)
    (same : ∀ id : ActorId, id.raw ≤ s.ids.issued → own id → own' id) : t.Thrifty own' s' := by
  refine ⟨h.main.mono ids same, ?_⟩
  obtain ⟨ws, hws⟩ := other.told h.agenda.size
  exact (h.agenda.told other.size hws).mono fun w hw => hw.mono ids same

end Task

end Troupe
