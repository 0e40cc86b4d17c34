import Troupe.Proofs.Idle

/-!
What a run of a task leaves behind.

Between the runs of its evaluations a task is in order (`Task.Orderly`): every piece that has not
finished stands in the ready queue or on the trampoline, or every part of it waits and it will be
told. No wake-up is lost, so a task that stops before it has finished is stuck as a whole.

* `Task.Orderly.run`: a run of an evaluation keeps the pieces in order that do not wait for what it
  reads.
* `Task.Orderly.take`, `skip`, `putBack`, `finish`, `enlist`: what a task does between such runs.
-/

namespace Troupe

open Agenda Array Option Store

namespace Agenda

variable {a a' : Agenda} {t : Nat} {w : Work}

lemma piece_of_working (h : a.cell t = some (.working w)) :
    ∃ p, a.pieces[t]? = some p ∧ p.work = some w := by
  obtain ⟨reader, hslip⟩ := slip_of_working h
  obtain ⟨p, hp, hpair⟩ := map_eq_some_iff.1 hslip
  simp only [Prod.mk.injEq] at hpair
  exact ⟨p, hp, hpair.1⟩

lemma working_of_piece (pending : ∀ t w r, a.slip t = some (some w, r) → ∃ reader,
    r = .pending reader) {p : Piece} (hp : a.pieces[t]? = some p) (hw : p.work = some w) :
    a.cell t = some (.working w) := by
  have hslip : a.slip t = some (some w, p.reply) := by simp [slip, hp, hw]
  obtain ⟨reader, hreader⟩ := pending t w p.reply hslip
  rw [cell, hslip, hreader]

/-- A change of the flags of a piece leaves the slips alone. -/
lemma slip_of_modify {i : Nat} {f : Piece → Piece} (pieces : a'.pieces = a.pieces.modify i f)
    (work : ∀ p, (f p).work = p.work) (reply : ∀ p, (f p).reply = p.reply) (t : Nat) :
    a'.slip t = a.slip t := by
  simp only [slip, pieces, getElem?_modify]
  split
  · rw [Option.map_map]
    congr 1
    funext p
    simp [work, reply]
  · rfl

lemma slip_give {x : Option Work} {r : Reply} (h : a.slip t = some (x, r)) (answer : Answer) :
    (a.give t answer).slip t = some (none, .given answer) := by
  obtain ⟨p, hp, -⟩ := map_eq_some_iff.1 h
  simp [slip, give, getElem?_modify, hp]

lemma slip_give_of_ne {i : Nat} (h : t ≠ i) (answer : Answer) : (a.give i answer).slip
    t = a.slip t := by
  simp [slip, give, getElem?_modify, h.symm]

lemma reader?_of_slip {x : Option Work} {reader : Option Waiter}
    (h : a.slip t = some (x, .pending reader)) : a.reader? t = reader := by
  obtain ⟨⟨work, reply, queued, woken, linked⟩, hp, heq⟩ := map_eq_some_iff.1 h
  cases heq
  rw [reader?, hp]

/-- What a run leaves unfinished was unfinished before, or is new. -/
lemma Later.working (h : Later a a')
    (pending : ∀ t w r, a.slip t = some (some w, r) → ∃ reader, r = .pending reader)
    (hw : a'.cell t = some (.working w)) (ht : t < a.pieces.size) :
    a.cell t = some (.working w) := by
  obtain ⟨p', hp', hw'⟩ := piece_of_working hw
  have hp : a.pieces[t]? = some a.pieces[t] := getElem?_eq_getElem ht
  obtain ⟨p'', hp'', hwork, -⟩ := h.work t _ hp
  rw [hp'] at hp''
  cases hp''
  exact working_of_piece pending hp (hwork.symm.trans hw')

lemma slip_enrollAll (tickets : List Nat) (a : Agenda) (t : Nat) :
    (tickets.foldl enroll a).slip t = a.slip t := by
  induction tickets generalizing a with
  | nil => rfl
  | cons ticket tickets ih =>
    rw [List.foldl_cons, ih]
    exact slip_of_modify (i := ticket) (f := fun p => { p with queued := true, linked := a.links })
      rfl (fun _ => rfl) (fun _ => rfl) t

lemma ready_enrollAll (tickets : List Nat) (a : Agenda) :
    (tickets.foldl enroll a).ready.toList = a.ready.toList ++ tickets := by
  induction tickets generalizing a with
  | nil => exact (List.append_nil _).symm
  | cons ticket tickets ih => simp [ih, enroll]

lemma queued_enrollAll (tickets : List Nat) (a : Agenda) {t : Nat} {p' : Piece}
    (h : (tickets.foldl enroll a).pieces[t]? = some p') :
    ∃ p, a.pieces[t]? = some p ∧ p'.work = p.work ∧
      (p'.queued = true → p.queued = true ∨ t ∈ tickets) := by
  induction tickets generalizing a with
  | nil => exact ⟨p', h, rfl, .inl⟩
  | cons ticket tickets ih =>
    obtain ⟨p, hp, hwork, hqueued⟩ := ih (a.enroll ticket) h
    simp only [enroll, getElem?_modify] at hp
    split at hp
    · rename_i heq
      obtain ⟨p0, hp0, rfl⟩ := map_eq_some_iff.1 hp
      exact ⟨p0, hp0, hwork, fun _ => .inr (by simp [heq])⟩
    · exact ⟨p, hp, hwork, fun hq => (hqueued hq).imp id (List.mem_cons_of_mem _)⟩

lemma shape_enrollAll (tickets : List Nat) (a : Agenda) :
    (tickets.foldl enroll a).closed = a.closed ∧ (tickets.foldl enroll a).enlisted = a.enlisted ∧
      (tickets.foldl enroll a).pieces.size = a.pieces.size := by
  induction tickets generalizing a with
  | nil => exact ⟨rfl, rfl, rfl⟩
  | cons ticket tickets ih =>
    obtain ⟨h1, h2, h3⟩ := ih (a.enroll ticket)
    exact ⟨h1, h2, by rw [List.foldl_cons, h3, enroll, size_modify]⟩

end Agenda

namespace Task

open Evaluation

/-- Pieces wait for their turn, or for something that will tell them. Those in `busy` are being
run. -/
structure Orderly (strict : Prop) (cx : Context) (s : Store) (busy : Nat → Prop) : Prop where
  size : cx.task < s.agendas.size
  opened : (s.agenda cx.task).closed = false
  enlisted : (s.agenda cx.task).enlisted ≤ (s.agenda cx.task).pieces.size
  sound : strict → s.heap.Sound
  pending : ∀ t w r, (s.agenda cx.task).slip t = some (some w, r) → ∃ reader, r = .pending reader
  queued : ∀ (t : Nat) (p : Piece), (s.agenda cx.task).pieces[t]? = some p → p.work.isSome = true →
    p.queued = true → t ∈ (s.agenda cx.task).ready.toList
  sits : ∀ t w, (s.agenda cx.task).cell t = some (.working w) → w.evaluation.Sits strict s
  rest : ∀ t w, (s.agenda cx.task).cell t = some (.working w) → busy t ∨
    t ∈ (s.agenda cx.task).ready.toList ∨ (s.agenda cx.task).enlisted ≤ t ∨
    w.evaluation.Idle ((s.agenda cx.task).Registered (.piece cx.task t))
      fun slot => strict → s.heap.Moored (.piece cx.task t) slot

namespace Orderly

variable {strict : Prop} {cx : Context} {s s' : Store} {busy : Nat → Prop} {g : Goal}
  {e e' : Evaluation g} {who : Waiter} {log : List Request}

/-- A piece that has not finished can be told. -/
lemma listens (ho : Orderly strict cx s busy) {t : Nat} {w : Work}
    (hw : (s.agenda cx.task).cell t = some (.working w)) :
    (s.agenda cx.task).Listens cx.task (.piece cx.task t) := by
  obtain ⟨p, hp, hwork⟩ := piece_of_working hw
  exact ⟨rfl, ho.opened, p, hp, ho.queued t p hp (by simp [hwork])⟩

/-- Pieces are added, and some are told: all others wait as before. -/
lemma later (ho : Orderly strict cx s busy) (size : cx.task < s'.agendas.size)
    (hlater : (s.agenda cx.task).Later (s'.agenda cx.task)) (sound : strict → s'.heap.Sound)
    (slots : strict → s.heap.slots.size ≤ s'.heap.slots.size)
    (registered : ∀ t w, (s.agenda cx.task).cell t = some (.working w) → ¬ busy t →
      ∀ u ∈ w.evaluation.awaits, (s.agenda cx.task).Registered (.piece cx.task t) u →
        (s'.agenda cx.task).Registered (.piece cx.task t) u)
    (moored : strict → ∀ t w slot, (s.agenda cx.task).cell t = some (.working w) →
      s.heap.Moored (.piece cx.task t) slot → s'.heap.Moored (.piece cx.task t) slot ∨
        t ∈ (s'.agenda cx.task).ready.toList) : Orderly strict cx s' busy := by
  -- a piece that has not finished is an old one, or waits on the trampoline
  have hcases : ∀ t w, (s'.agenda cx.task).cell t = some (.working w) →
      (s.agenda cx.task).cell t = some (.working w) ∨
        (s.agenda cx.task).pieces.size ≤ t ∧ ∃ (k : Goal) (job : Job k), w = ⟨k, .start job⟩ := by
    intro t w hw
    by_cases ht : t < (s.agenda cx.task).pieces.size
    · exact .inl (hlater.working ho.pending hw ht)
    · obtain ⟨p, hp, hwork⟩ := piece_of_working hw
      obtain ⟨k, job, hjob⟩ := hlater.fresh t p (Nat.le_of_not_lt ht) hp
      rw [hwork] at hjob
      cases hjob
      exact .inr ⟨Nat.le_of_not_lt ht, k, job, rfl⟩
  refine ⟨size, hlater.closed.trans ho.opened, ?_, sound, hlater.pending ho.pending, ?_, ?_, ?_⟩
  · rw [hlater.enlisted]
    exact ho.enlisted.trans hlater.count
  · intro t p' hp' hwork hq
    rcases hlater.queued t p' hp' hq with h | ⟨p, hp, hqp⟩
    · exact h
    · obtain ⟨p'', hp'', hsame, -⟩ := hlater.work t p hp
      rw [hp'] at hp''
      cases hp''
      exact hlater.ready t (ho.queued t p hp (by rwa [← hsame]) hqp)
  · intro t w hw
    rcases hcases t w hw with hold | ⟨_, k, job, rfl⟩
    · exact Fit.mono (fun _ hb h => Nat.lt_of_lt_of_le (hb h) (slots h)) (ho.sits t w hold)
    · trivial
  · intro t w hw
    rcases hcases t w hw with hold | ⟨hge, _⟩
    · by_cases hb : busy t
      · exact .inl hb
      · rcases (ho.rest t w hold).resolve_left hb with h | h | h
        · exact .inr (.inl (hlater.ready t h))
        · exact .inr (.inr (.inl (by rwa [hlater.enlisted])))
        · by_cases hheard : t ∈ (s'.agenda cx.task).ready.toList
          · exact .inr (.inl hheard)
          · exact .inr (.inr (.inr (h.mono (registered t w hold hb) fun slot hslot hstrict =>
              (moored hstrict t w slot hold (hslot hstrict)).resolve_right hheard)))
    · exact .inr (.inr (.inl (by rw [hlater.enlisted]; exact ho.enlisted.trans hge)))

/-- A run keeps the pieces in order that do not wait for what it reads. -/
lemma run (ho : Orderly strict cx s busy) (hrun : e.Run cx who s log e' s')
    (apart : ∀ t w, (s.agenda cx.task).cell t = some (.working w) → ¬ busy t →
      Disjoint e.awaits w.evaluation.awaits)
    (inside : ∀ t w, (s.agenda cx.task).cell t = some (.working w) →
      ∀ u ∈ w.evaluation.awaits, u < (s.agenda cx.task).pieces.size) :
    Orderly strict cx s' busy := by
  have hreads := hrun.reads ho.size
  refine ho.later ?_ (hrun.touches.later ho.size)
    (fun hstrict => hrun.touches.retains.sound (ho.sound hstrict))
    (fun _ => hrun.touches.retains.slots) ?_
    fun _ t w slot hold hm => hrun.touches.moored ho.size (ho.listens hold) hm
  · rw [hrun.touches.size_agendas]
    exact ho.size
  · rintro t w hold hb u hu ⟨w', hslip⟩
    have hu' : u ∉ e.awaits := Set.disjoint_right.1 (apart t w hold hb) hu
    exact ⟨w', by rw [hreads.slip u (inside t w hold u hu) hu', hslip]⟩

/-- The agenda changes, and whatever has not finished waits for its turn then, or will be told. -/
lemma change {busy' : Nat → Prop} (ho : Orderly strict cx s busy) {f : Agenda → Agenda} {a : Agenda}
    (agenda : f (s.agenda cx.task) = a) (closed : a.closed = (s.agenda cx.task).closed)
    (enlisted : a.enlisted ≤ a.pieces.size)
    (pending : ∀ t w r, a.slip t = some (some w, r) → ∃ reader, r = .pending reader)
    (queued : ∀ (t : Nat) (p : Piece), a.pieces[t]? = some p → p.work.isSome = true →
      p.queued = true → t ∈ a.ready.toList)
    (sits : ∀ t w, a.cell t = some (.working w) → w.evaluation.Sits strict s)
    (rest : ∀ t w, a.cell t = some (.working w) → busy' t ∨ t ∈ a.ready.toList ∨ a.enlisted ≤ t ∨
      w.evaluation.Idle (a.Registered (.piece cx.task t))
        fun slot => strict → s.heap.Moored (.piece cx.task t) slot) :
    Orderly strict cx (s.modifyAgenda cx.task f) busy' := by
  have ha := (s.agenda_modifyAgenda f ho.size).trans agenda
  subst ha
  exact ⟨(s.size_modifyAgenda f).symm ▸ ho.size, closed.trans ho.opened, enlisted,
    ho.sound, pending, queued, sits, rest⟩

/-- A change that leaves answers and unfinished pieces alone and takes no piece off the ready queue
without running it. -/
lemma shift (ho : Orderly strict cx s busy) (busy' : Nat → Prop) {f : Agenda → Agenda} {a : Agenda}
    (agenda : f (s.agenda cx.task) = a) (closed : a.closed = (s.agenda cx.task).closed)
    (enlisted : a.enlisted ≤ a.pieces.size) (slip : ∀ t, a.slip t = (s.agenda cx.task).slip t)
    (queued : ∀ (t : Nat) (p : Piece), a.pieces[t]? = some p → p.work.isSome = true →
      p.queued = true → t ∈ a.ready.toList)
    (moves : ∀ t w, (s.agenda cx.task).cell t = some (.working w) → busy t ∨
      t ∈ (s.agenda cx.task).ready.toList ∨ (s.agenda cx.task).enlisted ≤ t →
        busy' t ∨ t ∈ a.ready.toList ∨ a.enlisted ≤ t) :
    Orderly strict cx (s.modifyAgenda cx.task f) busy' ∧
      ∀ t, ((s.modifyAgenda cx.task f).agenda cx.task).slip t = (s.agenda cx.task).slip t := by
  have hcell : ∀ t, a.cell t = (s.agenda cx.task).cell t := fun t => cell_congr (slip t)
  refine ⟨ho.change agenda closed enlisted ?_ queued ?_ ?_, fun t => ?_⟩
  · exact fun t w r hslip => ho.pending t w r ((slip t).symm.trans hslip)
  · exact fun t w hw => ho.sits t w ((hcell t).symm.trans hw)
  · intro t w hw
    rw [hcell] at hw
    rcases ho.rest t w hw with h | h | h | h
    · exact (moves t w hw (.inl h)).imp id (Or.imp id .inl)
    · exact (moves t w hw (.inr (.inl h))).imp id (Or.imp id .inl)
    · exact (moves t w hw (.inr (.inr h))).imp id (Or.imp id .inl)
    · refine .inr (.inr (.inr (h.mono ?_ fun _ => id)))
      rintro u _ ⟨w', hw'⟩
      exact ⟨w', (slip u).trans hw'⟩
  · rw [s.agenda_modifyAgenda f ho.size, agenda, slip]

lemma told (ho : Orderly strict cx s busy) (size : cx.task < s'.agendas.size)
    (heap : strict → s'.heap = s.heap) {ws : List Waiter}
    (agenda : s'.agenda cx.task = ws.foldl (told cx.task) (s.agenda cx.task)) :
    Orderly strict cx s' busy := by
  have hlater := Later.toldAll cx.task ws (s.agenda cx.task)
  rw [← agenda] at hlater
  refine ho.later size hlater (fun h => heap h ▸ ho.sound h) (fun h => heap h ▸ le_rfl) ?_
    fun h _ _ _ _ hm => .inl (heap h ▸ hm)
  rintro t w _ _ u _ ⟨w', hw'⟩
  exact ⟨w', by rw [agenda, slip_toldAll, hw']⟩

/-- Those that are being run stand in the ready queue again. -/
lemma ready (ho : Orderly strict cx s busy) (ready : ∀ t w, (s.agenda cx.task).cell t =
    some (.working w) → busy t → t ∈ (s.agenda cx.task).ready.toList) :
    Orderly strict cx s fun _ => False :=
  { ho with
    rest := fun t w hw => .inr ((ho.rest t w hw).elim (fun hb => .inl (ready t w hw hb)) id) }

lemma take (ho : Orderly strict cx s fun _ => False) {p : Nat} {w : Work} {s1 s2 : Store}
    (popped : s.nextReady cx.task = (some p, s1)) (taken : s1.takeWork cx.task p = (some w, s2)) :
    Orderly strict cx s2 (· = p) ∧ (s2.agenda cx.task).cell p = some (.working w) ∧
      (∀ t, (s2.agenda cx.task).slip t = (s.agenda cx.task).slip t) ∧ s2.core = s.core ∧
      (s2.agenda cx.task).armed = (s.agenda cx.task).armed ∧
      (s2.agenda cx.task).woken = (s.agenda cx.task).woken := by
  obtain ⟨ready, hready, rfl⟩ := nextReady_some popped
  obtain ⟨piece, hpiece, hwork, rfl⟩ := takeWork_some taken
  rw [s.agenda_modifyAgenda _ ho.size] at hpiece
  rw [modifyPiece, modifyAgenda_modifyAgenda]
  have hmoves {t : Nat} (h : t ∈ (s.agenda cx.task).ready.toList) : t = p ∨ t ∈ ready.toList := by
    rwa [hready, List.mem_cons] at h
  set f : Agenda → Agenda := fun a =>
    { a with
      ready
      pieces := a.pieces.modify p fun p => { p with queued := false, woken := false } } with hf
  have hqueued : ∀ (t : Nat) (q : Piece), (f (s.agenda cx.task)).pieces[t]? = some q →
      q.work.isSome = true → q.queued = true → t ∈ ready.toList := by
    intro t q hq hwork' hqueued
    simp only [hf, getElem?_modify] at hq
    split at hq
    · obtain ⟨q0, _, rfl⟩ := map_eq_some_iff.1 hq
      cases hqueued
    · rename_i hne
      exact (hmoves (ho.queued t q hq hwork' hqueued)).resolve_left fun h => hne h.symm
  obtain ⟨hordered, hslip⟩ := ho.shift (f := f) (· = p) rfl rfl
    ((size_modify ..).symm ▸ ho.enlisted) (slip_of_modify (i := p)
      (f := ({ · with queued := false, woken := false })) rfl (fun _ => rfl) fun _ => rfl) hqueued
    fun t w' _ h => h.elim False.elim (Or.elim · (fun h => (hmoves h).imp id .inl) (.inr <| .inr ·))
  have ha := s.agenda_modifyAgenda f ho.size
  refine ⟨hordered, ?_, hslip, rfl, by rw [ha], by rw [ha]⟩
  rw [cell_congr (hslip p)]
  exact working_of_piece ho.pending hpiece hwork

/-- A piece on the ready queue that has finished is passed over. -/
lemma skip (ho : Orderly strict cx s fun _ => False) {p : Nat} {s1 s2 : Store}
    (popped : s.nextReady cx.task = (some p, s1)) (idle : s1.takeWork cx.task p = (none, s2)) :
    Orderly strict cx s2 (fun _ => False) ∧
      (∀ t, (s2.agenda cx.task).slip t = (s.agenda cx.task).slip t) ∧ s2.core = s.core ∧
      (s2.agenda cx.task).armed = (s.agenda cx.task).armed ∧
      (s2.agenda cx.task).woken = (s.agenda cx.task).woken := by
  obtain ⟨ready, hready, rfl⟩ := nextReady_some popped
  obtain ⟨rfl, hnone⟩ := takeWork_none idle
  have ha := s.agenda_modifyAgenda (fun a => { a with ready }) ho.size
  rw [ha] at hnone
  have hmoves {t : Nat} {q : Piece} (hq : (s.agenda cx.task).pieces[t]? = some q)
      (hwork : p = t → q.work ≠ none) (h : t ∈ (s.agenda cx.task).ready.toList) :
      t ∈ ready.toList := by
    rw [hready, List.mem_cons] at h
    exact h.resolve_left fun heq => hwork heq.symm (hnone q (heq ▸ hq))
  obtain ⟨hordered, hslip⟩ := ho.shift (f := fun a => { a with ready }) (fun _ => False) rfl
    rfl ho.enlisted (fun _ => rfl)
    (fun t q hq hwork hqueued => hmoves hq (fun _ => ne_none_iff_isSome.2 hwork)
      (ho.queued t q hq hwork hqueued))
    fun t w hw h => have ⟨q, hq, hwork⟩ := piece_of_working hw
      h.imp id (Or.imp (hmoves hq fun _ => hwork ▸ some_ne_none w) id)
  exact ⟨hordered, hslip, rfl, by rw [ha], by rw [ha]⟩

/-- One piece that was being run changes, and whoever waits for it still does or is being run. -/
lemma replace {busy' : Nat → Prop} {p : Nat} (ho : Orderly strict cx s (· = p))
    {f : Agenda → Agenda} {a : Agenda} (agenda : f (s.agenda cx.task) = a)
    (others : ∀ t, t ≠ p → a.pieces[t]? = (s.agenda cx.task).pieces[t]?)
    (shape : a.closed = (s.agenda cx.task).closed ∧ a.enlisted = (s.agenda cx.task).enlisted ∧
      a.ready = (s.agenda cx.task).ready ∧ a.pieces.size = (s.agenda cx.task).pieces.size)
    (own : ∀ w r, a.slip p = some (some w, r) → (∃ reader, r = .pending reader) ∧
      w.evaluation.Sits strict s ∧ (busy' p ∨ p ∈ a.ready.toList ∨ a.enlisted ≤ p ∨
        w.evaluation.Idle (a.Registered (.piece cx.task p))
          fun slot => strict → s.heap.Moored (.piece cx.task p) slot))
    (queued : ∀ q, a.pieces[p]? = some q → q.work.isSome = true → q.queued = true →
      p ∈ a.ready.toList)
    (told : ∀ t, t ≠ p → busy' t ∨ ∀ u, (s.agenda cx.task).Registered (.piece cx.task t) u →
      a.Registered (.piece cx.task t) u) :
    Orderly strict cx (s.modifyAgenda cx.task f) busy' := by
  obtain ⟨hclosed, henlisted, hready, hsize⟩ := shape
  have hslip {t : Nat} (ht : t ≠ p) : a.slip t = (s.agenda cx.task).slip t := by
    rw [slip, others t ht, slip]
  have hcell {t : Nat} {w : Work} (hw : a.cell t = some (.working w)) :
      t = p ∧ (∃ r, a.slip p = some (some w, r)) ∨
        t ≠ p ∧ (s.agenda cx.task).cell t = some (.working w) := by
    by_cases ht : t = p
    · obtain ⟨reader, hreader⟩ := slip_of_working hw
      exact .inl ⟨ht, .pending reader, ht ▸ hreader⟩
    · exact .inr ⟨ht, (cell_congr (hslip ht)).symm.trans hw⟩
  refine ho.change agenda hclosed ?_ ?_ ?_ ?_ ?_
  · rw [henlisted, hsize]
    exact ho.enlisted
  · intro t w r hw
    by_cases ht : t = p
    · exact (own w r (ht ▸ hw)).1
    · exact ho.pending t w r ((hslip ht).symm.trans hw)
  · intro t q hq hwork hqueued
    by_cases ht : t = p
    · exact ht ▸ queued q (ht ▸ hq) hwork hqueued
    · rw [hready]
      exact ho.queued t q ((others t ht).symm.trans hq) hwork hqueued
  · intro t w hw
    rcases hcell hw with ⟨_, r, hr⟩ | ⟨_, hold⟩
    · exact (own w r hr).2.1
    · exact ho.sits t w hold
  · intro t w hw
    rcases hcell hw with ⟨rfl, r, hr⟩ | ⟨ht, hold⟩
    · exact (own w r hr).2.2
    · rcases told t ht with hbusy | hkeeps
      · exact .inl hbusy
      · rw [henlisted, hready]
        exact .inr (((ho.rest t w hold).resolve_left ht).imp id
          (Or.imp id fun h => h.mono (fun u _ => hkeeps u) fun _ => id))

lemma putBack {k : Goal} {p : Nat} {w w' : Evaluation k} {woken : Bool}
    (ho : Orderly strict cx s (· = p)) (hp : (s.agenda cx.task).cell p = some (.working ⟨k, w⟩))
    (back : s.putBack cx.task p ⟨k, w'⟩ = (woken, s')) (sits : w'.Sits strict s)
    (rests : w'.Idle ((s.agenda cx.task).Registered (.piece cx.task p))
        (fun slot => strict → s.heap.Moored (.piece cx.task p) slot) ∨
      (s.agenda cx.task).Heard (.piece cx.task p)) :
    Orderly strict cx s' (fun _ => False) ∧
      (∀ t, t ≠ p → (s'.agenda cx.task).slip t = (s.agenda cx.task).slip t) ∧
      (s'.agenda cx.task).cell p = some (.working ⟨k, w'⟩) ∧ s'.core = s.core ∧
      (s'.agenda cx.task).armed = (s.agenda cx.task).armed ∧
      (s'.agenda cx.task).woken = (s.agenda cx.task).woken := by
  set a' : Agenda := { s.agenda cx.task with
    pieces := (s.agenda cx.task).pieces.modify p
      fun q => { q with work := some ⟨k, w'⟩, linked := (s.agenda cx.task).links }
    links := (s.agenda cx.task).links + 1 } with ha'
  have hother : ∀ t, t ≠ p → a'.slip t = (s.agenda cx.task).slip t := by
    intro t ht
    simp [ha', slip, getElem?_modify, Ne.symm ht]
  obtain ⟨reader, hslip⟩ := slip_of_working hp
  have hself : a'.slip p = some (some ⟨k, w'⟩, .pending reader) := by
    obtain ⟨q, hq, hpair⟩ := map_eq_some_iff.1 hslip
    simp only [Prod.mk.injEq] at hpair
    simp [ha', slip, getElem?_modify, hq, hpair.2]
  -- who waits for a piece waits for it still
  have hreg : ∀ (who : Waiter) (u : Nat), (s.agenda cx.task).Registered who u →
      a'.Registered who u := by
    rintro who u ⟨x, hx⟩
    by_cases hu : u = p
    · subst hu
      rw [hslip] at hx
      cases hx
      exact ⟨_, hself⟩
    · exact ⟨x, by rw [hother u hu, hx]⟩
  cases back
  have ha := s.agenda_modifyAgenda (fun a =>
    { a with
      pieces := a.pieces.modify p fun q => { q with work := some ⟨k, w'⟩, linked := a.links }
      links := a.links + 1 }) ho.size
  rw [← ha'] at ha
  refine ⟨ho.replace ha' (fun t ht => ?_) ⟨rfl, rfl, rfl, size_modify ..⟩ ?_ ?_
    fun t _ => .inr (hreg _), by rwa [ha], by rw [ha, cell, hself], rfl, by rw [ha], by rw [ha]⟩
  · rw [getElem?_modify, if_neg ht.symm]
  · intro x r hx
    rw [hself] at hx
    cases hx
    refine ⟨⟨reader, rfl⟩, sits, .inr (rests.symm.imp id fun h => .inr ?_)⟩
    exact h.mono (fun u _ => hreg _ u) fun _ => id
  · intro q hq hwork hqueued
    rw [getElem?_modify, if_pos rfl] at hq
    obtain ⟨q0, hq0, rfl⟩ := map_eq_some_iff.1 hq
    obtain ⟨q1, hq1, hwork1⟩ := piece_of_working hp
    rw [hq0] at hq1
    cases hq1
    exact ho.queued p q0 hq0 (by simp [hwork1]) hqueued

lemma finish {p : Nat} {w : Work} (ho : Orderly strict cx s (· = p))
    (hp : (s.agenda cx.task).cell p = some (.working w)) (answer : Answer) :
    Orderly strict cx (s.finish cx.task p answer) (fun _ => False) ∧
      (∀ t, t ≠ p →
        ((s.finish cx.task p answer).agenda cx.task).slip t = (s.agenda cx.task).slip t) ∧
      ((s.finish cx.task p answer).agenda cx.task).cell p = some (.given answer) ∧
      (s.finish cx.task p answer).core = s.core ∧
      ((s.agenda cx.task).armed = true ∨ (s.agenda cx.task).woken = true →
        ((s.finish cx.task p answer).agenda cx.task).armed = true ∨
          ((s.finish cx.task p answer).agenda cx.task).woken = true) := by
  obtain ⟨reader, hslip⟩ := slip_of_working hp
  have hself := slip_give hslip answer
  have hother {t : Nat} (ht : t ≠ p) := (s.agenda cx.task).slip_give_of_ne ht answer
  -- only who waits for the answer has to be told
  have hgiven : Orderly strict cx (s.modifyAgenda cx.task (·.give p answer))
      fun t => reader = some (.piece cx.task t) := by
    refine ho.replace rfl (fun t ht => ?_) ⟨rfl, rfl, rfl, size_modify ..⟩ ?_ ?_ ?_
    · rw [give, getElem?_modify, if_neg ht.symm]
    · intro x r hx
      rw [hself] at hx
      cases hx
    · intro q hq hwork
      rw [give, getElem?_modify, if_pos rfl] at hq
      obtain ⟨q0, _, rfl⟩ := map_eq_some_iff.1 hq
      cases hwork
    · intro t ht
      refine or_iff_not_imp_left.2 fun hreader => ?_
      rintro u ⟨y, hy⟩
      by_cases hup : u = p
      · subst hup
        rw [hslip] at hy
        cases hy
        exact absurd rfl hreader
      · exact ⟨y, (hother hup).trans hy⟩
  rw [finish_eq, reader?_of_slip hslip]
  set s1 := s.modifyAgenda cx.task (·.give p answer)
  have ha1 : s1.agenda cx.task = (s.agenda cx.task).give p answer := s.agenda_modifyAgenda _ ho.size
  have ha' := s1.agenda_wakeAll reader.toList hgiven.size
  have hslip' : ∀ t, ((reader.toList.foldl wake s1).agenda cx.task).slip t =
      ((s.agenda cx.task).give p answer).slip t := by
    intro t
    rw [ha', slip_toldAll, ha1]
  refine ⟨(hgiven.told (s1.size_wakeAll _ ▸ hgiven.size) (fun _ => heap_wakeAll ..) ha').ready ?_,
    fun t ht => (hslip' t).trans (hother ht), ?_, core_wakeAll .., fun h => ?_⟩
  · -- a piece that is told stands in the ready queue then
    rintro t x hx rfl
    rw [cell_congr (hslip' t), ← ha1] at hx
    rw [ha']
    exact heard_told (hgiven.listens hx)
  · rw [cell_congr (hslip' p), cell, hself]
  · rw [ha', ha1]
    exact (Later.toldAll ..).armed h

/-- Flags are set that do not concern the pieces. -/
lemma mark (ho : Orderly strict cx s busy) {f : Agenda → Agenda}
    (same : ∀ a, (f a).closed = a.closed ∧ (f a).enlisted = a.enlisted ∧ (f a).pieces = a.pieces ∧
      (f a).ready = a.ready) :
    Orderly strict cx (s.modifyAgenda cx.task f) busy ∧
      ∀ t, ((s.modifyAgenda cx.task f).agenda cx.task).slip t = (s.agenda cx.task).slip t := by
  obtain ⟨hclosed, henlisted, hpieces, hready⟩ := same (s.agenda cx.task)
  refine ho.shift _ rfl hclosed ?_ (fun t => ?_) ?_ ?_
  · rw [henlisted, hpieces]
    exact ho.enlisted
  · rw [slip, hpieces, slip]
  · rw [hpieces, hready]
    exact ho.queued
  · rw [hready, henlisted]
    exact fun _ _ _ h => h

lemma arm (ho : Orderly strict cx s busy) :
    Orderly strict cx (s.arm cx.task).2 busy ∧
      (∀ t, ((s.arm cx.task).2.agenda cx.task).slip t = (s.agenda cx.task).slip t) ∧
      ((s.arm cx.task).2.agenda cx.task).armed = true := by
  obtain ⟨hordered, hslip⟩ := ho.mark (f := fun a => { a with armed := true })
    fun _ => ⟨rfl, rfl, rfl, rfl⟩
  exact ⟨hordered, hslip, congrArg armed (s.agenda_modifyAgenda _ ho.size)⟩

lemma running (ho : Orderly strict cx s busy) (b : Bool) :
    Orderly strict cx (Task.running cx b s) busy ∧
      ∀ t, ((Task.running cx b s).agenda cx.task).slip t = (s.agenda cx.task).slip t :=
  ho.mark fun _ => ⟨rfl, rfl, rfl, rfl⟩

/-- A round begins: the trampoline is emptied into the ready queue. -/
lemma enlist (ho : Orderly strict cx s busy) :
    Orderly strict cx (s.enlist cx.task) busy ∧
      ∀ t, ((s.enlist cx.task).agenda cx.task).slip t = (s.agenda cx.task).slip t := by
  set a := s.agenda cx.task with ha
  set a0 : Agenda := { a with
    woken := false
    members := a.members + a.waiting
    enlisted := a.pieces.size } with ha0
  set tickets := List.range' a.enlisted a.waiting with htickets
  obtain ⟨hclosed, henlisted, hcount⟩ := shape_enrollAll tickets a0
  have hready := ready_enrollAll tickets a0
  refine ho.shift (a := tickets.foldl enroll a0) _ rfl hclosed (by rw [henlisted, hcount])
    (fun t => slip_enrollAll tickets a0 t) ?_ ?_
  · intro t p' hp' hwork hqueued
    obtain ⟨p, hp, hsame, hcases⟩ := queued_enrollAll tickets a0 hp'
    rw [hready, List.mem_append]
    exact (hcases hqueued).imp (ho.queued t p hp (by rwa [← hsame])) id
  · intro t w hw h
    rw [hready, List.mem_append]
    rcases h with h | h | h
    · exact .inl h
    · exact .inr (.inl (.inl h))
    · have ht : t < a.pieces.size := lt_of_cell (by rw [hw]; simp)
      rw [← ha] at h
      refine .inr (.inl (.inr ?_))
      rw [htickets, List.mem_range', waiting]
      exact ⟨t - a.enlisted, by omega, by omega⟩

end Orderly

end Task

end Troupe
