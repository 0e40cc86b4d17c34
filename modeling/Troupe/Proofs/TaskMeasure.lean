import Mathlib.Data.Finset.Card
import Troupe.Proofs.Schedule

/-!
What a task has left to run.

Between two small steps a task may run pieces that can only register that they wait. Each such run
takes a piece off the ready queue, and only a piece that finishes puts others there: measured first
by the pieces that have not finished and then by the ready queue, the task has less and less to run
(`Agenda.Lags`).
-/

namespace Troupe

open Agenda Finset

namespace Agenda

variable {a a1 a2 a' : Agenda} {t : Nat}

/-- What is left to do of a piece. -/
def work? (a : Agenda) (t : Nat) : Option Work := (a.slip t).bind (·.1)

lemma lt_of_work (h : (a.work? t).isSome = true) : t < a.pieces.size := by
  by_contra hge
  rw [work?, slip, Array.getElem?_eq_none (Nat.le_of_not_lt hge)] at h
  cases h

/-- How many pieces have not finished. -/
def unfinished (a : Agenda) : Nat :=
  ((range a.pieces.size).filter fun t => (a.work? t).isSome = true).card

lemma unfinished_le (h : ∀ t, (a'.work? t).isSome = true → (a.work? t).isSome = true) :
    a'.unfinished ≤ a.unfinished := by
  refine card_le_card fun t ht => ?_
  rw [mem_filter, mem_range] at ht ⊢
  exact ⟨lt_of_work (h t ht.2), h t ht.2⟩

lemma unfinished_lt (h : ∀ t, (a'.work? t).isSome = true → (a.work? t).isSome = true)
    (before : (a.work? t).isSome = true) (after : (a'.work? t).isSome = false) :
    a'.unfinished < a.unfinished := by
  refine card_lt_card ⟨fun u hu => ?_, fun hsub => ?_⟩
  · rw [mem_filter, mem_range] at hu ⊢
    exact ⟨lt_of_work (h u hu.2), h u hu.2⟩
  · have ht := hsub (mem_filter.2 ⟨mem_range.2 (lt_of_work before), before⟩)
    rw [mem_filter, after] at ht
    cases ht.2

lemma unfinished_congr (h : ∀ t, (a'.work? t).isSome = (a.work? t).isSome) :
    a'.unfinished = a.unfinished :=
  Nat.le_antisymm (unfinished_le fun t ht => h t ▸ ht) (unfinished_le fun t ht => (h t).symm ▸ ht)

/-- Fewer pieces have not finished, or as many, with as many on the trampoline; then fewer are
ready, or as many and the task was told nothing new. -/
def Lags (a a' : Agenda) : Prop :=
  a'.unfinished < a.unfinished ∨ a'.unfinished = a.unfinished ∧ a'.waiting = a.waiting ∧
    (a'.ready.toList.length < a.ready.toList.length ∨
      a'.ready.toList.length = a.ready.toList.length ∧ a'.woken = a.woken)

namespace Lags

lemma refl (a : Agenda) : Lags a a := .inr ⟨rfl, rfl, .inr ⟨rfl, rfl⟩⟩

lemma trans (h1 : Lags a a1) (h2 : Lags a1 a2) : Lags a a2 := by
  rcases h1 with h1 | ⟨hu1, hw1, h1⟩
  · exact .inl (h2.elim (·.trans h1) fun h => h.1 ▸ h1)
  rcases h2 with h2 | ⟨hu2, hw2, h2⟩
  · exact .inl (hu1 ▸ h2)
  refine .inr ⟨hu2.trans hu1, hw2.trans hw1, ?_⟩
  rcases h1 with h1 | ⟨hr1, hk1⟩
  · exact .inl (h2.elim (·.trans h1) fun h => h.1 ▸ h1)
  · rwa [← hr1, ← hk1]

lemma unfinished_le (h : Lags a a') : a'.unfinished ≤ a.unfinished :=
  h.elim Nat.le_of_lt fun h => h.1.le

end Lags

/-- As much is left to be run. -/
structure Even (a a' : Agenda) : Prop where
  work : ∀ t, (a'.work? t).isSome = (a.work? t).isSome
  waiting : a'.waiting = a.waiting
  ready : a'.ready.toList.length = a.ready.toList.length
  woken : a'.woken = a.woken

lemma Even.lags (h : Even a a') : Lags a a' :=
  .inr ⟨unfinished_congr h.work, h.waiting, .inr ⟨h.ready, h.woken⟩⟩

/-- The ready queue is shorter. -/
structure Shrinks (a a' : Agenda) : Prop where
  work : ∀ t, (a'.work? t).isSome = (a.work? t).isSome
  waiting : a'.waiting = a.waiting
  ready : a'.ready.toList.length < a.ready.toList.length

lemma Shrinks.lags (h : Shrinks a a') : Lags a a' :=
  .inr ⟨unfinished_congr h.work, h.waiting, .inl h.ready⟩

lemma Shrinks.tell (h : Shrinks a a') : Shrinks a a'.tell := ⟨h.work, h.waiting, h.ready⟩

lemma Shrinks.even (h : Shrinks a a1) (h' : Even a1 a2) : Shrinks a a2 :=
  ⟨fun t => (h'.work t).trans (h.work t), h'.waiting.trans h.waiting, h'.ready ▸ h.ready⟩

lemma Calm.work?_eq (h : Calm a a') (t : Nat) : a'.work? t = a.work? t := by
  have hget := congrArg (·[t]?) h.works
  simp only [Array.getElem?_map] at hget
  rw [work?, work?, slip, slip]
  cases hp' : a'.pieces[t]? <;> cases hp : a.pieces[t]? <;> simp_all

lemma Calm.size (h : Calm a a') : a'.pieces.size = a.pieces.size := by
  have hsize := congrArg Array.size h.works
  simpa using hsize

/-- Runs without a step leave everything to be run. -/
lemma Calm.even (h : Calm a a') : Even a a' := by
  refine ⟨fun t => by rw [h.work?_eq], ?_, by rw [h.ready], h.woken⟩
  rw [waiting, waiting, h.size, h.enlisted]

lemma work?_of_slip {t' : Nat} (h : a'.slip t' = a.slip t) : a'.work? t' = a.work? t := by
  rw [work?, work?, h]

lemma work?_of_working {w : Work} (h : a.cell t = some (.working w)) : a.work? t = some w := by
  obtain ⟨reader, hslip⟩ := slip_of_working h
  rw [work?, hslip]
  rfl

lemma work?_of_given {x : Answer} (h : a.cell t = some (.given x)) : a.work? t = none := by
  rw [work?, slip_of_given h]
  rfl

/-- A piece has finished. -/
lemma unfinished_lt_of_given {w : Work} {x : Answer} (before : a.cell t = some (.working w))
    (after : a'.cell t = some (.given x)) (others : ∀ u, u ≠ t → a'.slip u = a.slip u) :
    a'.unfinished < a.unfinished := by
  refine unfinished_lt (fun u hu => ?_) (t := t) ?_ ?_
  · by_cases hut : u = t
    · rw [hut, work?_of_given after] at hu
      cases hu
    · rwa [work?_of_slip (others u hut)] at hu
  · rw [work?_of_working before]
    rfl
  · rw [work?_of_given after]
    rfl

lemma woken_enrollAll (tickets : List Nat) (a : Agenda) :
    (tickets.foldl enroll a).woken = a.woken := by
  induction tickets generalizing a with
  | nil => rfl
  | cons ticket tickets ih => rw [List.foldl_cons, ih, enroll]

end Agenda

namespace Store

variable {task ticket : Nat} {s s1 s2 s' : Store}

lemma shrinks_take {w : Option Work} (size : task < s.agendas.size)
    (popped : s.nextReady task = (some ticket, s1)) (taken : s1.takeWork task ticket = (w, s2)) :
    (s.agenda task).Shrinks (s2.agenda task) := by
  obtain ⟨ready, hready, rfl⟩ := nextReady_some popped
  have ha1 := agenda_modifyAgenda s (fun a => { a with ready }) size
  have hshort : ready.toList.length < (s.agenda task).ready.toList.length := by simp [hready]
  cases w with
  | none =>
    obtain ⟨rfl, _⟩ := takeWork_none taken
    rw [ha1]
    exact ⟨fun _ => rfl, rfl, hshort⟩
  | some w =>
    obtain ⟨p, _, _, rfl⟩ := takeWork_some taken
    have ha2 := agenda_modifyAgenda (s.modifyAgenda task fun a => { a with ready })
      (fun a => { a with pieces := a.pieces.modify ticket fun p =>
        { p with queued := false, woken := false } }) (by rwa [size_modifyAgenda])
    rw [ha1] at ha2
    refine ⟨fun t => congrArg Option.isSome (work?_of_slip ?_), ?_, ?_⟩
    · rw [modifyPiece, ha2]
      simp only [slip, Array.getElem?_modify]
      split <;> cases (s.agenda task).pieces[t]? <;> rfl
    · rw [modifyPiece, ha2]
      simp [waiting]
    · rwa [modifyPiece, ha2]

lemma even_putBack {w w' : Work} {woken : Bool} (size : task < s.agendas.size)
    (hw : (s.agenda task).cell ticket = some (.working w))
    (back : s.putBack task ticket w' = (woken, s')) : (s.agenda task).Even (s'.agenda task) := by
  cases back
  rw [agenda_modifyAgenda _ _ size]
  refine ⟨fun t => ?_, by simp [waiting], rfl, rfl⟩
  by_cases ht : ticket = t
  · subst ht
    rw [work?_of_working hw]
    obtain ⟨p, hp, _⟩ := piece_of_working hw
    simp [work?, slip, Array.getElem?_modify, hp]
  · simp [work?, slip, Array.getElem?_modify, ht]

lemma lags_arm (size : task < s.agendas.size) :
    (s.agenda task).Lags ((s.arm task).2.agenda task) := by
  rw [arm, agenda_modifyAgenda _ _ size]
  exact .refl _

lemma enlist_paces (size : task < s.agendas.size) :
    ((s.enlist task).agenda task).unfinished = (s.agenda task).unfinished ∧
      ((s.enlist task).agenda task).waiting = 0 ∧
      ((s.enlist task).agenda task).woken = false ∧
      ((s.enlist task).agenda task).ready.toList.length =
        (s.agenda task).ready.toList.length + (s.agenda task).waiting := by
  set a := s.agenda task with ha
  set a0 : Agenda := { a with
    woken := false
    members := a.members + a.waiting
    enlisted := a.pieces.size } with ha0
  set tickets := List.range' a.enlisted a.waiting with htickets
  have ha' : (s.enlist task).agenda task = tickets.foldl enroll a0 :=
    s.agenda_modifyAgenda _ size
  obtain ⟨_, henlisted, hcount⟩ := shape_enrollAll tickets a0
  rw [ha']
  refine ⟨unfinished_congr fun t => ?_, ?_, woken_enrollAll tickets a0, ?_⟩
  · rw [work?_of_slip (slip_enrollAll tickets a0 t)]
    rfl
  · rw [waiting, henlisted, hcount]
    exact Nat.sub_self _
  · rw [ready_enrollAll, List.length_append, htickets, List.length_range']

end Store

end Troupe
