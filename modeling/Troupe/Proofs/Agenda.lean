import Mathlib.Tactic.Common
import Troupe.Store

/-!
What happens to the agendas of tasks.

* `Agenda.told`: what telling a waiter does to the agenda of a task; `Store.wake_eq`.
* `Agenda.detach`, `Agenda.read`: an evaluation is detached, and an answer is read.
* `Store.agenda_wakeAll`, `Store.wakeAll_eq`: telling waiters, one after the other.
-/

namespace Troupe

open Agenda Array

/-- The waiter is a part of the task. -/
def Waiter.Of (task : Nat) : Waiter → Prop
  | .task task' => task' = task
  | .piece task' _ => task' = task
  | .host _ => False

/-- What happens to one element depends on that element only. -/
lemma modify_congr {α : Type} {xs : Array α} {i : Nat} {f f' : α → α}
    (h : ∀ x, xs[i]? = some x → f x = f' x) : xs.modify i f = xs.modify i f' := by
  apply ext_getElem?
  intro j
  simp only [getElem?_modify]
  by_cases hj : i = j
  · subst hj
    cases hx : xs[i]? with
    | none => rfl
    | some x => simp [h x hx]
  · simp [hj]

lemma modify_of_eq {α : Type} {xs : Array α} {i : Nat} {f : α → α}
    (h : ∀ x, xs[i]? = some x → f x = x) : xs.modify i f = xs := by
  have hid : xs.modify i f = xs.modify i fun x => x := modify_congr h
  rw [hid]
  apply ext_getElem?
  simp [getElem?_modify]

namespace Agenda

/-- The task is told something. -/
def tell (a : Agenda) : Agenda := { a with woken := true }

/-- A piece is told something. -/
def tellPiece (a : Agenda) (ticket : Nat) : Agenda :=
  if a.closed then a
  else
    match a.pieces[ticket]? with
    | none => a
    | some p =>
      if p.queued then
        { a with pieces := a.pieces.modify ticket fun p => { p with woken := true } }
      else
        { a with
          pieces := a.pieces.modify ticket fun p => { p with woken := true, queued := true }
          ready := a.ready.push ticket
          armed := false
          woken := a.woken || a.armed }

/-- What telling a waiter does to the agenda of a task. -/
def told (task : Nat) (a : Agenda) : Waiter → Agenda
  | .task task' => if task' = task then a.tell else a
  | .piece task' ticket => if task' = task then a.tellPiece ticket else a
  | .host _ => a

/-- The actor that is to be resumed when the task is told. -/
def caller (a : Agenda) : Array ActorId := if a.running || a.muted then #[] else #[a.actor]

/-- A piece is added on the trampoline. -/
def detach {g : Goal} (a : Agenda) (job : Job g) : Agenda :=
  { a with pieces := a.pieces.push { work := some ⟨g, .start job⟩ } }

/-- The answer of a piece is read, or waited for. -/
def read (a : Agenda) (ticket : Nat) (who : Waiter) : Agenda :=
  { a with
    pieces := a.pieces.modify ticket fun p =>
      { p with
        reply := match p.reply with
          | .given _ => .taken
          | _ => .pending (some who) } }

/-- A piece leaves the trampoline for the ready queue. -/
def enroll (a : Agenda) (ticket : Nat) : Agenda :=
  { a with
    pieces := a.pieces.modify ticket fun p => { p with queued := true, linked := a.links }
    links := a.links + 1
    ready := a.ready.push ticket }

/-- A piece has finished. -/
def give (a : Agenda) (ticket : Nat) (answer : Answer) : Agenda :=
  { a with
    members := a.members - 1
    pieces := a.pieces.modify ticket fun p =>
      { p with work := none, queued := true, reply := .given answer } }

/-- Who waits for the answer of a piece. -/
def reader? (a : Agenda) (ticket : Nat) : Option Waiter :=
  match a.pieces[ticket]? with
  | some { reply := .pending reader, .. } => reader
  | _ => none

lemma reply_of_reader? {a : Agenda} {ticket : Nat} {who : Waiter}
    (h : who ∈ (a.reader? ticket).toList) :
    ∃ p, a.pieces[ticket]? = some p ∧ p.reply = .pending (some who) := by
  rw [Option.mem_toList, reader?] at h
  split at h
  · rename_i hp
    cases h
    exact ⟨_, hp, rfl⟩
  · cases h

end Agenda

namespace Store

variable {task : Nat} (s : Store)

lemma agenda_modifyAgenda (f : Agenda → Agenda) (h : task < s.agendas.size) :
    (s.modifyAgenda task f).agenda task = f (s.agenda task) := by
  have hget : s.agendas[task]? = some s.agendas[task] := getElem?_eq_getElem h
  simp only [agenda, modifyAgenda, getElem?_modify, hget]
  simp

lemma agenda_modifyAgenda_of_ne {task' : Nat} (f : Agenda → Agenda) (h : task' ≠ task) :
    (s.modifyAgenda task' f).agenda task = s.agenda task := by
  simp [agenda, modifyAgenda, getElem?_modify, h]

@[simp] lemma size_modifyAgenda (f : Agenda → Agenda) :
    (s.modifyAgenda task f).agendas.size = s.agendas.size := by
  simp [modifyAgenda]

/-- A change of an agenda depends on that agenda only. -/
lemma modifyAgenda_congr {f k : Agenda → Agenda} (h : f (s.agenda task) = k (s.agenda task)) :
    s.modifyAgenda task f = s.modifyAgenda task k := by
  unfold modifyAgenda
  rw [modify_congr fun a ha => ?_]
  rwa [agenda, ha] at h

lemma modifyAgenda_of_eq {f : Agenda → Agenda} (h : f (s.agenda task) = s.agenda task) :
    s.modifyAgenda task f = s := by
  rw [modifyAgenda, modify_of_eq fun a ha => ?_]
  rwa [agenda, ha] at h

lemma modifyAgenda_modifyAgenda (f f' : Agenda → Agenda) :
    (s.modifyAgenda task f).modifyAgenda task f' = s.modifyAgenda task fun a => f' (f a) := by
  have hsame : (s.agendas.modify task f).modify task f' = s.agendas.modify task
      fun a => f' (f a) := by
    apply ext_getElem?
    intro i
    simp only [getElem?_modify]
    split <;> simp [Function.comp_def]
  simp only [modifyAgenda, hsame]

/-! ### Telling waiters -/

lemma wakeTask_eq (task : Nat) : s.wakeTask task =
    { s.modifyAgenda task Agenda.tell with wakeups := s.wakeups ++ (s.agenda task).caller } := by
  unfold wakeTask caller
  dsimp only
  split
  · rw [append_empty]
    rfl
  · rw [append_singleton]
    rfl

/-- What telling a piece comes to: the agenda changes, and the task may be told. -/
lemma wakePiece_cases (task ticket : Nat) :
    (∃ f : Agenda → Agenda, s.wakePiece task ticket = s.modifyAgenda task f ∧
        f (s.agenda task) = (s.agenda task).tellPiece ticket ∧
        (f (s.agenda task)).woken = (s.agenda task).woken) ∨
      ∃ f : Agenda → Agenda, s.wakePiece task ticket = (s.modifyAgenda task f).wakeTask task ∧
        (f (s.agenda task)).tell = (s.agenda task).tellPiece ticket ∧
        (f (s.agenda task)).caller = (s.agenda task).caller ∧ task < s.agendas.size := by
  unfold wakePiece tellPiece piece?
  cases hc : (s.agenda task).closed with
  | true => exact .inl ⟨id, (s.modifyAgenda_of_eq rfl).symm, rfl, rfl⟩
  | false =>
    cases hp : (s.agenda task).pieces[ticket]? with
    | none => exact .inl ⟨id, (s.modifyAgenda_of_eq rfl).symm, rfl, rfl⟩
    | some p =>
      cases hq : p.queued with
      | true => exact .inl ⟨_, by simp [hq]; rfl, by simp [hq, hc], by simp⟩
      | false =>
        cases ha : (s.agenda task).armed with
        | false => exact .inl ⟨_, by simp [hq]; rfl, by simp [hq, hc], rfl⟩
        | true =>
          refine .inr ⟨_, by simp [hq]; rfl, by simp [hq, hc, Agenda.tell], rfl, ?_⟩
          by_contra hs
          rw [agenda, getElem?_eq_none (Nat.le_of_not_lt hs)] at ha
          cases ha

/-- Telling a waiter changes the agenda of its task. If the task itself is told by that, its actor
may have to be resumed. -/
lemma wake_eq (who : Waiter) : ∃ task called alerts,
    s.wake who = { s.modifyAgenda task (·.told task who) with
      wakeups := s.wakeups ++ called
      alerts := s.alerts ++ alerts } ∧
    (∀ task' ≠ task, ∀ a : Agenda, a.told task' who = a) ∧
    (called = (s.agenda task).caller ∨
      called = #[] ∧ ((s.agenda task).told task who).woken = (s.agenda task).woken) ∧
    ∀ task', who.Of task' → task' = task ∧ alerts = #[] := by
  cases who with
  | task task =>
    refine ⟨task, (s.agenda task).caller, #[], ?_, fun _ hne a => if_neg hne.symm, .inl rfl,
      fun _ own => ⟨own.symm, rfl⟩⟩
    simp only [wake, wakeTask_eq, told, if_true, append_empty]
    rfl
  | piece task ticket =>
    have htold : ∀ a : Agenda, a.told task (.piece task ticket) = a.tellPiece ticket :=
      fun a => if_pos rfl
    have hother : ∀ task' ≠ task, ∀ a : Agenda, a.told task' (.piece task ticket) = a :=
      fun _ hne a => if_neg hne.symm
    simp only [wake]
    rcases s.wakePiece_cases task ticket with ⟨f, heq, htell, hwoken⟩ | ⟨f, heq, htell, hcaller, hs⟩
    · refine ⟨task, #[], #[], ?_, hother, .inr ⟨rfl, ?_⟩, fun _ own => ⟨own.symm, rfl⟩⟩
      · simp only [heq, htold, s.modifyAgenda_congr (k := (·.tellPiece ticket)) htell, append_empty]
        rfl
      · rw [htold, ← htell, hwoken]
    · refine ⟨task, (s.agenda task).caller, #[], ?_, hother, .inl rfl, fun _ own => ⟨own.symm, rfl⟩⟩
      rw [heq, wakeTask_eq, s.agenda_modifyAgenda f hs, hcaller, modifyAgenda_modifyAgenda,
        s.modifyAgenda_congr (k := (·.told task (.piece task ticket))) (htell.trans (htold _).symm),
        append_empty]
      rfl
  | host name =>
    refine ⟨0, #[], #[name], ?_, fun _ _ _ => rfl, .inr ⟨rfl, rfl⟩, fun _ own => own.elim⟩
    rw [s.modifyAgenda_of_eq rfl, append_empty, append_singleton]
    rfl

lemma agenda_wake (who : Waiter) (h : task < s.agendas.size) :
    (s.wake who).agenda task = (s.agenda task).told task who := by
  obtain ⟨task', _, _, heq, hother, -⟩ := s.wake_eq who
  rw [heq]
  by_cases ht : task' = task
  · subst ht
    exact s.agenda_modifyAgenda _ h
  · exact (s.agenda_modifyAgenda_of_ne _ ht).trans (hother task (Ne.symm ht) _).symm

/-- Telling waiters changes agendas, and who is to be told outside. -/
lemma wakeAll_eq (ws : List Waiter) : ∃ agendas wakeups alerts,
    ws.foldl wake s = { s with agendas, wakeups, alerts } ∧ agendas.size = s.agendas.size := by
  induction ws generalizing s with
  | nil => exact ⟨_, _, _, rfl, rfl⟩
  | cons w ws ih =>
    obtain ⟨task, _, _, heq, -⟩ := s.wake_eq w
    obtain ⟨agendas, wakeups, alerts, hws, hsize⟩ := ih (s.wake w)
    refine ⟨agendas, wakeups, alerts, hws.trans (by rw [heq]; rfl), ?_⟩
    rw [hsize, heq]
    exact s.size_modifyAgenda _

@[simp] lemma transactions_wakeAll (ws : List Waiter) :
    (ws.foldl wake s).transactions = s.transactions := by
  obtain ⟨_, _, _, heq, -⟩ := s.wakeAll_eq ws
  rw [heq]

@[simp] lemma heap_wakeAll (ws : List Waiter) : (ws.foldl wake s).heap = s.heap := by
  obtain ⟨_, _, _, heq, -⟩ := s.wakeAll_eq ws
  rw [heq]

@[simp] lemma ids_wakeAll (ws : List Waiter) : (ws.foldl wake s).ids = s.ids := by
  obtain ⟨_, _, _, heq, -⟩ := s.wakeAll_eq ws
  rw [heq]

@[simp] lemma size_wakeAll (ws : List Waiter) :
    (ws.foldl wake s).agendas.size = s.agendas.size := by
  obtain ⟨_, _, _, heq, hsize⟩ := s.wakeAll_eq ws
  rw [heq, hsize]

lemma agenda_wakeAll (ws : List Waiter) (h : task < s.agendas.size) :
    (ws.foldl wake s).agenda task = ws.foldl (told task) (s.agenda task) := by
  induction ws generalizing s with
  | nil => rfl
  | cons w ws ih =>
    rw [List.foldl_cons, List.foldl_cons, ih _ ((s.size_wakeAll [w]).symm ▸ h), agenda_wake _ _ h]

lemma readAnswer_eq (task ticket : Nat) (who : Waiter) :
    (s.readAnswer task ticket who).2 = s.modifyAgenda task (·.read ticket who) := by
  unfold readAnswer
  split
  · rename_i work answer queued woken linked hp
    refine s.modifyAgenda_congr (congrArg (fun pieces => { s.agenda task with pieces }) ?_)
    refine modify_congr fun p hp' => ?_
    rw [piece?, hp'] at hp
    cases hp
    rfl
  · rename_i hp
    refine s.modifyAgenda_congr (congrArg (fun pieces => { s.agenda task with pieces }) ?_)
    refine modify_congr fun p hp' => ?_
    obtain ⟨work, reply, queued, woken, linked⟩ := p
    cases reply with
    | given answer => exact absurd hp' (hp _ _ _ _ _)
    | _ => rfl

lemma agenda_readAnswer (ticket : Nat) (who : Waiter) (h : task < s.agendas.size) :
    (s.readAnswer task ticket who).2.agenda task = (s.agenda task).read ticket who := by
  rw [readAnswer_eq, s.agenda_modifyAgenda _ h]

/-- What was detached stands on the agenda. -/
lemma agenda_detach {g : Goal} (job : Job g) (h : task < s.agendas.size) :
    (s.detach task job).2.agenda task = (s.agenda task).detach job :=
  s.agenda_modifyAgenda _ h

/-! ### Turns of pieces -/

variable {s} {s' : Store} {ticket : Nat}

lemma nextReady_some (h : s.nextReady task = (some ticket, s')) :
    ∃ ready, (s.agenda task).ready.toList = ticket :: ready.toList ∧
      s' = s.modifyAgenda task fun a => { a with ready } := by
  unfold nextReady at h
  split at h
  · cases h
  · rename_i ready hpop
    cases h
    exact ⟨ready, Fifo.toList_eq_cons_of_pop? hpop, rfl⟩

lemma nextReady_none (h : s.nextReady task = (none, s')) :
    (s.agenda task).ready.toList = [] ∧ s' = s := by
  unfold nextReady at h
  split at h
  · rename_i hpop
    cases h
    exact ⟨Fifo.pop?_eq_none_iff.1 hpop, rfl⟩
  · cases h

lemma takeWork_some {w : Work} (h : s.takeWork task ticket = (some w, s')) :
    ∃ p, (s.agenda task).pieces[ticket]? = some p ∧ p.work = some w ∧
      s' = s.modifyPiece task ticket fun p => { p with queued := false, woken := false } := by
  unfold takeWork at h
  split at h
  · rename_i hp
    cases h
    exact ⟨_, hp, rfl, rfl⟩
  · cases h

lemma takeWork_none (h : s.takeWork task ticket = (none, s')) :
    s' = s ∧ ∀ p, (s.agenda task).pieces[ticket]? = some p → p.work = none := by
  unfold takeWork at h
  split at h
  · cases h
  · rename_i hp
    cases h
    refine ⟨rfl, fun p hp' => ?_⟩
    obtain ⟨work, reply, queued, woken, linked⟩ := p
    cases work with
    | none => rfl
    | some w => exact absurd hp' (hp w reply queued woken linked)

/-- A piece that finishes tells whoever waits for its answer. -/
lemma finish_eq (s : Store) (task ticket : Nat) (answer : Answer) :
    s.finish task ticket answer = ((s.agenda task).reader? ticket).toList.foldl wake
      (s.modifyAgenda task (·.give ticket answer)) := by
  unfold finish reader? piece?
  cases (s.agenda task).pieces[ticket]? with
  | none => rfl
  | some p =>
    obtain ⟨_, reply, _, _, _⟩ := p
    rcases reply with (_ | _) | _ | _ <;> rfl

end Store

end Troupe
