import Mathlib.Order.Interval.Finset.Nat
import Troupe.Proofs.Failure

/-!
Who is on the trampoline.

A piece is told something, and runs, only after it has left the trampoline. So the pieces that have
not left it yet have all their work before them, and the members of a task are the other pieces that
have not finished (`Agenda.Roster`).

* `Task.Poll.rostered`: a run of a task keeps this up.
* `Task.Standing.left_empty`: when the main evaluation has finished and nothing was dropped, no
  piece is left that has not finished, and nothing is left on the trampoline.
-/

namespace Troupe

open Agenda Array Finset List Nat Option

variable {ticket : Nat} {g : Goal} {w : Work}

namespace Agenda

variable {task t : Nat} {a a' : Agenda} {w : Waiter}

/-- If the waiter is a piece of the task, it has left the trampoline. -/
def Enlists (task : Nat) (a : Agenda) (w : Waiter) : Prop := ∀ t, w = .piece task t → t < a.enlisted

/-- Pieces on the trampoline have not run, only others are told something, and the members are those
of them that have not finished. -/
structure Roster (task : Nat) (a : Agenda) : Prop where
  inside : a.enlisted ≤ a.pieces.size
  fresh : ∀ t, a.enlisted ≤ t → t < a.pieces.size → (a.work? t).isSome = true
  count : a.members = ((Finset.range a.enlisted).filter fun t => (a.work? t).isSome = true).card
  readers : ∀ {who i}, a.Registered who i → a.Enlists task who
  ready : ∀ t ∈ a.ready.toList, t < a.enlisted

namespace Roster

/-- Something happens to one piece; it does not finish by that. -/
lemma modify (h : a.Roster task) (ticket : Nat) (f : Piece → Piece)
    (pieces : a'.pieces = a.pieces.modify ticket f) (enlisted : a'.enlisted = a.enlisted)
    (members : a'.members = a.members) (ready : ∀ t ∈ a'.ready.toList, t < a.enlisted)
    (work : ∀ p, a.pieces[ticket]? = some p → (f p).work.isSome = p.work.isSome)
    (reply : ∀ p who, (f p).reply = .pending (some who) →
      p.reply = .pending (some who) ∨ a.Enlists task who) : a'.Roster task := by
  have hsize : a'.pieces.size = a.pieces.size := by rw [pieces, size_modify]
  have hwork : ∀ t, (a'.work? t).isSome = (a.work? t).isSome := by
    intro t
    simp only [work?, slip, pieces, Array.getElem?_modify]
    split
    · rename_i ht
      subst ht
      cases hp : a.pieces[ticket]? with
      | none => rfl
      | some p => exact work p hp
    · rfl
  refine ⟨by rw [enlisted, hsize]; exact h.inside, fun t ht hlt => ?_, ?_, ?_,
    fun t ht => enlisted ▸ ready t ht⟩
  · rw [hwork t]
    exact h.fresh t (enlisted ▸ ht) (hsize ▸ hlt)
  · simp only [members, enlisted, hwork]
    exact h.count
  · rintro who i ⟨w, hw⟩
    rw [Enlists, enlisted]
    simp only [slip, pieces, Array.getElem?_modify] at hw
    split at hw
    · rename_i hi
      subst hi
      obtain ⟨p', hp', heq⟩ := map_eq_some_iff.1 hw
      obtain ⟨p, hp, rfl⟩ := map_eq_some_iff.1 hp'
      exact (reply p who (congrArg Prod.snd heq)).elim
        (fun hr => h.readers ⟨p.work, by rw [slip, hp, map_some, hr]⟩) id
    · exact h.readers ⟨w, hw⟩

lemma of_pieces (h : a.Roster task) (pieces : a'.pieces = a.pieces)
    (enlisted : a'.enlisted = a.enlisted)
    (members : a'.members = a.members) (ready : ∀ t ∈ a'.ready.toList, t < a.enlisted) :
    a'.Roster task :=
  h.modify 0 id (pieces.trans (modify_of_eq fun _ _ => rfl).symm) enlisted members ready
    (fun _ _ => rfl) fun _ _ => .inl

lemma told (h : a.Roster task) (hw : a.Enlists task w) : (a.told task w).Roster task := by
  unfold Agenda.told
  split
  · split
    · exact h.of_pieces rfl rfl rfl h.ready
    · exact h
  · rename_i task' ticket
    split
    · rename_i htask
      subst htask
      unfold tellPiece
      split
      · exact h
      · split
        · exact h
        · split
          · exact h.modify ticket ({ · with woken := true }) rfl rfl rfl h.ready (fun _ _ => rfl)
              fun _ _ => .inl
          · refine h.modify ticket ({ · with woken := true, queued := true }) rfl rfl rfl
              (fun t ht => ?_) (fun _ _ => rfl) fun _ _ => .inl
            rw [Fifo.toList_push, List.mem_append, List.mem_singleton] at ht
            exact ht.elim (h.ready t) fun heq => heq ▸ hw ticket rfl
    · exact h
  · exact h

lemma toldAll (ws : List Waiter) : ∀ {a : Agenda}, a.Roster task → (∀ w ∈ ws, a.Enlists task w) →
    (ws.foldl (Agenda.told task) a).Roster task := by
  induction ws with
  | nil => exact fun h _ => h
  | cons w ws ih =>
    intro a h hws
    refine ih (h.told (hws w mem_cons_self)) fun w' hw' t ht => ?_
    rw [(Later.told task a w).enlisted]
    exact hws w' (mem_cons_of_mem w hw') t ht

lemma detach (h : a.Roster task) (job : Job g) : (a.detach job).Roster task := by
  have hold : ∀ t, t < a.pieces.size → (a.detach job).slip t = a.slip t := fun t ht => by
    simp only [slip, Agenda.detach, Array.getElem?_push, if_neg (Nat.ne_of_lt ht)]
  have hnew : (a.detach job).slip a.pieces.size = some (some ⟨g, .start job⟩, .pending none) := by
    simp [slip, Agenda.detach]
  have hsize : (a.detach job).pieces.size = a.pieces.size + 1 := Array.size_push _
  refine ⟨h.inside.trans (hsize.ge.trans' (Nat.le_succ _)), fun t ht htsize => ?_, ?_, ?_, h.ready⟩
  · rcases Nat.lt_succ_iff_lt_or_eq.1 (hsize ▸ htsize) with hlt | rfl
    · rw [work?_of_slip (hold t hlt)]
      exact h.fresh t ht hlt
    · rw [work?, hnew]
      rfl
  · refine h.count.trans (congrArg _ (Finset.filter_congr fun t ht => ?_))
    rw [work?_of_slip (hold t ((Finset.mem_range.1 ht).trans_le h.inside))]
  · rintro who i ⟨w, hw⟩
    have hi : i < (a.detach job).pieces.size := by
      by_contra hge
      simp [slip, Array.getElem?_eq_none (Nat.le_of_not_lt hge)] at hw
    rcases Nat.lt_succ_iff_lt_or_eq.1 (hsize ▸ hi) with hlt | rfl
    · exact h.readers ⟨w, (hold i hlt) ▸ hw⟩
    · rw [hnew] at hw
      cases hw

lemma read (h : a.Roster task) (ticket : Nat) {who : Waiter} (hw : a.Enlists task who) :
    (a.read ticket who).Roster task := by
  refine h.modify ticket _ (by unfold Agenda.read; dsimp only) rfl rfl h.ready ?_ ?_
  · exact fun _ _ => rfl
  · rintro ⟨_, reply, _, _, _⟩ who' hr
    cases reply <;> cases hr <;> exact .inr hw

lemma finish (h : a.Roster task) {ticket : Nat} {p : Piece} (hp : a.pieces[ticket]? = some p)
    (hwork : p.work.isSome = true) (hticket : ticket < a.enlisted) (answer : Answer) :
    Roster task (a.give ticket answer) := by
  have hself : (a.give ticket answer).slip ticket = some (none, .given answer) :=
    slip_give (by rw [slip, hp, map_some]) answer
  have hothers : ∀ t, t ≠ ticket → (a.give ticket answer).slip t = a.slip t :=
    fun t ht => slip_give_of_ne ht answer
  refine ⟨h.inside.trans size_modify.ge, fun t ht hsize => ?_, ?_, ?_, h.ready⟩
  · rw [work?_of_slip (hothers t (hticket.trans_le ht).ne')]
    exact h.fresh t ht (hsize.trans_eq size_modify)
  · have hfilter : ((Finset.range a.enlisted).filter fun t =>
        ((a.give ticket answer).work? t).isSome = true) =
        ((Finset.range a.enlisted).filter fun t => (a.work? t).isSome = true).erase ticket := by
      ext t
      simp only [Finset.mem_filter, Finset.mem_erase]
      by_cases ht : t = ticket
      · subst ht
        simp [work?, hself]
      · simp [ht, work?_of_slip (hothers t ht)]
    refine (congrArg (· - 1) h.count).trans (.trans ?_ (congrArg Finset.card hfilter).symm)
    rw [card_erase_of_mem]
    rw [Finset.mem_filter, Finset.mem_range, work?, slip, hp]
    exact ⟨hticket, hwork⟩
  · rintro who i ⟨w, hi⟩
    by_cases heq : i = ticket
    · rw [heq, hself] at hi
      cases hi
    · exact h.readers ⟨w, (hothers i heq) ▸ hi⟩

lemma enrollAll (tickets : List Nat) : ∀ {a : Agenda}, a.Roster task →
    (∀ t ∈ tickets, t < a.enlisted) → (tickets.foldl enroll a).Roster task := by
  induction tickets with
  | nil => exact fun h _ => h
  | cons ticket tickets ih =>
    intro a h hlt
    refine ih (h.modify ticket ({ · with queued := true, linked := a.links }) rfl rfl rfl
      (fun t ht => ?_) (fun _ _ => rfl) fun _ _ => .inl) fun t ht => hlt t (mem_cons_of_mem _ ht)
    rw [enroll, Fifo.toList_push, List.mem_append, List.mem_singleton] at ht
    exact ht.elim (h.ready t) fun heq => heq ▸ hlt ticket mem_cons_self

lemma enlist (h : a.Roster task) : ((List.range' a.enlisted a.waiting).foldl enroll { a with
      woken := false
      members := a.members + a.waiting
      enlisted := a.pieces.size }).Roster task := by
  have hinside := h.inside
  refine enrollAll _ ⟨le_rfl, fun t ht hlt => absurd ht (not_le.2 hlt), ?_,
    fun hr t ht => (h.readers hr t ht).trans_le hinside, fun t ht =>
    (h.ready t ht).trans_le hinside⟩
    fun t ht => ?_
  · -- those on the trampoline have not finished
    have hfilter : ((Finset.range a.pieces.size).filter fun t => (a.work? t).isSome = true) =
        ((Finset.range a.enlisted).filter fun t => (a.work? t).isSome = true) ∪
          Ico a.enlisted a.pieces.size := by
      ext t
      simp only [Finset.mem_filter, Finset.mem_union, Finset.mem_range, Finset.mem_Ico]
      constructor
      · rintro ⟨hlt, hwork⟩
        exact (lt_or_ge t a.enlisted).imp (⟨·, hwork⟩) (⟨·, hlt⟩)
      · rintro (⟨hlt, hwork⟩ | ⟨hge, hlt⟩)
        · exact ⟨hlt.trans_le hinside, hwork⟩
        · exact ⟨hlt, h.fresh t hge hlt⟩
    have hdisjoint : Disjoint ((Finset.range a.enlisted).filter fun t => (a.work? t).isSome = true)
        (Ico a.enlisted a.pieces.size) := by
      refine disjoint_left.2 fun t ht ht' => ?_
      exact absurd (Finset.mem_Ico.1 ht').1
        (Nat.not_le.2 (Finset.mem_range.1 (Finset.mem_filter.1 ht).1))
    have hcard := card_union_of_disjoint hdisjoint
    rw [← hfilter, card_Ico, ← h.count] at hcard
    exact hcard.symm
  · rw [List.mem_range'_1, waiting] at ht
    change t < a.pieces.size
    omega

end Roster

end Agenda

/-! ### Stores -/

namespace Store

variable {s s' : Store} {task : Nat} {cx : Context} {who : Waiter}

/-- The pieces of the task are in order, and only those that have left the trampoline wait for
slots. -/
structure Rostered (s : Store) (task : Nat) : Prop where
  size : task < s.agendas.size
  agenda : (s.agenda task).Roster task
  slots : ∀ {who slot}, s.heap.Moored who slot → (s.agenda task).Enlists task who

namespace Rostered

lemma modify (h : s.Rostered task) {f : Agenda → Agenda} (roster : (f (s.agenda task)).Roster task)
    (enlisted : (s.agenda task).enlisted ≤ (f (s.agenda task)).enlisted) :
    (s.modifyAgenda task f).Rostered task := by
  rw [← s.agenda_modifyAgenda f h.size] at roster enlisted
  exact ⟨(s.size_modifyAgenda f).symm ▸ h.size, roster, fun hm t ht =>
    (h.slots hm t ht).trans_le enlisted⟩

lemma wakeAll (h : s.Rostered task) (ws : List Waiter)
    (hws : ∀ w ∈ ws, (s.agenda task).Enlists task w) : (ws.foldl wake s).Rostered task := by
  refine ⟨(s.size_wakeAll ws).symm ▸ h.size, ?_, fun hm t ht => ?_⟩
  · rw [s.agenda_wakeAll ws h.size]
    exact .toldAll ws h.agenda hws
  · rw [s.agenda_wakeAll ws h.size, (Later.toldAll ..).enlisted]
    exact h.slots (s.heap_wakeAll ws ▸ hm) t ht

lemma touch (h : s.Rostered cx.task) (touch : Touch cx who s s')
    (hwho : (s.agenda cx.task).Enlists cx.task who) : s'.Rostered cx.task := by
  cases touch with
  | heap grows => exact ⟨h.size, h.agenda, fun hm => h.slots (hm.of_grows grows.slots)⟩
  | bind _ name v env =>
    obtain ⟨htold, hwait⟩ := s.heap.bind_waiters name v env
    have h1 : ({ s with heap := (s.heap.bind name v env).2.2 } : Store).Rostered cx.task :=
      ⟨h.size, h.agenda, fun hm => h.slots (hwait _ _ hm)⟩
    exact h1.wakeAll _ fun w hw => have ⟨_, hm, _⟩ := htold w hw; h.slots hm
  | park => exact ⟨h.size, h.agenda, fun hm => hm.of_park.elim h.slots fun heq => heq.1 ▸ hwho⟩
  | request | reserve => exact ⟨h.size, h.agenda, h.slots⟩
  | detach _ job => exact h.modify (h.agenda.detach job) le_rfl
  | read _ ticket =>
    rw [readAnswer_eq]
    exact h.modify (h.agenda.read ticket hwho) le_rfl

lemma touches (h : s.Rostered cx.task) (touches : Touches cx who s s')
    (hwho : (s.agenda cx.task).Enlists cx.task who) : s'.Rostered cx.task := by
  induction touches with
  | refl => exact h
  | tail before last ih =>
    refine ih.touch last fun t ht => ?_
    rw [(Touches.later before h.size).enlisted]
    exact hwho t ht

lemma pop (h : s.Rostered task) (popped : s.nextReady task = (some ticket, s')) :
    s'.Rostered task ∧ ticket < (s'.agenda task).enlisted := by
  obtain ⟨ready, hready, rfl⟩ := nextReady_some popped
  have hmem : ∀ t ∈ ticket :: ready.toList, t < (s.agenda task).enlisted := hready ▸ h.agenda.ready
  refine ⟨h.modify (h.agenda.of_pieces rfl rfl rfl fun t ht =>
      hmem t (mem_cons_of_mem _ ht)) le_rfl, ?_⟩
  rw [s.agenda_modifyAgenda _ h.size]
  exact hmem ticket mem_cons_self

lemma turn {s1 s2 : Store} (h : s.Rostered cx.task)
    (popped : s.nextReady cx.task = (some ticket, s1))
    (taken : s1.takeWork cx.task ticket = (some w, s2))
    (run : Touches cx (.piece cx.task ticket) s2 s') :
    s'.Rostered cx.task ∧ ticket < (s'.agenda cx.task).enlisted ∧
      ∃ p, (s'.agenda cx.task).pieces[ticket]? = some p ∧ p.work = some w := by
  obtain ⟨h1, hlt⟩ := h.pop popped
  obtain ⟨p, hp, hw, rfl⟩ := takeWork_some taken
  have h2 : (s1.modifyPiece cx.task ticket ({ · with queued := false, woken := false })).Rostered
      cx.task :=
    h1.modify (h1.agenda.modify ticket ({ · with queued := false, woken := false }) rfl rfl rfl
      h1.agenda.ready (fun _ _ => rfl) fun _ _ => .inl) le_rfl
  have hagenda : (s1.modifyPiece cx.task ticket ({ · with queued := false, woken := false })).agenda
      cx.task = _ := s1.agenda_modifyAgenda _ h1.size
  have hlater := run.later h2.size
  rw [hagenda] at hlater
  have hwho : ((s1.modifyPiece cx.task ticket ({ · with queued := false, woken := false })).agenda
      cx.task).Enlists cx.task (.piece cx.task ticket) := by
    rintro t ⟨⟩
    rwa [hagenda]
  refine ⟨h2.touches run hwho, by rwa [hlater.enlisted], ?_⟩
  obtain ⟨p', hp', heq, -⟩ := hlater.work ticket { p with queued := false, woken := false }
    (by simp [Array.getElem?_modify, hp])
  exact ⟨p', hp', heq.trans hw⟩

lemma finish {p : Piece} (h : s.Rostered task) (hticket : ticket < (s.agenda task).enlisted)
    (hp : (s.agenda task).pieces[ticket]? = some p) (hwork : p.work = some w) (answer : Answer) :
    (s.finish task ticket answer).Rostered task := by
  rw [finish_eq]
  refine (h.modify (f := (·.give ticket answer))
    (h.agenda.finish hp (isSome_of_eq_some hwork) hticket answer) le_rfl).wakeAll _ fun w hw => ?_
  obtain ⟨q, hq, hreply⟩ := reply_of_reader? hw
  rw [s.agenda_modifyAgenda _ h.size]
  exact h.agenda.readers ⟨q.work, by rw [slip, hq, map_some, hreply]⟩

lemma putBack {p : Piece} {w' : Work} {woken : Bool} (h : s.Rostered task)
    (hp : (s.agenda task).pieces[ticket]? = some p) (hwork : p.work = some w)
    (back : s.putBack task ticket w' = (woken, s')) : s'.Rostered task := by
  cases back
  refine h.modify
    (h.agenda.modify ticket ({ · with work := some w', linked := (s.agenda task).links })
    rfl rfl rfl h.agenda.ready (fun q hq => ?_) fun _ _ => .inl) le_rfl
  cases hq.symm.trans hp
  rw [hwork]
  rfl

lemma mark (h : s.Rostered task) {f : Agenda → Agenda} (same : ∀ a, (f a).enlisted = a.enlisted ∧
      (f a).members = a.members ∧ (f a).pieces = a.pieces ∧ (f a).ready = a.ready) :
    (s.modifyAgenda task f).Rostered task := by
  obtain ⟨henlisted, hmembers, hpieces, hready⟩ := same (s.agenda task)
  exact h.modify (h.agenda.of_pieces hpieces henlisted hmembers
    (hready ▸ h.agenda.ready)) henlisted.ge

lemma enlist (h : s.Rostered task) : (s.enlist task).Rostered task :=
  h.modify h.agenda.enlist ((shape_enrollAll _ _).2.1.symm ▸ h.agenda.inside)

end Rostered

end Store

namespace Task

open Store

variable {s s' : Store} {cx : Context} {log : List Request}

lemma rostered_closed (cx : Context) :
    Closed cx fun (_ : Evaluation g) s _ _ s' => s.Rostered cx.task → s'.Rostered cx.task where
  refl _ _ := id
  trans first second h := second (first h)
  flag _ _ _ _ h := h.mark fun _ => ⟨rfl, rfl, rfl, rfl⟩
  wake _ _ h := h.wakeAll [.task cx.task] (by simp [Enlists])
  enlist _ _ h := h.enlist
  skip popped idle h := by
    obtain ⟨rfl, _⟩ := takeWork_none idle
    exact (h.pop popped).1
  finish popped taken run h := by
    obtain ⟨h3, hlt, p, hp, hwork⟩ := h.turn popped taken run.touches
    exact h3.finish hlt hp hwork _
  back popped taken run _ h := by
    obtain ⟨h3, _, p, hp, hwork⟩ := h.turn popped taken run.touches
    exact h3.putBack hp hwork rfl
  -- The main evaluation has no piece: whatever it waits for, no piece is told in its place.
  main run h := h.touches run.touches fun _ => nofun

/-- A run of a task keeps its pieces in order. -/
theorem Poll.rostered {t t' : Task g} (poll : Poll t s log t' s') (h : s.Rostered t.context.task) :
    s'.Rostered t.context.task :=
  poll.closed (rostered_closed t.context) h

/-- When the main evaluation has finished and nothing was dropped, no piece is left that has not
finished, and nothing is left on the trampoline. -/
theorem Standing.left_empty {strict : Prop} {r : g.Result} {trees : List Work}
    (standing : Standing strict cx (.done r) s [] trees) (rostered : s.Rostered cx.task) :
    (∀ t, (s.agenda cx.task).work? t = none) ∧ (s.agenda cx.task).waiting = 0 ∧
      (s.agenda cx.task).members = 0 := by
  obtain ⟨ts, hall, hmem⟩ := standing.laid
  have hts : ts = ∅ := by
    cases hall with
    | cons head tail _ =>
      cases head
      cases tail
      exact Set.union_empty ∅
  have hwork : ∀ t, (s.agenda cx.task).work? t = none := by
    intro t
    by_contra hne
    obtain ⟨w, hw⟩ := Option.ne_none_iff_exists'.1 hne
    obtain ⟨⟨_, r⟩, hslip, rfl⟩ := Option.bind_eq_some_iff.1 hw
    obtain ⟨reader, rfl⟩ := standing.orderly.pending t w r hslip
    have hcell := hmem t (by rw [cell, hslip]; exact Option.some_ne_none _)
    rw [hts] at hcell
    exact hcell
  refine ⟨hwork, Nat.sub_eq_zero_of_le (Nat.le_of_not_lt fun hlt => ?_), ?_⟩
  · have := rostered.agenda.fresh _ le_rfl hlt
    rw [hwork] at this
    cases this
  · rw [rostered.agenda.count, Finset.card_eq_zero, Finset.filter_eq_empty_iff]
    intro t _
    rw [hwork]
    exact Bool.false_ne_true

end Task

end Troupe
