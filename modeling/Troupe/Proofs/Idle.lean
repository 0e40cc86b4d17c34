import Troupe.Proofs.Forest
import Troupe.Proofs.Lasting

/-!
Evaluations that wait.

After a run an evaluation has finished, or every part of it waits (`Evaluation.Idle`): for a piece
that will tell it when it finishes, or for a slot that will tell it when it is bound. Whoever runs
it may have been told something during the run; then it has to be run again (`Agenda.Heard`).

* `Agenda.heard_told`: a waiter that listens hears what it is told.
* `Evaluation.Run.rests`: after a run.
* `Evaluation.Run.reads`: a run reads the answers of those pieces only that it waits for.
-/

namespace Troupe

open Agenda Array Option Store

variable {s s' : Store} {g : Goal} {e : Evaluation g} {who : Waiter} {a a' : Agenda} {t : Nat}

/-! ### Hearing -/

namespace Agenda

/-- A waiter of the task that can still be told: the task itself, or a piece whose place in the
ready queue is in order. -/
def Listens (task : Nat) (a : Agenda) : Waiter → Prop
  | .task task' => task' = task
  | .piece task' ticket => task' = task ∧ a.closed = false ∧
      ∃ p, a.pieces[ticket]? = some p ∧ (p.queued = true → ticket ∈ a.ready.toList)
  | .host _ => False

/-- A waiter that was told something and has not been run since. -/
def Heard (a : Agenda) : Waiter → Prop
  | .task _ => a.woken = true
  | .piece _ ticket => ticket ∈ a.ready.toList
  | .host _ => False

/-- Nothing is ready and the next piece that is told something will tell the task, or the task was
told already. -/
def Alarm (a : Agenda) : Prop := a.woken = true ∨ a.ready.toList = [] ∧ a.armed = true

/-- What cannot be undone while evaluations of the task run. -/
structure Later (a a' : Agenda) : Prop where
  flags : a'.actor = a.actor ∧ a'.muted = a.muted ∧ a'.running = a.running
  closed : a'.closed = a.closed
  enlisted : a'.enlisted = a.enlisted
  members : a'.members = a.members
  count : a.pieces.size ≤ a'.pieces.size
  woken : a.woken = true → a'.woken = true
  armed : a.armed = true ∨ a.woken = true → a'.armed = true ∨ a'.woken = true
  alarm : a.Alarm → a'.Alarm
  ready : ∀ t ∈ a.ready.toList, t ∈ a'.ready.toList
  /-- What newly stands as queued is queued. -/
  queued : ∀ (t : Nat) (p' : Piece), a'.pieces[t]? = some p' → p'.queued = true →
    t ∈ a'.ready.toList ∨ ∃ p, a.pieces[t]? = some p ∧ p.queued = true
  work : ∀ (t : Nat) (p : Piece), a.pieces[t]? = some p →
    ∃ p', a'.pieces[t]? = some p' ∧ p'.work = p.work ∧ (p.queued = true → p'.queued = true)
  /-- New pieces have not begun. -/
  fresh : ∀ (t : Nat) (p' : Piece), a.pieces.size ≤ t → a'.pieces[t]? = some p' →
    ∃ (g : Goal) (job : Job g), p'.work = some ⟨g, .start job⟩
  /-- What has not finished has not answered. -/
  pending : (∀ t w r, a.slip t = some (some w, r) → ∃ reader, r = .pending reader) →
    ∀ t w r, a'.slip t = some (some w, r) → ∃ reader, r = .pending reader

namespace Later

variable {a1 : Agenda}

lemma refl (a : Agenda) : Later a a :=
  ⟨⟨rfl, rfl, rfl⟩, rfl, rfl, rfl, le_rfl, id, id, id, fun _ ht => ht, fun _ p hp hq =>
    .inr ⟨p, hp, hq⟩, fun _ p hp => ⟨p, hp, rfl, id⟩,
    fun t p' ht hp' => by simp [getElem?_eq_none ht] at hp', id⟩

lemma trans (h1 : Later a a1) (h2 : Later a1 a') : Later a a' where
  flags :=
    ⟨h2.flags.1.trans h1.flags.1, h2.flags.2.1.trans h1.flags.2.1, h2.flags.2.2.trans h1.flags.2.2⟩
  closed := h2.closed.trans h1.closed
  enlisted := h2.enlisted.trans h1.enlisted
  members := h2.members.trans h1.members
  count := h1.count.trans h2.count
  woken h := h2.woken (h1.woken h)
  armed h := h2.armed (h1.armed h)
  alarm h := h2.alarm (h1.alarm h)
  ready t ht := h2.ready t (h1.ready t ht)
  queued t p' hp' hq := by
    rcases h2.queued t p' hp' hq with h | ⟨p1, hp1, hq1⟩
    · exact .inl h
    · rcases h1.queued t p1 hp1 hq1 with h | h
      · exact .inl (h2.ready t h)
      · exact .inr h
  work t p hp := by
    obtain ⟨p1, hp1, hw1, hq1⟩ := h1.work t p hp
    obtain ⟨p', hp', hw', hq'⟩ := h2.work t p1 hp1
    exact ⟨p', hp', hw'.trans hw1, fun hq => hq' (hq1 hq)⟩
  fresh t p' ht hp' := by
    by_cases hlt : t < a1.pieces.size
    · obtain ⟨g, job, hjob⟩ := h1.fresh t a1.pieces[t] ht (getElem?_eq_getElem hlt)
      obtain ⟨p'', hp'', hw, -⟩ := h2.work t a1.pieces[t] (getElem?_eq_getElem hlt)
      rw [hp'] at hp''
      cases hp''
      exact ⟨g, job, hw.trans hjob⟩
    · exact h2.fresh t p' (Nat.le_of_not_lt hlt) hp'
  pending h := h2.pending (h1.pending h)

/-- A change of one piece that keeps what it has left to do, and keeps it off the queue. -/
lemma modify (a : Agenda) (ticket : Nat) {f : Piece → Piece} (work : ∀ p, (f p).work = p.work)
    (queued : ∀ p, (f p).queued = p.queued)
    (pending : ∀ p reader, p.reply = .pending reader → ∃ reader', (f p).reply = .pending reader') :
    Later a { a with pieces := a.pieces.modify ticket f } := by
  refine ⟨⟨rfl, rfl, rfl⟩, rfl, rfl, rfl, by simp, id, id, id, fun _ ht => ht, ?_, ?_, ?_, ?_⟩
  · intro t p' hp' hq
    simp only [getElem?_modify] at hp'
    split at hp'
    · obtain ⟨p, hp, rfl⟩ := map_eq_some_iff.1 hp'
      exact .inr ⟨p, hp, by rwa [queued] at hq⟩
    · exact .inr ⟨p', hp', hq⟩
  · intro t p hp
    simp only [getElem?_modify, hp]
    split
    · exact ⟨f p, rfl, work p, (queued p).trans⟩
    · exact ⟨p, rfl, rfl, id⟩
  · intro t p' ht hp'
    simp [getElem?_modify, getElem?_eq_none ht] at hp'
  · intro h t w r hslip
    simp only [slip, getElem?_modify] at hslip
    split at hslip
    · rename_i heq
      subst heq
      rw [Option.map_map] at hslip
      obtain ⟨p, hp, hfp⟩ := map_eq_some_iff.1 hslip
      simp only [Function.comp_apply, Prod.mk.injEq, work] at hfp
      obtain ⟨reader, hreader⟩ := h ticket w p.reply (by simp [slip, hp, hfp.1])
      obtain ⟨reader', hreader'⟩ := pending p reader hreader
      exact ⟨reader', hfp.2 ▸ hreader'⟩
    · exact h t w r hslip

lemma tellPiece (a : Agenda) (ticket : Nat) : Later a (a.tellPiece ticket) := by
  unfold Agenda.tellPiece
  split
  · exact refl a
  · split
    · exact refl a
    · split
      · exact modify a ticket (fun _ => rfl) (fun _ => rfl) fun _ reader h => ⟨reader, h⟩
      · refine ⟨⟨rfl, rfl, rfl⟩, rfl, rfl, rfl, by simp, fun h => by simp [h], ?_, ?_,
          fun t ht => by simp [ht], ?_, ?_, ?_, ?_⟩
        · rintro (h | h)
          · exact .inr (by simp [h])
          · exact .inr (by simp [h])
        · rintro (h | ⟨_, h⟩)
          · exact .inl (by simp [h])
          · exact .inl (by simp [h])
        · intro t p' hp' hq
          simp only [getElem?_modify] at hp'
          split at hp'
          · rename_i heq
            exact .inl (by simp [heq])
          · exact .inr ⟨p', hp', hq⟩
        · intro t p hp
          simp only [getElem?_modify, hp]
          split
          · exact ⟨_, rfl, rfl, fun _ => rfl⟩
          · exact ⟨p, rfl, rfl, id⟩
        · intro t p' ht hp'
          simp [getElem?_modify, getElem?_eq_none ht] at hp'
        · intro h t w r hslip
          refine h t w r ?_
          rw [← hslip]
          simp only [slip, getElem?_modify]
          split
          · rw [Option.map_map]
            rfl
          · rfl

lemma told (task : Nat) (a : Agenda) (w : Waiter) : Later a (a.told task w) := by
  unfold Agenda.told
  split
  · split
    · exact ⟨⟨rfl, rfl, rfl⟩, rfl, rfl, rfl, le_rfl, fun _ => rfl, fun _ => .inr rfl,
        fun _ => .inl rfl,
        fun _ ht => ht, fun _ p hp hq => .inr ⟨p, hp, hq⟩, fun _ p hp => ⟨p, hp, rfl, id⟩,
        (refl a).fresh, id⟩
    · exact refl a
  · split
    · exact tellPiece a _
    · exact refl a
  · exact refl a

lemma toldAll (task : Nat) (ws : List Waiter) (a : Agenda) :
    Later a (ws.foldl (Agenda.told task) a) := by
  induction ws generalizing a with
  | nil => exact refl a
  | cons w ws ih => exact (told task a w).trans (ih _)

lemma stir {task : Nat} (h : Stir task who a a') : Later a a' := by
  cases h with
  | told _ w => exact told task a w
  | detach _ job =>
    refine ⟨⟨rfl, rfl, rfl⟩, rfl, rfl,
      rfl, by simp [detach], id, id, id, fun _ ht => ht, ?_, ?_, ?_, ?_⟩
    · intro t p' hp' hq
      simp only [detach, getElem?_push] at hp'
      split at hp'
      · cases hp'
        cases hq
      · exact .inr ⟨p', hp', hq⟩
    · intro t p hp
      have ht : t ≠ a.pieces.size := by
        rintro rfl
        simp at hp
      exact ⟨p, by simp [detach, getElem?_push, ht, hp], rfl, id⟩
    · intro t p' ht hp'
      simp only [detach, getElem?_push] at hp'
      split at hp'
      · cases hp'
        exact ⟨_, job, rfl⟩
      · simp [getElem?_eq_none ht] at hp'
    · intro h t w r hslip
      simp only [slip, detach, getElem?_push] at hslip
      split at hslip
      · cases hslip
        exact ⟨none, rfl⟩
      · exact h t w r hslip
  | read _ ticket =>
    refine modify a ticket (fun _ => rfl) (fun _ => rfl) fun p reader h => ⟨some who, ?_⟩
    simp [h]

lemma stirs {task : Nat} (h : Relation.ReflTransGen (Stir task who) a a') : Later a a' := by
  induction h with
  | refl => exact refl a
  | tail _ last ih => exact ih.trans (stir last)

lemma heard (h : Later a a') (hw : a.Heard who) : a'.Heard who := by
  cases who with
  | task task => exact h.woken hw
  | piece task ticket => exact h.ready ticket hw
  | host name => exact hw

lemma listens (h : Later a a') {task : Nat} (hw : a.Listens task who) : a'.Listens task who := by
  cases who with
  | task | host => exact hw
  | piece task' ticket =>
    obtain ⟨rfl, hclosed, p, hp, hq⟩ := hw
    obtain ⟨p', hp', _⟩ := h.work ticket p hp
    refine ⟨rfl, h.closed.trans hclosed, p', hp', fun hq' => ?_⟩
    rcases h.queued ticket p' hp' hq' with hin | ⟨p1, hp1, hq1⟩
    · exact hin
    · rw [hp] at hp1
      cases hp1
      exact h.ready ticket (hq hq1)

end Later

/-- A waiter that listens hears what it is told. -/
lemma heard_told {task : Nat} (h : a.Listens task who) : (a.told task who).Heard who := by
  cases who with
  | task task' =>
    have htask : task' = task := h
    simp [told, htask, Heard, tell]
  | piece task' ticket =>
    obtain ⟨rfl, hclosed, p, hp, hq⟩ := h
    simp only [told, if_true, Heard, tellPiece, hclosed, hp]
    cases hpq : p.queued with
    | true => simpa using hq hpq
    | false => simp
  | host name => exact h

/-- Whoever is among those who are told, and listens, hears. -/
lemma heard_toldAll {task : Nat} {ws : List Waiter} (h : a.Listens task who) (hw : who ∈ ws) :
    (ws.foldl (told task) a).Heard who := by
  induction ws generalizing a with
  | nil => cases hw
  | cons w ws ih =>
    rw [List.foldl_cons]
    rcases List.mem_cons.1 hw with rfl | hw
    · exact (Later.toldAll task ws _).heard (heard_told h)
    · exact ih ((Later.told task a w).listens h) hw

end Agenda

/-! ### Well-formed evaluations -/

namespace Evaluation

lemma Fit.mono {B B' : Nat → Prop} (h : ∀ slot, B slot → B' slot) (hf : e.Fit B) : e.Fit B' := by
  induction e with
  | done | start | awaiting => trivial
  | parked slot => exact h slot hf
  | one part frame ih => exact ih hf
  | both left right join ih1 ih2 => exact ⟨ih1 hf.1, ih2 hf.2⟩
  | race left right ih1 ih2 => exact ⟨ih1 hf.1, ih2 hf.2.1, hf.2.2⟩

end Evaluation

/-- The end of a sequence is an outcome. -/
lemma Outcome.join_done (cx : Context) (s : Store) (a b : Outcome) : ∃ o,
    (a.join b cx s).1 = .done o := by
  unfold join
  split
  · exact ⟨_, rfl⟩
  · exact ⟨_, rfl⟩

/-! ### Waiting for slots -/

namespace Store

variable {cx : Context}

/-- What happens to the agenda of the task along a run cannot be undone. -/
lemma Touches.later (h : Touches cx who s s') (hs : cx.task < s.agendas.size) :
    (s.agenda cx.task).Later (s'.agenda cx.task) := .stirs (h.agenda hs)

/-- Whoever waits for a slot does so still, or was told. -/
lemma Touches.moored {w : Waiter} {slot : Nat} (h : Touches cx who s s')
    (hs : cx.task < s.agendas.size) (hl : (s.agenda cx.task).Listens cx.task w)
    (hm : s.heap.Moored w slot) : s'.heap.Moored w slot ∨ (s'.agenda cx.task).Heard w := by
  induction h with
  | refl => exact .inl hm
  | @tail s1 s' run last ih =>
    have hs1 : cx.task < s1.agendas.size := by rwa [Touches.size_agendas run]
    rcases ih with ih | ih
    · cases last with
      | heap grows => exact .inl (ih.grows grows.slots.choose_spec)
      | bind _ name v env =>
        obtain ⟨ws, hws, hin⟩ := ih
        have hheap : (s1.bind name v env).2.heap = (s1.heap.bind name v env).2.2 :=
          heap_wakeAll ..
        rcases s1.heap.bind_slots name v env slot with hsame | ⟨htold, _⟩
        · exact .inl ⟨ws, by rw [hheap, hsame, hws], hin⟩
        · refine .inr ?_
          rw [hws] at htold
          cases htold
          have hagenda : (s1.bind name v env).2.agenda cx.task = _ := agenda_wakeAll _ _ hs1
          rw [hagenda]
          exact heard_toldAll ((Touches.later run hs).listens hl) hin
      | park unbound => exact .inl (ih.park _)
      | request | reserve | detach => exact .inl ih
      | read _ ticket =>
        refine .inl ?_
        unfold readAnswer
        split <;> exact ih
    · exact .inr (((Touches.later (.single last) hs1)).heard ih)

end Store

/-! ### After a run -/

namespace Evaluation

/-- Every part waits: for tickets that satisfy `R` and slots that satisfy `P`, or beside a part that
has finished. -/
inductive Idle (R P : Nat → Prop) : {g : Goal} → Evaluation g → Prop where
  | parked {slot : Nat} (h : P slot) : Idle R P (.parked slot)
  | awaiting {g : Goal} {ticket : Nat} (h : R ticket) : Idle R P (.awaiting (g := g) ticket)
  | one {g h : Goal} {part : Evaluation g} (frame : Frame g h) (inner : Idle R P part) :
      Idle R P (.one part frame)
  | both {g h : Goal} {left right : Evaluation g} (join : Join g h) (first : Idle R P left)
      (second : Idle R P right) : Idle R P (.both left right join)
  | bothLeft {g h : Goal} {left : Evaluation g} (join : Join g h) (first : Idle R P left)
      (b : g.Result) : Idle R P (.both left (.done b) join)
  | bothRight {g h : Goal} {right : Evaluation g} (join : Join g h) (a : g.Result)
      (second : Idle R P right) : Idle R P (.both (.done a) right join)
  | race {left right : Evaluation .outcome} (first : Idle R P left) (second : Idle R P right) :
      Idle R P (.race left right)
  | raceLeft {left : Evaluation .outcome} {b : Outcome} (first : Idle R P left)
      (sound : b ≠ .fail) : Idle R P (.race left (.done b))
  | raceRight {right : Evaluation .outcome} {a : Outcome} (sound : a ≠ .fail)
      (second : Idle R P right) : Idle R P (.race (.done a) right)

/-- Only the tickets that the evaluation waits for matter. -/
lemma Idle.mono {R R' P P' : Nat → Prop} (h : e.Idle R P) (hR : ∀ t ∈ e.awaits, R t → R' t)
    (hP : ∀ slot, P slot → P' slot) : e.Idle R' P' := by
  induction h with
  | parked h => exact .parked (hP _ h)
  | awaiting h => exact .awaiting (hR _ rfl h)
  | one frame _ ih => exact .one frame (ih hR)
  | both join _ _ ih1 ih2 =>
    exact .both join (ih1 fun t ht => hR t (.inl ht)) (ih2 fun t ht => hR t (.inr ht))
  | bothLeft join _ b ih => exact .bothLeft join (ih fun t ht => hR t (.inl ht)) b
  | bothRight join a _ ih => exact .bothRight join a (ih fun t ht => hR t (.inr ht))
  | race _ _ ih1 ih2 =>
    exact .race (ih1 fun t ht => hR t (.inl ht)) (ih2 fun t ht => hR t (.inr ht))
  | raceLeft _ sound ih => exact .raceLeft (ih fun t ht => hR t (.inl ht)) sound
  | raceRight sound _ ih => exact .raceRight sound (ih fun t ht => hR t (.inr ht))

end Evaluation

namespace Agenda

/-- Only pieces in `ts` are read; what is waited for afterwards was waited for before or is new. -/
structure Reads (a : Agenda) (ts : Set Nat) (a' : Agenda) (ts' : Set Nat) : Prop where
  count : a.pieces.size ≤ a'.pieces.size
  slip : ∀ t < a.pieces.size, t ∉ ts → a'.slip t = a.slip t
  source : ∀ t ∈ ts', t ∈ ts ∨ a.pieces.size ≤ t ∧ t < a'.pieces.size

namespace Reads

variable {a1 : Agenda} {ts ts1 ts' us us' : Set Nat}

lemma refl (a : Agenda) (ts : Set Nat) : Reads a ts a ts :=
  ⟨le_rfl, fun _ _ _ => rfl, fun _ ht => .inl ht⟩

lemma trans (h1 : Reads a ts a1 ts1) (h2 : Reads a1 ts1 a' ts') : Reads a ts a' ts' where
  count := h1.count.trans h2.count
  slip t ht hts := by
    have hts1 : t ∉ ts1 := fun h => (h1.source t h).elim hts fun hge => Nat.not_le_of_lt ht hge.1
    rw [h2.slip t (lt_of_lt_of_le ht h1.count) hts1, h1.slip t ht hts]
  source t ht := by
    rcases h2.source t ht with h | ⟨hge, hlt⟩
    · exact (h1.source t h).imp id fun ⟨hge, hlt⟩ => ⟨hge, lt_of_lt_of_le hlt h2.count⟩
    · exact .inr ⟨h1.count.trans hge, hlt⟩

lemma add (h : Reads a ts a' ts') (us : Set Nat) : Reads a (ts ∪ us) a' (ts' ∪ us) where
  count := h.count
  slip t ht hts := h.slip t ht fun hin => hts (.inl hin)
  source t ht := by
    rcases ht with ht | ht
    · exact (h.source t ht).imp .inl id
    · exact .inl (.inr ht)

/-- One after the other, side by side. -/
lemma beside (h1 : Reads a ts a1 ts') (h2 : Reads a1 us a' us') :
    Reads a (ts ∪ us) a' (ts' ∪ us') := by
  have hsecond := h2.add ts'
  rw [Set.union_comm us, Set.union_comm us'] at hsecond
  exact (h1.add us).trans hsecond

lemma drop (h : Reads a ts a' ts') : Reads a ts a' ∅ :=
  ⟨h.count, h.slip, fun _ ht => ht.elim⟩

end Reads

lemma reads_read (a : Agenda) (ticket : Nat) (who : Waiter) :
    Reads a {ticket} (a.read ticket who) {ticket} :=
  ⟨by simp [read], fun t _ ht => slip_read_of_ne _ _ fun h => ht h.symm, fun _ ht => .inl ht⟩

/-- The piece has not answered, and tells `who` when it does. -/
def Registered (who : Waiter) (a : Agenda) (t : Nat) : Prop :=
  ∃ w, a.slip t = some (w, .pending (some who))

/-- Who finds no answer waits for it. -/
lemma registered_read (ht : t < a.pieces.size) (hnone : (match a.slip t with
      | some (_, .given answer) => some answer
      | _ => none) = none) : (a.read t who).Registered who t := by
  have hslip : a.slip t = some (a.pieces[t].work, a.pieces[t].reply) := by
    simp [slip, getElem?_eq_getElem ht]
  refine ⟨a.pieces[t].work, ?_⟩
  rw [slip_read, hslip]
  rw [hslip] at hnone
  cases hr : a.pieces[t].reply with
  | given answer => simp [hr] at hnone
  | _ => simp

lemma Registered.stir {task : Nat} (h : a.Registered who t) (hs : Stir task who a a') :
    a'.Registered who t := by
  obtain ⟨w, hw⟩ := h
  cases hs with
  | told _ w' => exact ⟨w, by rw [slip_told, hw]⟩
  | detach _ job =>
    have ht : t < a.pieces.size := by
      by_contra hge
      simp [slip, Array.getElem?_eq_none (Nat.le_of_not_lt hge)] at hw
    exact ⟨w, by rw [slip_detach_of_lt _ _ ht, hw]⟩
  | read _ ticket =>
    by_cases ht : ticket = t
    · subst ht
      exact ⟨w, by rw [slip_read, hw]; rfl⟩
    · exact ⟨w, by rw [slip_read_of_ne _ _ ht, hw]⟩

lemma Registered.stirs {task : Nat} (h : a.Registered who t)
    (hs : Relation.ReflTransGen (Stir task who) a a') : a'.Registered who t := by
  induction hs with
  | refl => exact h
  | tail _ last ih => exact ih.stir last

end Agenda

/-- A step waits for new pieces only. -/
lemma Sprouts.reads {task : Nat} {f : Evaluation g} {c : Core} (h : Sprouts task s e s' f c) :
    (s.agenda task).Reads ∅ (s'.agenda task) e.awaits :=
  ⟨h.count, fun t ht _ => h.slip t ht, fun _ ht => .inr (h.unfolds.awaits_subset ht)⟩

namespace Evaluation

variable {cx : Context} {s1 : Store} {e' : Evaluation g} {log : List Request} {strict : Prop}

/-- After a run by `who`, an evaluation has finished, or it waits, or `who` was told something
meanwhile. With `strict`, slots count, too. -/
def Rests (strict : Prop) (cx : Context) (who : Waiter) {g : Goal} (e : Evaluation g) (s : Store) :
    Prop :=
  (∃ r, e = .done r) ∨
    e.Idle ((s.agenda cx.task).Registered who) (fun slot => strict → s.heap.Moored who slot) ∨
    (s.agenda cx.task).Heard who

/-- An evaluation at rest that has not finished and was told nothing waits for an answer or a
slot. -/
lemma Rests.idle (h : e.Rests strict cx who s) (waits : e.Waits)
    (unheard : ¬ (s.agenda cx.task).Heard who) : e.Idle ((s.agenda cx.task).Registered who)
      fun slot => strict → s.heap.Moored who slot := by
  rcases h with ⟨r, rfl⟩ | hidle | heard
  · exact absurd waits (not_waits_done r)
  · exact hidle
  · exact absurd heard unheard

/-- Rest is kept by what else `who` runs. -/
lemma Rests.one {part : Evaluation g} {h : Goal} (frame : Frame g h)
    (rests : part.Rests strict cx who s) (waits : part.Waits) :
    (one part frame).Rests strict cx who s := by
  rcases rests with ⟨r, rfl⟩ | idle | heard
  · exact absurd waits (not_waits_done r)
  · exact .inr (.inl (.one frame idle))
  · exact .inr (.inr heard)

/-- Two parts are at rest together, unless both have finished. -/
lemma Rests.both {left right : Evaluation g} {h : Goal} (join : Join g h)
    (first : left.Rests strict cx who s) (second : right.Rests strict cx who s)
    (waits : left.Waits ∨ right.Waits) : (both left right join).Rests strict cx who s := by
  rcases first with ⟨a, rfl⟩ | hleft | heard
  · rcases second with ⟨b, rfl⟩ | hright | heard
    · exact waits.elim (absurd · (not_waits_done a)) (absurd · (not_waits_done b))
    · exact .inr (.inl (.bothRight join a hright))
    · exact .inr (.inr heard)
  · rcases second with ⟨b, rfl⟩ | hright | heard
    · exact .inr (.inl (.bothLeft join hleft b))
    · exact .inr (.inl (.both join hleft hright))
    · exact .inr (.inr heard)
  · exact .inr (.inr heard)

/-- A race is at rest with its two parts, unless both have finished or one of them has failed. -/
lemma Rests.race {left right : Evaluation .outcome} (first : left.Rests strict cx who s)
    (second : right.Rests strict cx who s) (waits : left.Waits ∨ right.Waits)
    (soundLeft : left ≠ .done .fail) (soundRight : right ≠ .done .fail) :
    (race left right).Rests strict cx who s := by
  rcases first with ⟨a, rfl⟩ | hleft | heard
  · rcases second with ⟨b, rfl⟩ | hright | heard
    · exact waits.elim (absurd · (not_waits_done a)) (absurd · (not_waits_done b))
    · exact .inr (.inl (.raceRight (fun ha => soundLeft (by rw [ha])) hright))
    · exact .inr (.inr heard)
  · rcases second with ⟨b, rfl⟩ | hright | heard
    · exact .inr (.inl (.raceLeft hleft fun hb => soundRight (by rw [hb])))
    · exact .inr (.inl (.race hleft hright))
    · exact .inr (.inr heard)
  · exact .inr (.inr heard)

lemma Rests.keep (h : e.Rests strict cx who s) (touches : Touches cx who s s')
    (hs : cx.task < s.agendas.size) (hl : (s.agenda cx.task).Listens cx.task who) :
    e.Rests strict cx who s' := by
  rcases h with h | h | h
  · exact .inl h
  · by_cases hheard : (s'.agenda cx.task).Heard who
    · exact .inr (.inr hheard)
    · refine .inr (.inl (h.mono (fun t _ ht => ht.stirs (touches.agenda hs)) ?_))
      intro slot hslot hstrict
      exact (touches.moored hs hl (hslot hstrict)).resolve_right hheard
  · exact .inr (.inr ((touches.later hs).heard h))

/-- The slots that an evaluation waits for exist, if this counts, and no sequence still holds a
right half that has failed. -/
def Sits (strict : Prop) {g : Goal} (e : Evaluation g) (s : Store) : Prop :=
  e.Fit fun slot => strict → slot < s.heap.slots.size

lemma Sits.keep (h : e.Sits strict s) (touches : Touches cx who s s') : e.Sits strict s' :=
  Fit.mono (fun _ hb hstrict => lt_of_lt_of_le (hb hstrict) touches.retains.slots) h

/-- A step reads the answers of those pieces only that it waits for. -/
lemma reads_closed (cx : Context) (who : Waiter) :
    Closed cx who fun e s _ e' s' => cx.task < s.agendas.size → cx.task < s'.agendas.size ∧
      (s.agenda cx.task).Reads e.awaits (s'.agenda cx.task) e'.awaits where
  refl e s := fun hs => ⟨hs, .refl _ _⟩
  trans first second := by
    intro hs
    obtain ⟨hs1, h1⟩ := first hs
    exact ⟨(second hs1).1, h1.trans (second hs1).2⟩
  start job s := fun hs =>
    ⟨by rwa [(job.begin_sprouts cx s hs).size], (job.begin_sprouts cx s hs).reads⟩
  read bound := fun hs => ⟨hs, .refl _ _⟩
  park unbound := fun hs => ⟨hs, .refl _ _⟩
  answer {g ticket s s' a} given := by
    refine fun hs => ⟨by rwa [size_of_readAnswer given], ?_⟩
    have ha' := s.agenda_readAnswer ticket who hs
    rw [given] at ha'
    rw [ha']
    exact (reads_read _ ticket who).drop
  await {g ticket s s'} pending := by
    refine fun hs => ⟨by rwa [size_of_readAnswer pending], ?_⟩
    have ha' := s.agenda_readAnswer ticket who hs
    rw [pending] at ha'
    rw [ha']
    exact reads_read _ ticket who
  resume frame r s := fun hs =>
    ⟨by rwa [(frame.resume_sprouts cx s hs r).size], (frame.resume_sprouts cx s hs r).reads⟩
  join join a b s := by
    refine fun hs => ⟨by rwa [(join.resume_sprouts cx s a b).size], ?_⟩
    exact (Reads.refl _ _).drop.trans (join.resume_sprouts cx s a b).reads
  merge a b s := by
    refine fun hs => ⟨by rwa [(a.join_sprouts cx s b).size], ?_⟩
    exact (Reads.refl _ _).drop.trans (a.join_sprouts cx s b).reads
  failLeft right s := fun hs => ⟨hs, (Reads.refl _ _).drop⟩
  failRight left s := fun hs => ⟨hs, (Reads.refl _ _).drop⟩
  one frame part := part
  bothLeft right join left := fun hs => ⟨(left hs).1, (left hs).2.add _⟩
  bothRight left join right := fun hs => ⟨(right hs).1, (Reads.refl _ _).beside (right hs).2⟩
  raceLeft right left := fun hs => ⟨(left hs).1, (left hs).2.add _⟩
  raceRight left right := fun hs => ⟨(right hs).1, (Reads.refl _ _).beside (right hs).2⟩

/-- A run reads the answers of those pieces only that it waits for, and then waits for these or for
new ones. -/
lemma Run.reads (h : Run cx who e s log e' s') (hs : cx.task < s.agendas.size) :
    (s.agenda cx.task).Reads e.awaits (s'.agenda cx.task) e'.awaits :=
  (h.closed (reads_closed cx who) hs).2

/-- What `who` needs to run an evaluation. -/
structure Poised (strict : Prop) (cx : Context) (who : Waiter) {g : Goal} (e : Evaluation g)
    (s : Store) : Prop where
  size : cx.task < s.agendas.size
  listens : (s.agenda cx.task).Listens cx.task who
  sound : strict → s.heap.Sound
  sits : e.Sits strict s
  awaits : ∀ t ∈ e.awaits, t < (s.agenda cx.task).pieces.size

namespace Poised

variable {h : Goal} {f : Evaluation h}

/-- Going on with another evaluation. -/
lemma move (hp : e.Poised strict cx who s) (touches : Touches cx who s s')
    (sits : f.Sits strict s') (awaits : ∀ t ∈ f.awaits, t < (s'.agenda cx.task).pieces.size) :
    f.Poised strict cx who s' where
  size := by
    rw [touches.size_agendas]
    exact hp.size
  listens := (touches.later hp.size).listens hp.listens
  sound hstrict := touches.retains.sound (hp.sound hstrict)
  sits := sits
  awaits := awaits

/-- What waits beside a run is still poised after it. -/
lemma keep (hp : e.Poised strict cx who s) (touches : Touches cx who s s') :
    e.Poised strict cx who s' :=
  hp.move touches (hp.sits.keep touches) fun t ht =>
    lt_of_lt_of_le (hp.awaits t ht) (touches.later hp.size).count

lemma part {part : Evaluation g} {frame : Frame g h}
    (hp : (one part frame).Poised strict cx who s) : part.Poised strict cx who s :=
  ⟨hp.size, hp.listens, hp.sound, hp.sits, hp.awaits⟩

lemma parts {left right : Evaluation g} {join : Join g h}
    (hp : (both left right join).Poised strict cx who s) :
    left.Poised strict cx who s ∧ right.Poised strict cx who s :=
  ⟨⟨hp.size, hp.listens, hp.sound, hp.sits.1, fun t ht => hp.awaits t (.inl ht)⟩,
    ⟨hp.size, hp.listens, hp.sound, hp.sits.2, fun t ht => hp.awaits t (.inr ht)⟩⟩

lemma halves {left right : Evaluation .outcome} (hp : (race left right).Poised strict cx who s) :
    left.Poised strict cx who s ∧ right.Poised strict cx who s ∧ right ≠ .done .fail :=
  ⟨⟨hp.size, hp.listens, hp.sound, hp.sits.1, fun t ht => hp.awaits t (.inl ht)⟩,
    ⟨hp.size, hp.listens, hp.sound, hp.sits.2.1, fun t ht => hp.awaits t (.inr ht)⟩, hp.sits.2.2⟩

end Poised

/-- After a run, what is waited for is on the agenda. -/
lemma Poised.run (hp : e.Poised strict cx who s) (h : Run cx who e s log e' s')
    (sits : e'.Sits strict s') : e'.Poised strict cx who s' := by
  refine hp.move h.touches sits fun t ht => ?_
  have hreads := h.reads hp.size
  rcases hreads.source t ht with hin | hnew
  · exact lt_of_lt_of_le (hp.awaits t hin) hreads.count
  · exact hnew.2

/-- A step that begins or goes on leaves an evaluation that can be run. -/
lemma Poised.step {h : Goal} {f f' : Evaluation h} {c : Core} (hp : e.Poised strict cx who s)
    (touches : Touches cx who s s')
    (buds : Buds (fun slot => strict → slot < s'.heap.slots.size) cx.task s f s' f' c) :
    f.Poised strict cx who s' :=
  hp.move touches buds.fit fun _ ht => (buds.unfolds.awaits_subset ht).2

/-- After a run, an evaluation is well-formed and rests. -/
theorem Run.rests (h : Run cx who e s log e' s') :
    e.Poised strict cx who s → e'.Sits strict s' ∧ e'.Rests strict cx who s' := by
  induction h with
  | done r s => exact fun hp => ⟨hp.sits, .inl ⟨r, rfl⟩⟩
  | @start g job e e' s s1 s' log begun _ ih =>
    intro hp
    have htouch := (job.begin_trail cx who s).touches
    have hbuds := job.begin_buds cx s hp.size (B := fun slot => strict →
      slot < (job.begin cx s).2.heap.slots.size) fun _ _ _ hlookup hstrict =>
        lt_of_lt_of_le ((hp.sound hstrict).lookup hlookup) htouch.retains.slots
    rw [begun] at htouch hbuds
    exact ih (hp.step htouch hbuds)
  | read | answer | raceLeftFails | raceRightFails => exact fun _ => ⟨trivial, .inl ⟨_, rfl⟩⟩
  | @park slot s unbound =>
    intro hp
    refine ⟨fun hstrict => ?_,
      .inr (.inl (.parked fun hstrict => Heap.moored_park (hp.sits hstrict) unbound))⟩
    simp only [(s.heap.park_shape slot who).1]
    exact hp.sits hstrict
  | @await g ticket s s' pending =>
    intro hp
    refine ⟨trivial, .inr (.inl (.awaiting ?_))⟩
    have ha' := s.agenda_readAnswer ticket who hp.size
    have hnone := s.readAnswer_fst cx.task ticket who
    rw [pending] at ha' hnone
    rw [ha']
    exact registered_read (hp.awaits ticket rfl) hnone.symm
  | @one g h part frame r e e' s s1 s2 s' log log' finished resumed _ ih1 ih2 =>
    intro hp
    have hp1 := hp.part.run finished (ih1 hp.part).1
    have htouch := (frame.resume_trail cx who s1 r).touches
    have hbuds := frame.resume_buds cx s1 hp1.size r (B := fun slot => strict →
      slot < (frame.resume r cx s1).2.heap.slots.size)
    rw [resumed] at htouch hbuds
    exact ih2 (hp1.step htouch hbuds)
  | @oneWaits g h part part' frame s s' log _ waits ih =>
    intro hp
    obtain ⟨hsits, hrests⟩ := ih hp.part
    exact ⟨hsits, hrests.one frame waits⟩
  | @both g h left right join a b e e' s s1 s2 s3 s' log log' log'' first second
    resumed _ _ ih2 ih3 =>
    intro hp
    have hr := hp.parts.2.keep first.touches
    have htouch := (join.resume_trail cx who s2 a b).touches
    have hbuds := join.resume_buds cx s2 a b (B := fun slot => strict →
      slot < (join.resume a b cx s2).2.heap.slots.size)
    rw [resumed] at htouch hbuds
    exact ih3 ((hr.run second (ih2 hr).1).step htouch hbuds)
  | bothWait first second waits ih1 ih2 =>
    intro hp
    obtain ⟨hl, hr⟩ := hp.parts
    obtain ⟨hsits, hrests⟩ := ih1 hl
    obtain ⟨hsits', hright⟩ := ih2 (hr.keep first.touches)
    have hl1 := hl.run first hsits
    have hleft := hrests.keep second.touches hl1.size hl1.listens
    exact ⟨⟨hsits.keep second.touches, hsits'⟩, hleft.both _ hright waits⟩
  | @race _ _ _ a b _ _ s2 _ _ _ _ _ _ joined _ _
  | @raceAgain _ _ _ _ a b _ _ _ s2 _ _ _ _ _ _ _ _ _ _ joined _ _ _ =>
    intro _
    obtain ⟨o, ho⟩ := a.join_done cx s2 b
    rw [joined] at ho
    cases ho
    exact ⟨trivial, .inl ⟨o, rfl⟩⟩
  | raceRightWaits first sound second waits ih1 ih2 =>
    intro hp
    obtain ⟨hl, hr, _⟩ := hp.halves
    obtain ⟨hsits, hrests⟩ := ih1 hl
    obtain ⟨hsits', hright⟩ := ih2 (hr.keep first.touches)
    have hl1 := hl.run first hsits
    have hleft := hrests.keep second.touches hl1.size hl1.listens
    have hsound := ne_fail_of_waits waits
    exact ⟨⟨hsits.keep second.touches, hsits', hsound⟩, hleft.race hright (.inr waits) sound hsound⟩
  | raceLeftWaits _ waits ih =>
    intro hp
    obtain ⟨hl, _, hsound⟩ := hp.halves
    obtain ⟨hsits, hrests⟩ := ih hl
    exact ⟨⟨hsits, trivial, hsound⟩,
      hrests.race (.inl ⟨_, rfl⟩) (.inl waits) (ne_fail_of_waits waits) hsound⟩
  | @raceWaitsAgain left left' left'' right b s s1 s2 s' log log' log'' first _ _
    second sound _ waits
      ih1 _ ih3 =>
    intro hp
    obtain ⟨hl, _, _⟩ := hp.halves
    obtain ⟨hsits, hrests⟩ := ih3 ((hl.run first (ih1 hl).1).keep second.touches)
    have hsound : (.done b : Evaluation .outcome) ≠ .done .fail := fun h => sound (by cases h; rfl)
    exact ⟨⟨hsits, trivial, hsound⟩,
      hrests.race (.inl ⟨b, rfl⟩) (.inl waits) (ne_fail_of_waits waits) hsound⟩

end Evaluation

end Troupe
