import Troupe.Proofs.Footprint

/-!
What a run of a task does to the store, move by move.

An evaluation of the task touches something, or the agenda of the task changes. With the latter,
parts of the task may be told something, and those who wait for the answers of its pieces.

* `Task.Poll.course`: a run of a task is a series of moves; `Task.Poll.transactions`.
* `Store.course_close`: so is the end of a task.
-/

namespace Troupe

namespace Agenda

/-- The waiter is told when a piece has an answer. -/
def Awaited (a : Agenda) (who : Waiter) : Prop :=
  ∃ (ticket : Nat) (p : Piece), a.pieces[ticket]? = some p ∧ p.reply = .pending (some who)

/-- The agenda is still that of the same task, and no one else waits for its answers. -/
structure Akin (a a' : Agenda) : Prop where
  actor : a'.actor = a.actor
  muted : a'.muted = a.muted
  awaited : ∀ who, a'.Awaited who → a.Awaited who

lemma Akin.refl (a : Agenda) : a.Akin a := ⟨rfl, rfl, fun _ => id⟩

lemma Akin.trans {a b c : Agenda} (h : a.Akin b) (h' : b.Akin c) : a.Akin c :=
  ⟨h'.actor.trans h.actor, h'.muted.trans h.muted, fun who hw => h.awaited who (h'.awaited who hw)⟩

/-- A piece changes, and no one new waits for its answer. -/
lemma Akin.modify (a : Agenda) (ticket : Nat) (f : Piece → Piece)
    (reply : ∀ p who, (f p).reply = .pending (some who) → p.reply = .pending (some who))
    (members links : Nat) (ready : Fifo Nat) :
    a.Akin { a with pieces := a.pieces.modify ticket f, members, links, ready } := by
  refine ⟨rfl, rfl, ?_⟩
  rintro who ⟨t, p, hp, hreply⟩
  rw [Array.getElem?_modify] at hp
  split at hp
  · obtain ⟨q, hq, rfl⟩ := Option.map_eq_some_iff.1 hp
    exact ⟨t, q, hq, reply q who hreply⟩
  · exact ⟨t, p, hp, hreply⟩

end Agenda

namespace Store

/-- One move of a task. -/
inductive Move (cx : Context) : Store → Store → Prop where
  | touch {who : Waiter} {s s' : Store} (own : who.Of cx.task)
      (touch : Touch cx who s s') : Move cx s s'
  /-- The agenda changes, and some are told. -/
  | stir (s : Store) {f : Agenda → Agenda} (ws : List Waiter) (akin : ∀ a : Agenda, a.Akin (f a))
      (heard : ∀ who ∈ ws, who.Of cx.task ∨ (s.agenda cx.task).Awaited who) :
      Move cx s (ws.foldl wake (s.modifyAgenda cx.task f))

/-- A series of moves. -/
abbrev Moves (cx : Context) : Store → Store → Prop := Relation.ReflTransGen (Move cx)

/-- A series of moves, with all that is asked of the transaction on the way. -/
abbrev Course (cx : Context) : Store → List Request → Store → Prop := Trail cx (Move cx)

variable {cx : Context} {who : Waiter} {s s1 s' : Store} {log : List Request} {ticket : Nat}

lemma Traces.course (h : Traces cx who s log s') (own : who.Of cx.task) : Course cx s log s' :=
  h.mono fun _ _ => Move.touch own

lemma course_stir (s : Store) {f : Agenda → Agenda} (ws : List Waiter)
    (akin : ∀ a : Agenda, a.Akin (f a))
    (heard : ∀ who ∈ ws, who.Of cx.task ∨ (s.agenda cx.task).Awaited who) :
    Course cx s [] (ws.foldl wake (s.modifyAgenda cx.task f)) :=
  .single (.stir s ws akin heard) (transactions_wakeAll ..)

lemma course_modifyAgenda (s : Store) {f : Agenda → Agenda} (akin : ∀ a : Agenda, a.Akin (f a)) :
    Course cx s [] (s.modifyAgenda cx.task f) :=
  course_stir s [] akin (by simp)

/-- A piece changes, but not who waits for its answer, and some are told. -/
lemma course_modifyPiece (s : Store) {f : Piece → Piece} (reply : ∀ p, (f p).reply = p.reply)
    (ws : List Waiter) (own : ∀ who ∈ ws, who.Of cx.task) :
    Course cx s [] (ws.foldl wake (s.modifyPiece cx.task ticket f)) :=
  course_stir s ws (fun a => .modify a ticket f (fun p _ h => reply p ▸ h) ..)
    fun who hwho => .inl (own who hwho)

lemma course_take {w : Option Work} (popped : s.nextReady cx.task = (some ticket, s1))
    (taken : s1.takeWork cx.task ticket = (w, s')) : Course cx s [] s' := by
  obtain ⟨ready, -, rfl⟩ := nextReady_some popped
  refine (course_modifyAgenda s (f := fun a => { a with ready }) fun _ =>
    ⟨rfl, rfl, fun _ => id⟩).trans ?_
  cases w with
  | none =>
    obtain ⟨rfl, -⟩ := takeWork_none taken
    exact .refl _
  | some w =>
    obtain ⟨p, -, -, rfl⟩ := takeWork_some taken
    exact course_modifyPiece _ (by simp) [] (by simp)

/-- Whoever waits for the answer is told. -/
lemma course_finish (s : Store) (ticket : Nat) (answer : Answer) :
    Course cx s [] (s.finish cx.task ticket answer) := by
  rw [finish_eq]
  exact course_stir s _ (fun a => .modify a ticket _ (by simp) ..) fun who hwho =>
    .inr ⟨ticket, Agenda.reply_of_reader? hwho⟩

lemma course_enlist (s : Store) : Course cx s [] (s.enlist cx.task) := by
  have hall : ∀ (tickets : List Nat) (a : Agenda), a.Akin (tickets.foldl Agenda.enroll a) := by
    intro tickets
    induction tickets with
    | nil => exact .refl
    | cons ticket tickets ih => exact fun a => .trans (.modify a ticket _ (by simp) ..) (ih _)
  exact course_modifyAgenda s fun a => ⟨(hall _ _).actor, (hall _ _).muted, (hall _ _).awaited⟩

lemma course_dropPiece (s : Store) (ticket : Nat) : Course cx s []
    (dropPiece cx.task s ticket) := by
  unfold dropPiece
  dsimp only
  split
  · rename_i reader _
    split
    · exact course_modifyPiece s (by simp) [.piece cx.task reader] (by simp [Waiter.Of])
    · exact course_modifyPiece s (by simp) [] (by simp)
  · exact course_modifyPiece s (by simp) [] (by simp)

lemma course_close (s : Store) : Course cx s [] (s.close cx.task) := by
  have hdrop : ∀ (order : List (Nat × Nat)) (s : Store),
      Course cx s [] (order.foldl (fun s x => dropPiece cx.task s x.1) s) := by
    intro order
    induction order with
    | nil => exact .refl
    | cons x order ih => exact fun s => (course_dropPiece s x.1).trans (ih _)
  exact (hdrop _ s).trans (course_modifyAgenda _ fun _ => ⟨rfl, rfl, fun _ => id⟩)

end Store

namespace Task

variable {cx : Context} {g : Goal} {s s' : Store} {log : List Request}

open Store

lemma course_closed (cx : Context) :
    Closed cx fun (_ : Evaluation g) s log _ s' => Course cx s log s' where
  refl _ s := .refl s
  trans first second := first.trans second
  flag _ s _ _ := course_modifyAgenda s fun _ => ⟨rfl, rfl, fun _ => id⟩
  wake _ s := by
    have h : Course cx s [] _ := course_stir s (f := id) [.task cx.task] .refl (by simp [Waiter.Of])
    rwa [s.modifyAgenda_of_eq rfl] at h
  enlist _ s := course_enlist s
  skip popped idle := course_take popped idle
  finish popped taken run :=
    (course_take popped taken).trans ((run.trail.course rfl).mute (course_finish ..))
  back popped taken run _ := (course_take popped taken).trans ((run.trail.course rfl).mute
    (course_modifyAgenda _ fun a => .modify a _ _ (by simp) ..))
  main run := run.trail.course rfl

/-- A run of a task is a series of moves, and the log is what it asks for. -/
theorem Poll.course {t t' : Task g} (h : Poll t s log t' s') : Course t.context s log s' :=
  h.closed (course_closed t.context)

/-- The log of a run of a task is all that happens to transactions. -/
theorem Poll.transactions {t t' : Task g} (h : Poll t s log t' s') :
    s'.transactions = s.transactions.modify t.context.transaction (·.replay log) :=
  h.course.transactions

end Task

end Troupe
