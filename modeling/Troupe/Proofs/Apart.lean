import Mathlib.Order.Nat
import Troupe.Proofs.Moves

/-!
What a run of one task leaves alone.

Tasks share a store. While one of them runs, the others may be told something, because a variable
they wait for is bound; nothing else happens to them or to their transactions
(`Store.Elsewhere`), and no dictionary changes (`Store.Within`).

* `Task.Poll.within`: a run of a task stays within the task.
-/

namespace Troupe

open Array

variable {s s' : Store}

namespace Store

/-- What happens elsewhere: the transaction of a task is left alone, and the task, or pieces of it,
may be told something. -/
structure Elsewhere (cx : Context) (s s' : Store) : Prop where
  transaction : s'.transactions[cx.transaction]? = s.transactions[cx.transaction]?
  size : s.agendas.size ≤ s'.agendas.size
  told : cx.task < s.agendas.size → ∃ ws : List Waiter,
    s'.agenda cx.task = ws.foldl (Agenda.told cx.task) (s.agenda cx.task)

namespace Elsewhere

variable {cx : Context} {s1 : Store}

lemma refl (s : Store) : s.Elsewhere cx s := ⟨rfl, le_rfl, fun _ => ⟨[], rfl⟩⟩

lemma trans (h1 : s.Elsewhere cx s1) (h2 : s1.Elsewhere cx s') : s.Elsewhere cx s' where
  transaction := h2.transaction.trans h1.transaction
  size := h1.size.trans h2.size
  told hs := by
    obtain ⟨ws, hws⟩ := h1.told hs
    obtain ⟨ws', hws'⟩ := h2.told (Nat.lt_of_lt_of_le hs h1.size)
    exact ⟨ws ++ ws', by rw [hws', hws, List.foldl_append]⟩

/-- The transaction is still there. -/
lemma inside (h : s.Elsewhere cx s') (inside : cx.transaction < s.transactions.size) :
    cx.transaction < s'.transactions.size := by
  have hget := h.transaction
  rw [Array.getElem?_eq_getElem inside] at hget
  exact (Array.getElem?_eq_some_iff.1 hget).1

/-- A change that leaves transactions and agendas alone. -/
lemma of_eq (transactions : s'.transactions = s.transactions) (agendas : s'.agendas = s.agendas) :
    s.Elsewhere cx s' := by
  refine ⟨by rw [transactions], by rw [agendas], fun _ => ⟨[], ?_⟩⟩
  rw [agenda, agendas]
  rfl

lemma newTransaction (s : Store) (inside : cx.transaction < s.transactions.size) :
    s.Elsewhere cx s.newTransaction.2 :=
  ⟨getElem?_push_lt inside ▸ (getElem?_eq_getElem inside).symm, le_rfl,
    fun _ => ⟨[], rfl⟩⟩

lemma newAgenda (s : Store) (actor : ActorId) (muted : Bool) :
    s.Elsewhere cx (s.newAgenda actor muted).2 := by
  refine ⟨rfl, by simp [Store.newAgenda], fun hs => ⟨[], ?_⟩⟩
  simp [agenda, Store.newAgenda, getElem?_push, Nat.ne_of_lt hs]

lemma onTransaction {α : Type} (s : Store) {i : Nat} (f : Transaction → α × Transaction)
    (hne : i ≠ cx.transaction) : s.Elsewhere cx (s.onTransaction i f).2 := by
  refine ⟨?_, le_rfl, fun _ => ⟨[], rfl⟩⟩
  rw [transactions_onTransaction, getElem?_modify, if_neg hne]

end Elsewhere

/-- What a task does to the store beyond its own agenda and transaction: dictionaries stay as they
are, addresses are only handed out, and other tasks are only told something. -/
structure Within (cx : Context) (s s' : Store) : Prop where
  dicts : s'.heap.dicts = s.heap.dicts
  ids : s.ids.issued ≤ s'.ids.issued
  elsewhere : ∀ other : Context, other.task ≠ cx.task → other.transaction ≠ cx.transaction →
    s.Elsewhere other s'

namespace Within

variable {cx : Context} {who : Waiter} {s1 : Store}

lemma refl (s : Store) : s.Within cx s := ⟨rfl, le_rfl, fun _ _ _ => .refl s⟩

lemma trans (h1 : s.Within cx s1) (h2 : s1.Within cx s') : s.Within cx s' where
  dicts := h2.dicts.trans h1.dicts
  ids := h1.ids.trans h2.ids
  elsewhere other ht hi := (h1.elsewhere other ht hi).trans (h2.elsewhere other ht hi)

lemma modifyAgenda (s : Store) (f : Agenda → Agenda) : s.Within cx (s.modifyAgenda cx.task f) where
  dicts := rfl
  ids := le_rfl
  elsewhere other ht _ :=
    ⟨rfl, by rw [size_modifyAgenda], fun _ => ⟨[], s.agenda_modifyAgenda_of_ne f (Ne.symm ht)⟩⟩

lemma wakeAll (s : Store) (ws : List Waiter) : s.Within cx (ws.foldl wake s) where
  dicts := by rw [heap_wakeAll]
  ids := by rw [ids_wakeAll]
  elsewhere _ _ _ :=
    ⟨by rw [transactions_wakeAll], by rw [size_wakeAll], fun hs => ⟨ws, s.agenda_wakeAll ws hs⟩⟩

lemma touch (h : Touch cx who s s') : s.Within cx s' where
  dicts := Touches.dicts (.single h)
  ids := by
    cases h with
    | bind _ name v env => exact Nat.le_of_eq (by simp [bind])
    | reserve => exact Nat.le_succ _
    | read _ ticket => rw [readAnswer_eq]; exact le_rfl
    | _ => exact le_rfl
  elsewhere other ht hi := by
    refine ⟨?_, (Touches.size_agendas (.single h)).ge, fun hs => h.agenda_of_ne hs (Ne.symm ht)⟩
    cases h with
    | bind _ name v env => rw [transactions_bind]
    | request _ r => rw [transactions_onTransaction, getElem?_modify, if_neg (Ne.symm hi)]
    | read _ ticket => rw [transactions_readAnswer]
    | _ => rfl

lemma touches (h : Touches cx who s s') : s.Within cx s' := by
  induction h with
  | refl => exact .refl s
  | tail _ last ih => exact ih.trans (.touch last)

lemma moves (h : s.Moves cx s') : s.Within cx s' := by
  induction h with
  | refl => exact .refl s
  | tail _ last ih =>
    refine ih.trans ?_
    cases last with
    | touch _ touch => exact .touch touch
    | stir _ ws _ _ => exact (Within.modifyAgenda _ _).trans (.wakeAll _ ws)

lemma close (s : Store) : s.Within cx (s.close cx.task) := .moves (course_close s).steps

end Within

lemma dropPiece_frame (task : Nat) (s : Store) (ticket : Nat) :
    (dropPiece task s ticket).heap = s.heap ∧ (dropPiece task s ticket).ids = s.ids ∧
      (dropPiece task s ticket).transactions = s.transactions := by
  unfold dropPiece
  dsimp only
  split
  · rename_i reader _
    split
    · exact ⟨heap_wakeAll _ [.piece task reader], ids_wakeAll _ [.piece task reader],
        transactions_wakeAll _ [.piece task reader]⟩
    · exact ⟨rfl, rfl, rfl⟩
  · exact ⟨rfl, rfl, rfl⟩

lemma close_frame (s : Store) (task : Nat) :
    (s.close task).heap = s.heap ∧ (s.close task).ids = s.ids ∧
      (s.close task).transactions = s.transactions := by
  have hdrop : ∀ (order : List (Nat × Nat)) (s : Store),
      (order.foldl (fun s x => dropPiece task s x.1) s).heap = s.heap ∧
        (order.foldl (fun s x => dropPiece task s x.1) s).ids = s.ids ∧
        (order.foldl (fun s x => dropPiece task s x.1) s).transactions = s.transactions := by
    intro order
    induction order with
    | nil => exact fun _ => ⟨rfl, rfl, rfl⟩
    | cons x order ih =>
      intro s
      obtain ⟨h1, h2, h3⟩ := ih (dropPiece task s x.1)
      obtain ⟨k1, k2, k3⟩ := dropPiece_frame task s x.1
      exact ⟨h1.trans k1, h2.trans k2, h3.trans k3⟩
  exact hdrop _ s

end Store

namespace Task

variable {g : Goal} {log : List Request}

/-- A run of a task stays within the task. -/
theorem Poll.within {t t' : Task g} (h : Poll t s log t' s') : s.Within t.context s' :=
  .moves h.course.steps

end Task

end Troupe
