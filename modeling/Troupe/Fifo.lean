/-!
First-in first-out queues, seen through the list of their elements (`Fifo.toList`, oldest first).

* `toList_push`, `toList_eq_cons_of_pop?`, `pop?_eq_none_iff`: what each operation does to that
  list.
-/

namespace Troupe

/-- A queue: the oldest elements in order, and the newest in reverse order. -/
structure Fifo (α : Type) where
  front : List α := []
  back : List α := []

namespace Fifo

variable {α : Type}

/-- The empty queue. -/
def empty : Fifo α := {}

/-- The elements, oldest first. -/
def toList (q : Fifo α) : List α := q.front ++ q.back.reverse

/-- Adds an element behind all others. -/
def push (q : Fifo α) (a : α) : Fifo α := { q with back := a :: q.back }

/-- The oldest element and the queue without it. -/
def pop? (q : Fifo α) : Option (α × Fifo α) :=
  match q.front with
  | a :: front => some (a, { q with front })
  | [] =>
    match q.back.reverse with
    | [] => none
    | a :: front => some (a, ⟨front, []⟩)

/-- The number of elements. -/
def size (q : Fifo α) : Nat := q.front.length + q.back.length

/-- No element is left. -/
def isEmpty (q : Fifo α) : Bool := q.front.isEmpty && q.back.isEmpty

@[simp] theorem toList_empty : (empty : Fifo α).toList = [] := rfl

@[simp] theorem toList_push (q : Fifo α) (a : α) : (q.push a).toList = q.toList ++ [a] := by
  simp [toList, push]

/-- What is popped stood in front. -/
theorem toList_eq_cons_of_pop? {q r : Fifo α} {a : α} (h : q.pop? = some (a, r)) :
    q.toList = a :: r.toList := by
  obtain ⟨front, back⟩ := q
  unfold pop? at h
  cases front with
  | cons b front =>
    simp only [Option.some.injEq, Prod.mk.injEq] at h
    obtain ⟨rfl, rfl⟩ := h
    rfl
  | nil =>
    cases hb : back.reverse with
    | nil => simp [hb] at h
    | cons b front =>
      simp only [hb, Option.some.injEq, Prod.mk.injEq] at h
      obtain ⟨rfl, rfl⟩ := h
      simp [toList, hb]

/-- Only an empty queue has nothing to pop. -/
theorem pop?_eq_none_iff {q : Fifo α} : q.pop? = none ↔ q.toList = [] := by
  constructor
  · intro h
    obtain ⟨front, back⟩ := q
    unfold pop? at h
    cases front with
    | cons b front => simp at h
    | nil =>
      cases hb : back.reverse with
      | nil => simp [toList, hb]
      | cons b front => simp [hb] at h
  · intro h
    cases hpop : q.pop? with
    | none => rfl
    | some x => exact absurd (h.symm.trans (toList_eq_cons_of_pop? hpop)) nofun

@[simp] theorem size_eq_length (q : Fifo α) : q.size = q.toList.length := by
  simp [size, toList]

end Fifo

end Troupe
