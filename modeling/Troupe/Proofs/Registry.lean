import Mathlib.Tactic.Common
import Troupe.Scheduler

/-!
Who is registered, and under which address.

* `Scheduler.find?_register`, `Scheduler.find?_setBehavior`: what each change of the registry means
  for looking an actor up.
* `Scheduler.enter_of_free`: an address that is not taken is put behind all others.
-/

namespace Troupe

open List

namespace Scheduler

variable {M B : Type}

lemma contains_eq_true_iff (s : Scheduler M B) (id : ActorId) :
    s.contains id = true ↔ ∃ e, (id, e) ∈ s.registry := by
  rw [contains, find?, lookup_isSome_iff]
  simp [Prod.exists]

/-- An address that is not taken is put behind all others. -/
lemma enter_of_free {id : ActorId} {e : Entry B} {registry : List (ActorId × Entry B)}
    (free : ∀ e', (id, e') ∉ registry) : enter id e registry = registry ++ [(id, e)] := by
  induction registry with
  | nil => rfl
  | cons x rest ih =>
    obtain ⟨id', e'⟩ := x
    have hne : id' ≠ id := by
      rintro rfl
      exact free e' (mem_cons_self ..)
    rw [enter, if_neg hne, ih fun e'' h => free e'' (mem_cons_of_mem _ h)]
    rfl

lemma contains_congr {s s' : Scheduler M B} (h : s'.registry = s.registry) (id : ActorId) :
    s'.contains id = s.contains id := by
  rw [contains, contains, find?, find?, h]

lemma lookup_enter (id id' : ActorId) (e : Entry B) (registry : List (ActorId × Entry B)) :
    (enter id e registry).lookup id' = if id' = id then some e else registry.lookup id' := by
  induction registry with
  | nil =>
    by_cases hid : id' = id
    · simp [enter, hid]
    · have hne : (id' == id) = false := by simpa using hid
      simp [enter, lookup_cons, hid, hne]
  | cons y rest ih =>
    obtain ⟨id1, e1⟩ := y
    unfold enter
    by_cases hfound : id1 = id
    · subst hfound
      rw [if_pos rfl, lookup_cons, lookup_cons]
      by_cases hid : id' = id1
      · simp [hid]
      · have hne : (id' == id1) = false := by simpa using hid
        simp [hid, hne]
    · rw [if_neg hfound, lookup_cons, lookup_cons, ih]
      by_cases hid : id' = id1
      · subst hid
        simp [hfound]
      · have hne : (id' == id1) = false := by simpa using hid
        simp [hne]

lemma find?_register (s : Scheduler M B) (id id' : ActorId) (b : B) (name : String) :
    (s.register id b name).find? id' = if id' = id then some ⟨name, b⟩ else s.find? id' :=
  lookup_enter id id' ⟨name, b⟩ s.registry

lemma find?_setBehavior (s : Scheduler M B) (id id' : ActorId) (b : B) :
    (s.setBehavior id b).find? id' =
      if id' = id then (s.find? id').map (fun e => { e with behavior := b }) else s.find? id' := by
  unfold setBehavior find?
  dsimp only
  induction s.registry with
  | nil => simp
  | cons y rest ih =>
    obtain ⟨id1, e1⟩ := y
    rw [map_cons, lookup_cons, lookup_cons, ih]
    by_cases hid : id' = id1
    · subst hid
      by_cases hsame : id' = id <;> simp [hsame]
    · have hne : (id' == id1) = false := by simpa using hid
      simp [hne]

end Scheduler

end Troupe
