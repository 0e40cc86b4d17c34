import Troupe.Proofs.Mailbox

/-!
Addresses are handed out once, and actors are registered once.

A scheduler hands out addresses in order, from a counter. As long as actors are only registered
under addresses that were handed out before (`Act.Earned`), no one is registered above the counter,
so a new actor never takes the place of another: the registry is what its acts have written down,
line by line (`Act.book`).

* `Scheduler.Steps.issued`: the books of every run of a scheduler.
-/

namespace Troupe

open List Nat Prod

namespace IdSource

lemma mem_addresses {ids : IdSource} {id : ActorId} :
    id ∈ ids.addresses ↔ 0 < id.raw ∧ id.raw ≤ ids.issued := by
  rw [addresses, mem_map]
  constructor
  · rintro ⟨n, hn, rfl⟩
    exact ⟨succ_pos n, mem_range.1 hn⟩
  · rintro ⟨hpos, hle⟩
    refine ⟨id.raw - 1, mem_range.2 (by omega), ?_⟩
    rw [Nat.sub_add_cancel hpos]

end IdSource

namespace Act

variable {M B : Type}

/-- The address under which an act registers an actor. -/
def entered : Act M B → List ActorId
  | created id _ => [id]
  | joined id _ => [id]
  | _ => []

/-- Actors join under addresses only that were handed out earlier. -/
def Earned (acts : List (Act M B)) : Prop :=
  ∀ before id entry after, acts = before ++ joined id entry :: after → id ∈ before.flatMap handedOut

lemma Earned.of_append {acts acts' : List (Act M B)} (h : Earned (acts ++ acts')) :
    Earned acts := by
  rintro before id entry after rfl
  exact h before id entry (after ++ acts') (by simp)

/-- If an actor joins in the act with some number, then under an address that was handed out
before. -/
def earnsAt (acts : List (Act M B)) (i : Nat) : Bool :=
  match acts[i]? with
  | some (joined id _) => ((acts.take i).flatMap handedOut).contains id
  | _ => true

lemma earned_iff {acts : List (Act M B)} :
    (∀ i < acts.length, earnsAt acts i = true) ↔ Earned acts := by
  constructor
  · rintro h before id entry after rfl
    simpa [earnsAt] using h before.length (by simp)
  · intro h i hi
    unfold earnsAt
    split
    · rename_i id entry hjoined
      obtain ⟨_, hget⟩ := List.getElem?_eq_some_iff.1 hjoined
      refine contains_iff_mem.2 (h (acts.take i) id entry (acts.drop (i + 1)) ?_)
      rw [← hget, ← drop_eq_getElem_cons hi, take_append_drop]
    · rfl

instance (acts : List (Act M B)) : Decidable (Earned acts) := decidable_of_iff _ earned_iff

lemma map_fst_book (registry : List (ActorId × Entry B)) (a : Act M B) :
    (book registry a).map fst = registry.map fst ++ a.entered := by
  cases a <;> simp [book, entered]

end Act

namespace Scheduler

variable {M B : Type} {s s' : Scheduler M B} {a : Act M B} {acts : List (Act M B)}

/-! ### What one step does -/

/-- An actor joins only under an address that is free. -/
lemma Step.free (h : s.Step a s') (bounded : ∀ id e, (id, e) ∈ s.registry → id.raw ≤ s.ids.issued)
    {id : ActorId} (hid : id ∈ a.entered) : id ∉ s.registry.map fst := by
  intro hin
  obtain ⟨⟨_, e⟩, he, rfl⟩ := mem_map.1 hin
  cases h with
  | createReserved granted =>
    cases mem_singleton.1 hid
    exact (createReserved_ok granted).1 e he
  | create b name =>
    cases mem_singleton.1 hid
    exact absurd (bounded _ e he) (not_succ_le_self _)
  | _ => exact absurd hid not_mem_nil

/-! ### The books of a run -/

/-- The books of addresses and actors: what was handed out, what the registry holds, that each actor
was registered once, and that no one is above the counter. -/
structure Issued (acts : List (Act M B)) (s : Scheduler M B) : Prop where
  addresses : acts.flatMap Act.handedOut = s.ids.addresses
  registry : s.registry = acts.foldl Act.book []
  entered : s.registry.map Prod.fst = acts.flatMap Act.entered
  once : (acts.flatMap Act.entered).Nodup
  bounded : ∀ id e, (id, e) ∈ s.registry → 0 < id.raw ∧ id.raw ≤ s.ids.issued

lemma Issued.start (settings : Settings) : Issued [] (ofSettings settings : Scheduler M B) :=
  ⟨rfl, rfl, rfl, nodup_nil, fun _ _ he => absurd he not_mem_nil⟩

/-- One more act, which registers no one under an address that was not handed out. -/
lemma Issued.step (h : s.Issued acts) (step : s.Step a s')
    (earned : ∀ id entry, a = .joined id entry → id ∈ acts.flatMap Act.handedOut) :
    s'.Issued (acts ++ [a]) := by
  have hbounded : ∀ id e, (id, e) ∈ s.registry → id.raw ≤ s.ids.issued :=
    fun id e he => (h.bounded id e he).2
  have haccount := step.account
  have hregistry := haccount.registry hbounded
  have haddresses : (acts ++ [a]).flatMap Act.handedOut = s'.ids.addresses := by
    rw [flatMap_append, flatMap_singleton, h.addresses, haccount.addresses]
  have hentered : s'.registry.map fst = (acts ++ [a]).flatMap Act.entered := by
    rw [hregistry, Act.map_fst_book, h.entered, flatMap_append, flatMap_singleton]
  refine ⟨haddresses, ?_, hentered, ?_, fun id e he => ?_⟩
  · rw [hregistry, h.registry, foldl_append]
    rfl
  · rw [flatMap_append, flatMap_singleton, nodup_append]
    refine ⟨h.once, by cases a <;> simp [Act.entered], fun id hid id' hid' heq => ?_⟩
    rw [← h.entered] at hid
    exact step.free hbounded hid' (heq ▸ hid)
  · -- an address that is taken was handed out, now or before
    have hin : id ∈ s.registry.map fst ++ a.entered := by
      rw [← Act.map_fst_book, ← hregistry]
      exact mem_map_of_mem he
    rw [← IdSource.mem_addresses, haccount.addresses, mem_append]
    rcases mem_append.1 hin with hold | hnew
    · obtain ⟨⟨_, e'⟩, he', rfl⟩ := mem_map.1 hold
      exact .inl (IdSource.mem_addresses.2 (h.bounded _ e' he'))
    · cases a with
      | created id' e' => exact .inr hnew
      | joined id' e' =>
        cases mem_singleton.1 hnew
        rw [← h.addresses]
        exact .inl (earned _ _ rfl)
      | _ => exact absurd hnew not_mem_nil

/-- The books of every run in which actors join only under addresses that were handed out. -/
theorem Steps.issued {settings : Settings} (h : (ofSettings settings : Scheduler M B).Steps acts s)
    (earned : Act.Earned acts) : s.Issued acts := by
  induction h with
  | refl => exact .start settings
  | @snoc acts a s s' _ step ih =>
    refine (ih earned.of_append).step step ?_
    rintro id entry rfl
    exact earned acts id entry [] rfl

/-- A new actor has an address that was free, and is the only one that is added. -/
lemma create_fresh (bounded : ∀ id e, (id, e) ∈ s.registry → id.raw ≤ s.ids.issued) (b : B)
    (name : String) :
    s.contains (s.create b name).1 = false ∧
      (s.create b name).2.registry = s.registry ++ [((s.create b name).1, ⟨name, b⟩)] := by
  have hfree : ∀ e, ((s.create b name).1, e) ∉ s.registry :=
    fun e he => absurd (bounded _ e he) (not_succ_le_self _)
  refine ⟨?_, enter_of_free hfree⟩
  rw [← Bool.not_eq_true, contains_eq_true_iff]
  exact fun ⟨e, he⟩ => hfree e he

end Scheduler

end Troupe
