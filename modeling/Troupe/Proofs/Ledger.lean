import Troupe.Proofs.Failure

/-!
The addresses of new actors.

An address that was handed out is held by the tree that will stage an actor under it
(`Evaluation.reserved`) and then by the transaction (`Transaction.staged`). It is never copied: a
small step passes addresses on, adds the next one, or drops some (`Evaluation.Micro.passes`). So
what a task has staged is free of duplicates, and is its own.

* `Evaluation.Forest.holds`: what small steps leave held was held before, or is new.
* `Evaluation.Forest.keeps`: all that was held, and all that is new, is held after small steps,
  unless the transaction fails.
-/

namespace Troupe

open And Troupe.Core List Multiset Nat Request Store Transaction

/-- The addresses of the actors that a transaction has staged. -/
def Transaction.staged : Transaction → Multiset ActorId
  | .gathering e => ↑(e.created.toList.map (·.id))
  | .failed _ => 0

namespace Passed

variable {lost : Prop} {old mid new : Multiset ActorId}

lemma trans (h1 : Passed lost old mid) (h2 : Passed lost mid new) : Passed lost old new := by
  refine ⟨h2.1.trans h1.1, ?_⟩
  rcases h2.2 with rfl | h
  · exact h1.2
  · exact .inr h

lemma add (h : Passed lost old new) (rest : Multiset ActorId) : Passed lost
    (old + rest) (new + rest) :=
  ⟨add_le_add_left h.1 rest, h.2.imp_left fun h => by rw [h]⟩

end Passed

/-- A log stages its own actors, unless it fails. -/
lemma staged_replay (t : Transaction) (log : List Request) :
    Passed ((t.replay log).isFailed = true) (t.staged + stages log) (t.replay log).staged := by
  cases t with
  | failed x =>
    rw [replay_failed]
    exact ⟨zero_le _, .inr rfl⟩
  | gathering e =>
    rw [replay_gathering]
    cases firstException? log with
    | some x => exact ⟨zero_le _, .inr rfl⟩
    | none => exact .of_eq (by simp [staged, Effects.extend, stages])

namespace Passes

variable {lost : Prop} {ids ids' : IdSource} {old new : Multiset ActorId}

lemma weaken {lost' : Prop} (h : Passes lost ids old new ids') (hlost : lost → lost') :
    Passes lost' ids old new ids' :=
  h.imp (imp_right (imp_right (Or.imp_right hlost)))
    (imp_right (imp_right (Or.imp_right hlost)))

lemma trans {new' : Multiset ActorId} (h : Passes lost ids old new ids')
    (hnew : Passed lost new new') : Passes lost ids old new' ids' :=
  h.imp (imp_right (·.trans hnew)) (imp_right (·.trans hnew))

lemma add (h : Passes lost ids old new ids') (rest : Multiset ActorId) :
    Passes lost ids (old + rest) (new + rest) ids' := by
  refine h.imp (imp_right (·.add rest)) (imp_right fun hp => ?_)
  rw [← cons_add]
  exact hp.add rest

lemma congr {old' new' : Multiset ActorId} (h : Passes lost ids old new ids') (hold : old' = old)
    (hnew : new' = new) : Passes lost ids old' new' ids' := by
  rwa [hold, hnew]

end Passes

/-! ### Small steps -/

/-- The addresses that the actors of a transaction, and of several trees, have or will have. -/
def Core.held (cx : Context) (c : Core) (trees : List Work) : Multiset ActorId :=
  (c.store.transaction cx.transaction).staged + (trees.map fun w => w.evaluation.reserved).sum

namespace Evaluation

variable {cx : Context} {g : Goal} {f f' : Evaluation g} {c c' : Core} {ds : List Work}

/-- A step that replays requests. -/
lemma passes_of_replay {log : List Request} {e : Evaluation g} {s' : Store}
    (inside : cx.transaction < c.transactions.size)
    (replays : s'.transactions = c.transactions.modify cx.transaction (·.replay log))
    (h : Passes ((firstException? log).isSome = true) c.ids f.reserved
      (stages log + e.reserved) s'.ids) :
    Passes (s'.core.Failed cx) c.ids (c.held cx [⟨g, f⟩])
    (s'.core.held cx [⟨g, e.flat⟩]) s'.ids := by
  have hget : s'.core.store.transaction cx.transaction =
      (c.store.transaction cx.transaction).replay log :=
    transaction_of_replay replays inside
  have hfailed : (firstException? log).isSome = true → s'.core.Failed cx := by
    intro hlog
    rw [Core.Failed, hget]
    exact (isFailed_replay _ log).2 (.inr hlog)
  refine (((h.weaken hfailed).add (c.store.transaction cx.transaction).staged).congr
    ?_ rfl).trans ?_
  · simp [held, add_comm]
  · have hstaged := (staged_replay (c.store.transaction cx.transaction) log).add e.reserved
    rw [Core.Failed, held, hget]
    simp only [List.map_cons, List.map_nil, List.sum_cons, List.sum_nil, add_zero, reserved_flat]
    convert hstaged using 1
    ac_rfl

lemma passes_inside {h : Goal} {k k' : Evaluation h} {rest : Multiset ActorId}
    (hp : Passes (c'.Failed cx) c.ids (c.held cx [⟨g, f⟩]) (c'.held cx (⟨g, f'⟩ :: ds)) c'.ids)
    (before : k.reserved = f.reserved + rest) (after : k'.reserved = f'.reserved + rest) :
    Passes (c'.Failed cx) c.ids (c.held cx [⟨h, k⟩]) (c'.held cx (⟨h, k'⟩ :: ds)) c'.ids := by
  refine (hp.add rest).congr ?_ ?_
  · simp only [held, List.map_cons, List.map_nil, List.sum_cons, List.sum_nil, before]
    ac_rfl
  · simp only [held, List.map_cons, List.sum_cons, after]
    ac_rfl

/-- A small step passes addresses on; they are lost only if the transaction fails. -/
theorem Micro.passes (h : Micro cx f c f' ds c') :
    cx.transaction < c.transactions.size →
      Passes (c'.Failed cx) c.ids (c.held cx [⟨g, f⟩]) (c'.held cx (⟨g, f'⟩ :: ds)) c'.ids := by
  induction h with
  | start job c =>
    exact fun inside => passes_of_replay inside (job.begin_transactions cx c.store)
      (job.begin_honest cx c.store).passes
  | read bound => exact fun _ => .inl ⟨rfl, .of_eq rfl⟩
  | resume r frame c =>
    intro inside
    refine passes_of_replay inside (frame.resume_transactions cx c.store r) ?_
    exact (frame.resume_honest r cx c.store).passes.congr (add_zero _) rfl
  | join a b join c =>
    intro inside
    refine passes_of_replay inside (join.resume_transactions cx c.store a b) ?_
    exact (join.resume_honest a b cx c.store).passes.congr (add_zero _) rfl
  | merge a b c =>
    intro inside
    refine passes_of_replay inside (a.join_transactions cx c.store b) ?_
    exact (a.join_honest b cx c.store).passes.congr (add_zero _) rfl
  | failLeft | failRight =>
    intro _
    refine .inl ⟨rfl, .of_eq ?_⟩
    simp [held, reserved]
  | one frame _ ih | bothRight left join _ ih | raceRight left _ ih =>
    exact fun inside => passes_inside (ih inside) (add_comm _ _) (add_comm _ _)
  | bothLeft right join _ ih | raceLeft right _ ih =>
    exact fun inside => passes_inside (ih inside) rfl rfl

/-- A small step on one of several trees. -/
lemma Micro.passes_beside (h : Micro cx f c f' ds c') (before after : List Work)
    (inside : cx.transaction < c.transactions.size) :
    Passes (c'.Failed cx) c.ids (c.held cx (before ++ ⟨g, f⟩ :: after))
      (c'.held cx (before ++ ⟨g, f'⟩ :: (after ++ ds))) c'.ids := by
  refine ((h.passes inside).add ((before.map fun w => w.evaluation.reserved).sum +
    (after.map fun w => w.evaluation.reserved).sum)).congr ?_ ?_
  · simp only [held, List.map_append, List.map_cons, List.map_nil, List.sum_append, List.sum_cons,
      List.sum_nil]
    ac_rfl
  · simp only [held, List.map_append, List.map_cons, List.sum_append, List.sum_cons]
    ac_rfl

/-- What is held stays held, and what is handed out is held, unless the transaction fails. -/
lemma Forest.keeps {n : Nat} {trees trees' : List Work} (h : Forest cx n trees c trees' c') :
    cx.transaction < c.transactions.size →
      (c.Failed cx → c'.Failed cx) ∧ (¬ c'.Failed cx → c.held cx trees ≤ c'.held cx trees' ∧
        ∀ id : ActorId, c.ids.issued < id.raw → id.raw ≤ c'.ids.issued →
        id ∈ c'.held cx trees') := by
  induction h with
  | refl trees c =>
    exact fun _ => ⟨id, fun _ => ⟨le_rfl, fun _ hlt hle => absurd hle (Nat.not_le_of_lt hlt)⟩⟩
  | park slot who _ ih => exact ih
  | @step n before after trees' g f f' ds c c1 c' first _ ih =>
    intro inside
    have ht := first.tells inside
    obtain ⟨hlatched, hkept⟩ := ih (ht.size ▸ inside)
    refine ⟨fun hf => hlatched (ht.latched hf), fun hsound => ?_⟩
    obtain ⟨hle, hnew⟩ := hkept hsound
    have hsound1 : ¬ c1.Failed cx := fun hf => hsound (hlatched hf)
    rcases first.passes_beside before after inside with ⟨hids, _, heq | hf⟩ | ⟨hids, _, heq | hf⟩
    · rw [heq] at hle
      rw [hids] at hnew
      exact ⟨hle, hnew⟩
    · exact absurd hf hsound1
    · rw [heq] at hle
      rw [hids] at hnew
      refine ⟨(le_cons_self _ _).trans hle, fun id hlt hid => ?_⟩
      rcases eq_or_lt_of_le (succ_le_of_lt hlt) with heq | hlt'
      · have hid : id = c.ids.next.1 := congrArg ActorId.mk heq.symm
        exact mem_of_le hle (hid ▸ mem_cons_self ..)
      · exact hnew id hlt' hid
    · exact absurd hf hsound1

/-- The addresses held by a task and its transaction are all different and are its own. -/
structure Holds (cx : Context) (own : ActorId → Prop) (trees : List Work) (c : Core) : Prop where
  inside : cx.transaction < c.transactions.size
  nodup : (c.held cx trees).Nodup
  owned : ∀ id ∈ c.held cx trees, own id ∧ id.raw ≤ c.ids.issued

/-- Small steps keep addresses apart. All that are handed out from now on may become its own. -/
lemma Forest.holds {own : ActorId → Prop} {n : Nat} {trees trees' : List Work}
    (h : Forest cx n trees c trees' c') :
    (∀ id, c.ids.issued < id.raw → own id) → Holds cx own trees c → Holds cx own trees' c' := by
  induction h with
  | refl trees c => exact fun _ hh => hh
  | park slot who _ ih => exact fun free hh => ih free ⟨hh.inside, hh.nodup, hh.owned⟩
  | @step n before after trees' g f f' ds c c1 c' first _ ih =>
    intro free hh
    have hpass := first.passes_beside before after hh.inside
    have hinside : cx.transaction < c1.transactions.size := by
      rw [(first.tells hh.inside).size]
      exact hh.inside
    rcases hpass with ⟨hids, hle, _⟩ | ⟨hids, hle, _⟩
    · refine ih (by rwa [hids]) ⟨hinside, nodup_of_le hle hh.nodup, fun id hid => ?_⟩
      rw [hids]
      exact hh.owned id (mem_of_le hle hid)
    · have hissued : c1.ids.issued = c.ids.issued + 1 := by
        rw [hids]
        rfl
      have hfresh : c.ids.next.1 ∉ c.held cx (before ++ ⟨g, f⟩ :: after) := by
        intro hin
        exact absurd (hh.owned _ hin).2 (not_succ_le_self _)
      refine ih (fun id hid => free id (by omega)) ⟨hinside, ?_, fun id hid => ?_⟩
      · exact nodup_of_le hle (nodup_cons.2 ⟨hfresh, hh.nodup⟩)
      · rcases mem_cons.1 (mem_of_le hle hid) with rfl | hid
        · exact ⟨free _ (lt_succ_self _), hissued.ge⟩
        · obtain ⟨hown, hbound⟩ := hh.owned id hid
          exact ⟨hown, by omega⟩

end Evaluation

namespace Task

open Evaluation

/-- A task stands, and the addresses that it holds are its own. -/
def Charged (own : ActorId → Prop) {g : Goal} (t : Task g) (s : Store) : Prop :=
  ∃ dropped trees, Standing False t.context t.main s dropped trees ∧
    Holds t.context own trees s.core

lemma charged_spawn {own : ActorId → Prop} {g : Goal} (s : Store) (actor : ActorId) (muted : Bool)
    (now : Millis) (job : Job g) :
    (spawn s.newTransaction.2 actor muted s.newTransaction.1 now (.start job)).1.Charged own
      (spawn s.newTransaction.2 actor muted s.newTransaction.1 now (.start job)).2 := by
  refine ⟨[], _, standing_spawn False.elim actor muted _ now job, ?_⟩
  have hnone :
    (spawn s.newTransaction.2 actor muted s.newTransaction.1 now (.start job)).2.core.held
      (spawn s.newTransaction.2 actor muted s.newTransaction.1 now (.start job)).1.context
      [⟨g, .start job.flat⟩] = 0 := by
    simp [held, spawn, newTransaction, newAgenda, core, store,
      transaction, empty, staged, reserved]
  refine ⟨(Array.size_push ..).symm ▸ lt_succ_self _, ?_, ?_⟩
  · rw [hnone]
    exact nodup_zero
  · rw [hnone]
    exact fun id hid => absurd hid (notMem_zero id)

namespace Charged

variable {own own' : ActorId → Prop} {g : Goal} {t t' : Task g} {s s' : Store}

lemma mono (h : t.Charged own s) (hown : ∀ id, id.raw ≤ s.ids.issued → own id → own' id) :
    t.Charged own' s := by
  obtain ⟨dropped, trees, hst, hh⟩ := h
  refine ⟨dropped, trees, hst, hh.inside, hh.nodup, fun id hid => ?_⟩
  obtain ⟨h1, h2⟩ := hh.owned id hid
  exact ⟨hown id h2 h1, h2⟩

lemma elsewhere (h : t.Charged own s) (other : s.Elsewhere t.context s')
    (ids : s.ids.issued ≤ s'.ids.issued) : t.Charged own s' := by
  obtain ⟨dropped, trees, hst, hh⟩ := h
  have hheld : s'.core.held t.context trees = s.core.held t.context trees := by
    have htx : s'.core.store.transaction t.context.transaction =
        s.core.store.transaction t.context.transaction :=
      congrArg (·.getD default) other.transaction
    rw [held, held, htx]
  refine ⟨dropped, trees, hst.elsewhere other, other.inside hh.inside, ?_, ?_⟩
  · rw [hheld]
    exact hh.nodup
  · rw [hheld]
    exact fun id hid => ⟨(hh.owned id hid).1, (hh.owned id hid).2.trans ids⟩

/-- All addresses handed out from now on may become its own. -/
lemma poll (h : t.Charged own s) (free : ∀ id, s.ids.issued < id.raw → own id) {fuel : Nat}
    (run : t.advance fuel s = some (t', s')) : t'.Charged own s' := by
  obtain ⟨dropped, trees, hst, hh⟩ := h
  obtain ⟨log, hpoll⟩ := poll_of_advance run
  obtain ⟨n, ds, trees', hst', hforest, _⟩ := hpoll.standing hst
  rw [Charged, hpoll.context]
  exact ⟨_, trees', hst', hforest.holds free hh⟩

/-- The actors that were staged have different addresses, all its own. -/
lemma staged (h : t.Charged own s) {e : Effects}
    (gathered : s.transaction t.context.transaction = .gathering e) :
    (e.created.toList.map (·.id)).Nodup ∧
      ∀ a ∈ e.created.toList, own a.id ∧ a.id.raw ≤ s.ids.issued := by
  obtain ⟨dropped, trees, _, hh⟩ := h
  have hle : (↑(e.created.toList.map (·.id)) : Multiset ActorId) ≤ s.core.held t.context trees := by
    rw [held, show s.core.store.transaction t.context.transaction = .gathering e from gathered]
    exact le_add_right _ _
  refine ⟨coe_nodup.1 (nodup_of_le hle hh.nodup), fun a ha => hh.owned a.id ?_⟩
  exact mem_of_le hle (mem_coe.2 (mem_map_of_mem ha))

end Charged

end Task

end Troupe
