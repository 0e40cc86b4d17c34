import Troupe.Proofs.Shelter

/-!
Expressions open no frames of variables.

Only statements run blocks, and only a delivery runs as an actor. So an expression, and a pattern,
may make layers, functions and blocks, but the frames of variables and of actors stay what they are.

* `Evaluation.Steps.frames`: small steps of a tree that is no statement.
-/

namespace Troupe

namespace Heap

/-- The frames of variables, and how many actor frames were made. -/
def frames (h : Heap) : Array (List (String × Nat)) × Nat := (h.scopes, h.stamps)

lemma frames_bind (h : Heap) (name : String) (v : Value) (env : Env) :
    (h.bind name v env).2.2.frames = h.frames := by
  obtain ⟨layers, slots, heq, _⟩ := h.bind_frame name v env
  rw [heq]
  rfl

lemma frames_call (h : Heap) (f : Native) (v : Value) : (h.call f v).2.frames = h.frames := by
  rcases h.call_cases f v with heq | ⟨f', heq⟩
  · rw [heq]
  · rw [heq]
    rfl

end Heap

/-- The item runs no block. -/
def Item.Passive : Item → Prop
  | .exec .. | .run _ | .perform .. => False
  | _ => True

lemma Item.Passive.subs {i : Item} (hi : i.Passive) : ∀ j ∈ i.subs, j.Passive := by
  fun_cases Item.subs i
  case case27 => exact List.forall_mem_nil _
  all_goals simp only [List.forall_mem_cons]
  all_goals simp_all [Passive]

/-- What can be had from items that run no block runs none. -/
lemma Item.Yields.passive {h : Heap} {I : List Item} {j : Item} (hj : Yields h I j)
    (hI : ∀ i ∈ I, i.Passive) : j.Passive := by
  induction hj with
  | keep hi => exact hI _ hi
  | sub _ hj ih => exact ih.subs _ hj
  | _ => trivial

/-- A step that runs no block opens no frames. -/
lemma Item.Turns.frames {cx : Context} {c c' : Core} {H L : List Item} (turns : Turns cx c H L c')
    (hH : ∀ i ∈ H, i.Passive) : c'.heap.frames = c.heap.frames := by
  obtain ⟨I, _, _, hI, ⟨N, gain, _⟩, _, _⟩ := turns
  have hY : ∀ {j : Item}, Yields c.heap I j → j.Passive :=
    fun hj => hj.passive fun i hi => hH i (hI hi)
  cases gain with
  | native _ _ _ heap => exact (congrArg Heap.frames heap).trans (c.heap.frames_call ..)
  | bind _ _ heap | create _ heap => exact (congrArg Heap.frames heap).trans (c.heap.frames_bind ..)
  | scope _ hi | actor hi | enact _ hi => exact (hY hi).elim
  | still heap | layer _ heap | closure _ heap | block _ heap | new _ heap =>
    exact (congrArg Heap.frames heap).trans rfl

/-- The part of something that is no statement is none. -/
lemma Frame.goal_ne {g h : Goal} (frame : Frame g h) (hh : h ≠ .outcome) : g ≠ .outcome := by
  cases frame <;> first | exact absurd rfl hh | exact nofun

lemma Join.goal_ne_outcome {g h : Goal} (join : Join g h) : g ≠ .outcome := by
  cases join <;> exact nofun

namespace Evaluation

variable {cx : Context} {g : Goal} {f f' : Evaluation g} {ds : List Work} {c c' : Core} {n : Nat}

/-- A tree that is no statement drops nothing, and its small steps are those of such jobs and
frames. -/
lemma Micro.core_of_ne (R : Core → Core → Prop) (step : Micro cx f c f' ds c') (hg : g ≠ .outcome)
    (same : ∀ c, R c c)
    (start : ∀ {g : Goal} (job : Job g) (c : Core), g ≠ .outcome →
      R c (job.begin cx c.store).2.core)
    (resume : ∀ {g h : Goal} (frame : Frame g h) (r : g.Result) (c : Core), h ≠ .outcome →
      R c (frame.resume r cx c.store).2.core)
    (join : ∀ {g h : Goal} (join : Join g h) (a b : g.Result) (c : Core), h ≠ .outcome →
      R c (join.resume a b cx c.store).2.core) : ds = [] ∧ R c c' := by
  induction step with
  | start job c => exact ⟨rfl, start job c hg⟩
  | read bound => exact ⟨rfl, same _⟩
  | resume r frame c => exact ⟨rfl, resume frame r c hg⟩
  | join a b frame c => exact ⟨rfl, join frame a b c hg⟩
  | one frame _ ih => exact ih (frame.goal_ne hg)
  | bothLeft right join _ ih | bothRight left join _ ih => exact ih join.goal_ne_outcome
  | _ => exact absurd rfl hg

/-- A tree that is no statement runs no block. -/
lemma passive_of_ne (hg : g ≠ .outcome) (e : Evaluation g) : ∀ i ∈ e.items, i.Passive := by
  induction e with
  | done r =>
    intro i hi
    obtain ⟨v, rfl⟩ := Goal.exists_value_of_mem hi
    trivial
  | start job => cases job <;> first | exact absurd rfl hg | simp [items, Job.items, Item.Passive]
  | one part frame ih =>
    refine List.forall_mem_append.2 ⟨ih (frame.goal_ne hg), ?_⟩
    cases frame <;> first | exact absurd rfl hg | simp [Frame.items, Item.Passive]
  | both left right join ih1 ih2 =>
    exact List.forall_mem_append.2 ⟨ih1 join.goal_ne_outcome, ih2 join.goal_ne_outcome⟩
  | race => exact absurd rfl hg
  | _ => simp [items, Item.Passive]

/-- Small steps of a tree that is no statement open no frames. -/
theorem Steps.frames (hs : Steps cx n f c f' ds c') (hg : g ≠ .outcome) :
    c'.heap.frames = c.heap.frames := by
  induction hs with
  | refl f c => rfl
  | park slot who _ ih => exact ih
  | step first _ ih => exact ih.trans (first.turns.frames (passive_of_ne hg _))

end Evaluation

end Troupe
