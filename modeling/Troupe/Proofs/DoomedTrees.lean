import Troupe.Proofs.HeapPlans
import Troupe.Proofs.Shelter

/-!
Steps in vain.

A plan in vain fails, or makes an actor. What it leaves is doomed (`Evaluation.Doomed`): it holds a
failure, or a mismatch that is going to be one, or it is about to stage an actor. A doomed tree
stays doomed until the actor is staged. So a tree that ends well, and without a new actor, has taken
no step in vain.

* `Job.begin_ruin`, `Frame.resume_ruin`, `Join.resume_ruin`: what a plan in vain leaves.
* `Evaluation.Micro.doomed`: small steps of a doomed tree.
-/

namespace Troupe

open Troupe.Frame Pattern Store

variable {i n : Nat} {c c' : Core} {R : Likeness} {level inner outer : Level} {g h : Goal}
  {cx : Context}

/-! ### Staged actors -/

namespace Core

/-- Unless the transaction has failed, it has gathered `n` new actors or more. -/
def Staged (c : Core) (i n : Nat) : Prop :=
  ∀ e, c.transactions[i]? = some (.gathering e) → n ≤ e.created.size

lemma Gathers.staged {made : Array StagedActor} (gathers : c.Gathers i made) :
    c.Staged i made.size := by
  obtain ⟨e, he, rfl⟩ := gathers
  intro e' he'
  rw [he] at he'
  cases he'
  exact le_rfl

lemma Gathers.not_staged {made : Array StagedActor} (gathers : c.Gathers i made) :
    ¬ c.Staged i (made.size + 1) := by
  obtain ⟨e, he, rfl⟩ := gathers
  exact fun staged => Nat.not_succ_le_self _ (staged e he)

/-- Requests take no new actor back. -/
lemma Staged.replay (staged : c.Staged i n) (c' : Core) {log : List Request}
    (replays : c'.transactions = c.transactions.modify i (·.replay log)) :
    c'.Staged i (n + (log.filterMap Request.created?).length) := by
  intro e he
  rw [replays, Array.getElem?_modify, if_pos rfl, Option.map_eq_some_iff] at he
  obtain ⟨t, ht, hreplay⟩ := he
  cases t with
  | failed x =>
    rw [Transaction.replay_failed] at hreplay
    cases hreplay
  | gathering e0 =>
    have hn := staged e0 ht
    rw [Transaction.replay_gathering] at hreplay
    split at hreplay
    · cases hreplay
    · cases hreplay
      simp only [Effects.extend, Array.size_append, List.size_toArray]
      omega

end Core

/-! ### Doomed trees -/

namespace Evaluation

/-- The tree is going to fail, or to stage an actor. At the level of a block, a mismatch is a
failure. -/
inductive Doomed : Level → {g : Goal} → Evaluation g → Prop where
  | fail {level : Level} : Doomed level (.done (g := .outcome) .fail)
  | mismatch : Doomed .block (.done (g := .verdict) false)
  | init {level : Level} (part : Evaluation .value) (id : ActorId) (name : String) (env : Env) :
      Doomed level (.one part (.init id name env))
  | fitTail {level : Level} {part : Evaluation .verdict} (p : Pattern) (v : Value) (here : Place)
      (inner : Doomed level part) : Doomed level (.one part (.fitTail p v here))
  | unifyTail {level : Level} {part : Evaluation .verdict} (p q : Pattern) (here : Place)
      (inner : Doomed level part) : Doomed level (.one part (.unifyTail p q here))
  | defined {level : Level} {part : Evaluation .verdict} (v : Value) (inner : Doomed .block part) :
      Doomed level (.one part (.defined v))
  | equated {level : Level} {part : Evaluation .verdict} (inner : Doomed .block part) :
      Doomed level (.one part .equated)
  | raceLeft {level : Level} {left : Evaluation .outcome} (right : Evaluation .outcome)
      (inner : Doomed level left) : Doomed level (.race left right)
  | raceRight {level : Level} {right : Evaluation .outcome} (left : Evaluation .outcome)
      (inner : Doomed level right) : Doomed level (.race left right)

/-- What has answered well is not doomed. -/
lemma not_doomed_done {o : Outcome} (ho : o ≠ .fail) :
    ¬ (Evaluation.done (g := .outcome) o).Doomed level := by
  intro h
  cases h
  exact ho rfl

/-- Only statements are doomed, and the patterns that they match. -/
lemma Doomed.goal {e : Evaluation g} (h : e.Doomed level) :
    g = .outcome ∨ g = .verdict ∧ level = .block := by
  induction h with
  | mismatch => exact .inr ⟨rfl, rfl⟩
  | fitTail _ _ _ _ ih => exact ih
  | unifyTail _ _ _ _ ih => exact ih
  | _ => exact .inl rfl

end Evaluation

open Evaluation (Doomed)

lemma Store.throw_fst (s : Store) (cx : Context) (exception : Value) :
    (s.throw cx exception).1 = .done .fail := by
  simp only [throw, settle, onTransaction]
  cases s.transaction cx.transaction <;> rfl

/-! ### What a plan in vain leaves -/

lemma Effect.Sure.not_hopeless {ε : Effect} {H : Space} (sure : ε.Sure) : ¬ ε.Hopeless H := by
  cases ε with
  | put | fill | lost => exact sure.elim
  | _ => exact id

/-- A name that a block declares is bound to something else. -/
lemma Heap.bind_of_hopeless {heap old : Heap} {name : String} {v : Value} {env : Env}
    (takes : heap.Takes old name env) (hlevel : env.level? = some level)
    (hopeless : (heap.space.planBind name v env).effect.Hopeless heap.space) :
    level = .block ∧ (heap.bind name v env).1 = false := by
  cases env with
  | dynamic layer base =>
    simp only [Space.planBind] at hopeless
    split at hopeless <;> exact hopeless.elim
  | block scope captured caller =>
    refine ⟨Option.some.inj hlevel.symm, ?_⟩
    obtain ⟨slot, hslot, _⟩ := takes
    simp only [Space.planBind, heap.space_scope, hslot] at hopeless
    obtain ⟨content, hcontent, hnone, hsome⟩ := hopeless
    simp only [Heap.bind, hslot, Heap.fill]
    cases hs : heap.slots[slot]? with
    | none => rfl
    | some x =>
      simp only [Heap.space, hs, Option.map_some, Option.some.injEq] at hcontent
      subst hcontent
      cases x with
      | unbound ws => exact absurd rfl hnone
      | bound w =>
        have hne : w ≠ v := fun h => hsome (h ▸ rfl)
        simp [hne]
  | _ => exact takes.elim

lemma Pattern.mem_declared_ident (name : String) : name ∈ (ident name).declared := by
  simp [declared, collectFrom, collect]

/-- What a pattern in vain leaves. -/
lemma Pattern.fit_ruin {tidy : Prop} {old : Heap} {p : Pattern} {v : Value} {here : Place}
    (hlevel : here.env.level? = some level) (guarded : p.Guarded tidy old c.heap here.env)
    (hopeless : (p.planFit v here c.heap.space).effect.Hopeless c.heap.space) :
    (p.fit v cx here c.store).1.flat.Doomed level := by
  cases p with
  | ident name =>
    obtain ⟨rfl, hbind⟩ :=
      Heap.bind_of_hopeless (guarded.2 name (mem_declared_ident name)) hlevel hopeless
    have hfit : ((ident name).fit v cx here c.store).1 = .done false :=
      congrArg Evaluation.done hbind
    rw [hfit]
    exact .mismatch
  | any => exact hopeless.elim
  | pair ph pt => cases v <;> exact hopeless.elim
  | _ => exact hopeless.elim

/-- What a job in vain leaves. -/
theorem Job.begin_ruin {tidy : Prop} {old : Heap} {job job' : Job g} (single : job.Single)
    (like : job.Like R level job') (guarded : job.Guarded tidy old c.heap)
    (hopeless : (job.plan cx.now c.heap.space).effect.Hopeless c.heap.space) :
    (job.begin cx c.store).1.flat.Doomed level := by
  cases job with
  | eval e here => exact absurd hopeless (e.plan_sure here).not_hopeless
  | apply f a depth => exact absurd hopeless (f.planEnter_sure a depth .nested).not_hopeless
  | exec stmt here =>
    cases stmt with
    | empty | seq => exact single.elim
    | create name behavior =>
      simp only [Job.begin, Stmt.begin]
      split
      · exact .init _ _ _ _
      · rw [throw_fst]
        exact .fail
    | _ => exact hopeless.elim
  | publish | deliver => cases like
  | fit p v here =>
    cases like with
    | fit _ _ place => exact fit_ruin place.level (guarded _ List.mem_cons_self) hopeless
  | unify p _ _ | unifyName p _ _ | resolve p _ => cases p <;> exact hopeless.elim
  | unifyPair p q here =>
    cases p with
    | pair => cases q <;> exact hopeless.elim
    | _ => exact hopeless.elim

/-- What a frame in vain leaves: a failure, or a new actor. -/
theorem Frame.resume_ruin {frame frame' : Frame g h} (like : frame.Like R inner outer frame')
    (staged : c.Staged cx.transaction n) (r : g.Result)
    (hopeless : (frame.plan r c.heap.space).effect.Hopeless c.heap.space) :
    (frame.resume r cx c.store).1.flat.Doomed outer ∨
      (frame.resume r cx c.store).2.core.Staged cx.transaction (n + 1) := by
  have hthrow : ∀ {exception : Value} {e : Evaluation .outcome},
      e = (c.store.throw cx exception).1 → e.flat.Doomed outer := by
    rintro _ _ rfl
    rw [throw_fst]
    exact .fail
  cases frame with
  | new env =>
    have hstaged := staged.replay ((new env).resume r cx c.store).2.core
      ((new env).resume_transactions cx c.store r)
    exact .inr hstaged
  | defined | equated =>
    cases r with
    | true => exact hopeless.elim
    | false => exact .inl (hthrow rfl)
  | delay message target here =>
    simp only [plan] at hopeless
    simp only [resume]
    cases hn : r.natural? with
    | some ms =>
      rw [hn] at hopeless
      exact hopeless.elim
    | none => exact .inl (hthrow rfl)
  | throw => exact .inl (hthrow rfl)
  | choose arms here => exact absurd hopeless (arms.planTry_sure r here).not_hopeless
  | arm body layer rest subject here =>
    cases r with
    | true => exact hopeless.elim
    | false => exact absurd hopeless (rest.planTry_sure subject here).not_hopeless
  | run here =>
    simp only [plan] at hopeless
    split at hopeless <;> exact hopeless.elim
  | init | perform | offer => cases like
  | resolved p here => cases r <;> exact hopeless.elim
  | _ => exact hopeless.elim

/-- What a join in vain leaves. -/
theorem Join.resume_ruin (join : Join g h) (a b : g.Result)
    (hopeless : (join.plan a b c.heap.space).effect.Hopeless c.heap.space) :
    (join.resume a b cx c.store).1.flat.Doomed outer := by
  cases join with
  | apply depth =>
    exact absurd hopeless (Value.planEnter_sure a b depth .enter).not_hopeless
  | pair => exact hopeless.elim
  | meanings =>
    cases a with
    | none => exact hopeless.elim
    | some a => cases b <;> exact hopeless.elim
  | send delay =>
    cases a with
    | actor id => exact hopeless.elim
    | _ =>
      change (c.store.throw cx _).1.flat.Doomed outer
      rw [throw_fst]
      exact .fail

/-! ### Small steps of doomed trees -/

namespace Evaluation

variable {f f' : Evaluation g} {ds : List Work}

/-- A small step replays requests. -/
lemma Micro.replays (step : Micro cx f c f' ds c') :
    ∃ log, c'.transactions = c.transactions.modify cx.transaction (·.replay log) := by
  induction step with
  | start job c => exact ⟨_, job.begin_transactions cx c.store⟩
  | resume r frame c => exact ⟨_, frame.resume_transactions cx c.store r⟩
  | join a b join c => exact ⟨_, join.resume_transactions cx c.store a b⟩
  | merge a b c => exact ⟨_, a.join_transactions cx c.store b⟩
  | read | failLeft | failRight => exact ⟨[], (modify_replay_nil ..).symm⟩
  | one _ _ ih | bothLeft _ _ _ ih | bothRight _ _ _ ih | raceLeft _ _ ih | raceRight _ _ ih =>
    exact ih

/-- A small step takes no new actor back. -/
lemma Micro.staged (step : Micro cx f c f' ds c') (staged : c.Staged cx.transaction n) :
    c'.Staged cx.transaction n := by
  obtain ⟨log, hlog⟩ := step.replays
  intro e he
  exact (Nat.le_add_right _ _).trans (staged.replay c' hlog e he)

/-- A doomed tree stays doomed, unless it stages an actor. -/
theorem Micro.doomed (step : Micro cx f c f' ds c') :
    ∀ {level : Level}, f.Doomed level → c.Staged cx.transaction n →
      f'.Doomed level ∨ c'.Staged cx.transaction (n + 1) := by
  have hthrow : ∀ {level : Level} {c : Core} {exception : Value},
      (c.store.throw cx exception).1.flat.Doomed level := by
    intro level c exception
    rw [throw_fst]
    exact .fail
  induction step with
  | start | read | join | bothLeft | bothRight => exact nofun
  | resume r frame c =>
    intro level hdoomed staged
    cases hdoomed with
    | init part id name env =>
      have hstaged := staged.replay ((init id name env).resume r cx c.store).2.core
        ((init id name env).resume_transactions cx c.store r)
      exact .inr hstaged
    | fitTail p v here inner | unifyTail p q here inner =>
      cases inner
      exact .inl .mismatch
    | defined v inner | equated inner =>
      cases inner
      exact .inl hthrow
  | merge a b c =>
    intro level hdoomed _
    refine .inl ?_
    cases hdoomed with
    | raceLeft _ inner =>
      cases inner
      exact .fail
    | raceRight _ inner =>
      cases inner
      cases a <;> exact .fail
  | failLeft | failRight => exact fun _ _ => .inl .fail
  | one frame _ ih =>
    intro level hdoomed staged
    cases hdoomed with
    | init part id name env => exact .inl (.init _ id name env)
    | fitTail p v here inner => exact (ih inner staged).imp_left (.fitTail p v here)
    | unifyTail p q here inner => exact (ih inner staged).imp_left (.unifyTail p q here)
    | defined v inner => exact (ih inner staged).imp_left (.defined v)
    | equated inner => exact (ih inner staged).imp_left .equated
  | raceLeft right _ ih =>
    intro level hdoomed staged
    cases hdoomed with
    | raceLeft _ inner => exact (ih inner staged).imp_left (.raceLeft right)
    | raceRight _ inner => exact .inl (.raceRight _ inner)
  | raceRight left _ ih =>
    intro level hdoomed staged
    cases hdoomed with
    | raceLeft _ inner => exact .inl (.raceLeft _ inner)
    | raceRight _ inner => exact (ih inner staged).imp_left (.raceRight left)

end Evaluation

end Troupe
