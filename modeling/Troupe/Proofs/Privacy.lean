import Mathlib.Data.Set.Basic
import Troupe.Proofs.Plan

/-!
What one part of an evaluation does is no business of the others.

While a pattern is matched on a layer, bindings are added to the layer. Nobody else knows the layer
yet, so nobody sees it grow. To say this, take a set of addresses that is closed: what stands there
mentions no addresses outside (`Space.Closed`). Everything that an evaluation over this set does,
now and later, depends on this set only. An evaluation keeps clear of the set (`Evaluation.Secret`)
if the layers that it matches patterns on are not in it.

* `Evaluation.Fires.congr`: a plan over a closed set stays good as long as nobody writes there,
  apart from slots.
* `Evaluation.Secret.outside`, `Evaluation.Secret.step`: keeping clear of a closed set, while others
  take a step and while the evaluation itself takes one.
* `Evaluation.Fires.apart`: two plans of an evaluation are the same, or can be carried out in either
  order.
-/

namespace Troupe

open List Set

variable {c : Content} {a : Address}

variable {R : Likeness} {level : Level} {g h : Goal} {H H' : Space} {now : Millis}
  {K K' : Set Address} {ε : Effect} {r r' : Feedback}

/-! ### What effects touch -/

lemma mem_of_lookup {ws : List (Address × Content)} (h : ws.lookup a = some c) : (a, c) ∈ ws := by
  obtain ⟨l, l', rfl, -⟩ := lookup_eq_some_iff.1 h
  simp

namespace Effect

/-- The addresses of what is new. -/
def news : Effect → Feedback → Set Address
  | make c, r => {⟨c.kind, r.id⟩}
  | scope _, r => {a | a = ⟨.scope, r.id⟩ ∨ ∃ i ∈ r.slots, a = ⟨.slot, i⟩}
  | _, _ => ∅

/-- How an effect gets to write a content to an address: the address is new, a layer is set or a
slot is filled. -/
inductive Touches (H : Space) : Effect → Feedback → Address → Content → Prop where
  | new {ε : Effect} {r : Feedback} {a : Address} {c : Content} (fresh : a ∈ ε.news r)
      (free : H a = Option.none) : Touches H ε r a c
  | put {layer : Nat} {b : String → Option Value} {r : Feedback} :
      Touches H (.put layer b) r ⟨.layer, layer⟩ (.layer b)
  | fill {slot : Nat} {v : Value} {r : Feedback}
      (room : H ⟨.slot, slot⟩ = some (.slot Option.none) ∨ H ⟨.slot, slot⟩ =
        some (.slot (some v))) :
      Touches H (.fill slot v) r ⟨.slot, slot⟩ (.slot (some v))

lemma Allowed.touches (allowed : ε.Allowed H r) (h : (ε.writes r).lookup a = some c) :
    Touches H ε r a c := by
  have hmem := mem_of_lookup h
  cases ε with
  | make c' =>
    simp only [writes, List.mem_singleton, Prod.mk.injEq] at hmem
    obtain ⟨rfl, rfl⟩ := hmem
    exact .new rfl allowed
  | scope vars =>
    simp only [writes, List.mem_cons, Prod.mk.injEq, List.mem_map] at hmem
    rcases hmem with ⟨rfl, rfl⟩ | ⟨i, hi, rfl, rfl⟩
    · exact .new (.inl rfl) allowed.1
    · exact .new (.inr ⟨i, hi, rfl⟩) (allowed.2.2.2 i hi)
  | put layer b =>
    simp only [writes, List.mem_singleton, Prod.mk.injEq] at hmem
    obtain ⟨rfl, rfl⟩ := hmem
    exact .put
  | fill slot v =>
    simp only [writes, List.mem_singleton, Prod.mk.injEq] at hmem
    obtain ⟨rfl, rfl⟩ := hmem
    exact .fill allowed
  | _ => cases hmem

/-- Of what is there already, only layers that are set and slots that are filled are written. -/
lemma Allowed.lookup_eq_none (allowed : ε.Allowed H r) (ha : H a ≠ Option.none)
    (put : ∀ layer b, ε = .put layer b → a ≠ ⟨.layer, layer⟩)
    (fill : ∀ slot v, ε = .fill slot v → a ≠ ⟨.slot, slot⟩) :
    (ε.writes r).lookup a = Option.none := by
  cases hlookup : (ε.writes r).lookup a with
  | none => rfl
  | some c =>
    cases allowed.touches hlookup with
    | new _ free => exact absurd free ha
    | put => exact absurd rfl (put _ _ rfl)
    | fill _ => exact absurd rfl (fill _ _ rfl)

lemma Allowed.free (allowed : ε.Allowed H r) (ha : a ∈ ε.news r) : H a = Option.none := by
  cases ε with
  | make c =>
    cases ha
    exact allowed
  | scope vars =>
    rcases ha with rfl | ⟨i, hi, rfl⟩
    · exact allowed.1
    · exact allowed.2.2.2 i hi
  | _ => cases ha

/-- What is new is written. -/
lemma lookup_of_news (ha : a ∈ ε.news r) : ∃ c, (ε.writes r).lookup a = some c := by
  cases ε with
  | make c =>
    cases ha
    exact ⟨c, lookup_cons_self⟩
  | scope vars =>
    rcases ha with rfl | ⟨i, hi, rfl⟩
    · exact ⟨_, lookup_cons_self⟩
    · refine ⟨.slot Option.none, ?_⟩
      rw [writes, Space.lookup_cons_of_ne (by simp)]
      exact lookup_slots hi _
  | _ => cases ha

end Effect

/-! ### Closed sets of addresses -/

namespace Space

/-- The addresses where something stands. -/
def dom (H : Space) : Set Address := {a | H a ≠ none}

/-- What stands at the addresses of the set mentions no others. -/
def Closed (H : Space) (K : Set Address) : Prop := H.Like (.on K) H

/-- The spaces are the same at the addresses of the set, apart from slots. -/
def Agree (K : Set Address) (H H' : Space) : Prop := ∀ a ∈ K, a.kind ≠ .slot → H' a = H a

lemma Closed.subset_dom (hK : H.Closed K) : K ⊆ H.dom :=
  fun _ ha => (hK.ne_none ⟨rfl, ha⟩).1

lemma Agree.sees (hK : H.Closed K) (agree : Agree K H H') : H.Sees (.on K) H' := by
  rintro k i j hk ⟨rfl, hi⟩
  obtain ⟨c, c', hc, hc', hlike⟩ := hK.at_related ⟨rfl, hi⟩
  rw [hc] at hc'
  cases hc'
  exact ⟨c, c, hc, (agree _ hi hk).trans hc, hlike⟩

/-- What is written by an effect over a closed set is over the set with what is new. -/
lemma like_of_writes (hε : ε.Like (.on K) ε) (h : (ε.writes r).lookup a = some c) :
    c.Like (.on (K ∪ ε.news r)) c := by
  have hle : Likeness.on K ≤ .on (K ∪ ε.news r) := Likeness.on_mono Set.subset_union_left
  have hmem := mem_of_lookup h
  cases hε with
  | make hc =>
    simp only [Effect.writes, List.mem_singleton, Prod.mk.injEq] at hmem
    obtain ⟨rfl, rfl⟩ := hmem
    exact hc.mono hle
  | scope vars =>
    simp only [Effect.writes, List.mem_cons, Prod.mk.injEq, List.mem_map] at hmem
    rcases hmem with ⟨rfl, rfl⟩ | ⟨i, hi, rfl, rfl⟩
    · refine .scope fun name => lookup_zip_like ?_ vars name
      exact List.forall₂_same.2 fun i hi => ⟨rfl, .inr (.inr ⟨i, hi, rfl⟩)⟩
    · exact .slot .none
  | put same each =>
    simp only [Effect.writes, List.mem_singleton, Prod.mk.injEq] at hmem
    obtain ⟨rfl, rfl⟩ := hmem
    exact .layer fun name => rel_mono (fun _ _ => Value.Like.mono hle) (each name)
  | fill same hv =>
    simp only [Effect.writes, List.mem_singleton, Prod.mk.injEq] at hmem
    obtain ⟨rfl, rfl⟩ := hmem
    exact .slot (.some (hv.mono hle))
  | _ => cases hmem

/-- An effect over a closed set. -/
lemma Closed.effect (hK : H.Closed K) (hε : ε.Like (.on K) ε) :
    (H.write (ε.writes r)).Closed (K ∪ ε.news r) := by
  refine Like.write hK (Likeness.on_mono subset_union_left) ?_
  rintro k i j ⟨rfl, hi⟩
  cases hlookup : (ε.writes r).lookup ⟨k, i⟩ with
  | some c => exact .inr ⟨c, c, rfl, rfl, like_of_writes hε hlookup⟩
  | none =>
    refine .inl ⟨⟨rfl, hi.resolve_right fun hnew => ?_⟩, rfl, rfl⟩
    obtain ⟨c, hc⟩ := Effect.lookup_of_news hnew
    rw [hlookup] at hc
    cases hc

/-- An effect that does not write to a closed set leaves it closed. -/
lemma Closed.keep (hK : H.Closed K) {ws : List (Address × Content)}
    (away : ∀ a ∈ K, ws.lookup a = none) : (H.write ws).Closed K := by
  refine Like.write hK le_rfl ?_
  rintro k i j ⟨rfl, hi⟩
  exact .inl ⟨⟨rfl, hi⟩, away _ hi, away _ hi⟩

lemma dom_write (hε : ε.Like (.on H.dom) ε) (allowed : ε.Allowed H r) :
    (H.write (ε.writes r)).dom = H.dom ∪ ε.news r := by
  ext a
  cases hlookup : (ε.writes r).lookup a with
  | none =>
    have hnew : a ∉ ε.news r := by
      intro ha
      obtain ⟨c, hc⟩ := Effect.lookup_of_news ha
      rw [hlookup] at hc
      cases hc
    simp [dom, write_of_not hlookup, hnew]
  | some c =>
    refine iff_of_true (by simp [dom, write_of_lookup hlookup]) ?_
    cases allowed.touches hlookup with
    | new fresh _ => exact .inr fresh
    | put =>
      cases hε with
      | put same _ => exact .inl same.2
    | fill room =>
      refine .inl ?_
      rcases room with h | h <;> simp [dom, h]

end Space

/-! ### Plans over closed sets -/

lemma Value.Like.refl_univ (v : Value) : v.Like (.on univ) v := by
  induction v with
  | undefined => exact .undefined
  | nil => exact .nil
  | bool b => exact .bool b
  | number n => exact .number n
  | symbol name => exact .symbol name
  | pair head tail ih1 ih2 => exact .pair ih1 ih2
  | actor id => exact .actor id
  | closure i => exact .closure ⟨rfl, trivial⟩
  | native ref => exact .native ref.name ⟨rfl, trivial⟩
  | block i => exact .block ⟨rfl, trivial⟩

/-- Plans that are like each other, number for number, are the same. -/
lemma Plan.Like.eq {p p' : Plan g} (hR : R.Diagonal) (hp : p.Like R level p') : p = p' := by
  have hle : R ≤ .on univ := fun _ _ _ hij => ⟨hR.eq hij, trivial⟩
  have hnext : p.next = p'.next := by
    funext r
    have hreplies : p.effect.Replies (.on univ) r r := by
      cases p.effect with
      | make c => exact ⟨rfl, trivial⟩
      | scope vars => exact ⟨⟨rfl, trivial⟩, forall₂_same.2 fun _ _ => ⟨rfl, trivial⟩⟩
      | read slot => exact Value.Like.refl_univ _
      | _ => trivial
    exact (hp.next hle hreplies).eq (Likeness.diagonal_on _)
  cases p
  cases p'
  cases hp.effect.eq hR
  cases hnext
  rfl

/-- A response to an effect over a closed set is over the set with what is new. -/
lemma Effect.replies_self (hK : H.Closed K) (hε : ε.Like (.on K) ε) (allowed : ε.Allowed H r) :
    ε.Replies (.on (K ∪ ε.news r)) r r := by
  cases hε with
  | make hc => exact ⟨rfl, .inr rfl⟩
  | scope vars =>
    exact ⟨⟨rfl, .inr (.inl rfl)⟩, forall₂_same.2 fun i hi => ⟨rfl, .inr (.inr ⟨i, hi, rfl⟩)⟩⟩
  | read same =>
    obtain ⟨c, c', hc, hc', hlike⟩ := hK.at_related same
    rw [allowed] at hc hc'
    cases hc
    cases hc'
    cases hlike with
    | slot each =>
      cases each with
      | some hv => exact hv.mono (Likeness.on_mono subset_union_left)
  | _ => trivial

namespace Evaluation

/-- A plan over a closed set stays good as long as nobody writes there, apart from slots. -/
theorem Fires.congr {e : Evaluation g} {p : Plan g} (hfires : e.Fires now H p) (hK : H.Closed K)
    (he : e.Like (.on K) level e) (agree : Space.Agree K H H') : e.Fires now H' p := by
  obtain ⟨p', hp', hlike⟩ := hfires.like (Likeness.unique_on K) (agree.sees hK) he
  rwa [hlike.eq (Likeness.diagonal_on K)]

/-- The plan of an evaluation over a closed set is over this set. -/
lemma Fires.over {e : Evaluation g} {p : Plan g} (hfires : e.Fires now H p) (hK : H.Closed K)
    (he : e.Like (.on K) level e) : p.Like (.on K) level p := by
  obtain ⟨p', _, hlike⟩ := hfires.like (Likeness.unique_on K) hK.sees he
  have heq := hlike.eq (Likeness.diagonal_on K)
  rwa [← heq] at hlike

/-- After a step, an evaluation over a closed set is over the set with what is new. -/
lemma Fires.next_over {e : Evaluation g} {p : Plan g} (hfires : e.Fires now H p) (hK : H.Closed K)
    (he : e.Like (.on K) level e) (allowed : p.effect.Allowed H r) :
    (p.next r).Like (.on (K ∪ p.effect.news r)) level (p.next r) := by
  have hp := hfires.over hK he
  exact hp.next (Likeness.on_mono subset_union_left)
    (Effect.replies_self hK hp.effect allowed)

end Evaluation

/-! ### Keeping clear of a set -/

/-- The layer in front of an environment is not in the set. -/
def Place.Spares (K : Set Address) (here : Place) : Prop :=
  ∀ layer base, here.env = .dynamic layer base → (⟨.layer, layer⟩ : Address) ∉ K

/-- A job matches no pattern on a layer in the set. -/
def Job.Secret (K : Set Address) : {g : Goal} → Job g → Prop
  | _, .fit _ _ here => here.Spares K
  | _, .unify _ _ here => here.Spares K
  | _, .unifyName _ _ here => here.Spares K
  | _, .unifyPair _ _ here => here.Spares K
  | _, _ => True

/-- A frame matches no pattern on a layer in the set. -/
def Frame.Secret (K : Set Address) : {g h : Goal} → Frame g h → Prop
  | _, _, .fit _ here => here.Spares K
  | _, _, .resolved _ here => here.Spares K
  | _, _, .fitTail _ _ here => here.Spares K
  | _, _, .unifyTail _ _ here => here.Spares K
  | _, _, _ => True

/-- An evaluation matches no pattern on a layer in the set, and parts of it that run side by side
keep clear of each other. -/
def Evaluation.Secret (H : Space) : {g : Goal} → Set Address → Evaluation g → Prop
  | _, K, .start job => job.Secret K
  | _, K, .one part frame => frame.Secret K ∧ part.Secret H K
  | _, K, .both left right _ =>
    (∃ K', K ⊆ K' ∧ H.Closed K' ∧ (∃ level, right.Like (.on K') level right) ∧ left.Secret H K') ∧
    (∃ K', K ⊆ K' ∧ H.Closed K' ∧ (∃ level, left.Like (.on K') level left) ∧ right.Secret H K')
  | _, _, _ => True

lemma Place.Spares.insert {here : Place} (spares : here.Spares K) {N : Set Address}
    (hplace : here.Like (.on H.dom) here) (free : ∀ a ∈ N, H a = none) : here.Spares (K ∪ N) := by
  rintro layer base henv (hK | hN)
  · exact spares layer base henv hK
  · have henv' := hplace.env
    rw [henv] at henv'
    cases henv' with
    | dynamic same _ => exact same.2 (free _ hN)

namespace Evaluation

/-- Others take a step over a closed set. The evaluation still keeps clear of it, and of what is
new. -/
lemma Secret.outside {e : Evaluation g} (hε : ε.Like (.on K) ε) (allowed : ε.Allowed H r)
    (he : e.Like (.on H.dom) level e) (secret : e.Secret H K) :
    e.Secret (H.write (ε.writes r)) (K ∪ ε.news r) := by
  have hfree : ∀ a ∈ ε.news r, H a = none := fun a => allowed.free
  induction e generalizing K level with
  | done | parked | awaiting | race => trivial
  | start job =>
    cases he with
    | start hjob =>
      cases hjob with
      | fit _ _ place | unify _ _ place | unifyName _ _ place | unifyPair _ _ place =>
        exact Place.Spares.insert secret place.toLike hfree
      | _ => trivial
  | one part frame ih =>
    cases he with
    | one hpart hframe =>
      refine ⟨?_, ih hε hpart secret.2⟩
      cases hframe with
      | fit _ place | resolved _ place | fitTail _ _ place | unifyTail _ _ place =>
        exact Place.Spares.insert secret.1 place.toLike hfree
      | _ => trivial
  | both left right join ih1 ih2 =>
    cases he with
    | both first second =>
      obtain ⟨⟨K1, hK1, hclosed1, ⟨l1, hright⟩, hleft⟩, K2, hK2, hclosed2, ⟨l2, hleft'⟩, hright'⟩ :=
        secret
      have hε1 := hε.mono (Likeness.on_mono hK1)
      have hε2 := hε.mono (Likeness.on_mono hK2)
      refine ⟨⟨K1 ∪ ε.news r, union_subset_union_left _ hK1, hclosed1.effect hε1,
          ⟨l1, hright.mono (Likeness.on_mono subset_union_left)⟩, ih1 hε1 first hleft⟩,
        K2 ∪ ε.news r, union_subset_union_left _ hK2, hclosed2.effect hε2,
          ⟨l2, hleft'.mono (Likeness.on_mono subset_union_left)⟩, ih2 hε2 second hright'⟩

end Evaluation

/-! ### What the steps of an evaluation write -/

/-- The effect sets no layer and fills no slot. -/
def Effect.Mild : Effect → Prop
  | put .. => False
  | fill .. => False
  | _ => True

lemma Effect.Mild.ne (h : ε.Mild) :
    (∀ layer b, ε ≠ .put layer b) ∧ ∀ slot v, ε ≠ .fill slot v :=
  ⟨fun _ _ heq => by rwa [heq] at h, fun _ _ heq => by rwa [heq] at h⟩

/-- Besides, the effect is never in vain. -/
def Effect.Sure : Effect → Prop
  | lost => False
  | ε => ε.Mild

lemma Effect.Sure.mild (h : ε.Sure) : ε.Mild := by
  cases ε with
  | lost => trivial
  | _ => exact h

lemma Value.planEnter_sure (f a : Value) (depth : Nat)
    (frame : Expr → Place → Frame .verdict .value) : (f.planEnter a depth H frame).effect.Sure := by
  unfold Value.planEnter
  split
  · split <;> trivial
  · split
    · split <;> trivial
    · trivial
  · trivial

lemma Arms.planTry_sure (x : Arms) (v : Value) (here : Place) : (x.planTry v here).effect.Sure := by
  cases x <;> trivial

lemma Expr.plan_sure (e : Expr) (here : Place) : (e.plan now here H).effect.Sure := by
  cases e with
  | ident name =>
    simp only [Expr.plan]
    split <;> trivial
  | _ => trivial

lemma Frame.plan_mild (frame : Frame g h) (r : g.Result) : (frame.plan r H).effect.Mild := by
  cases frame with
  | choose arms here => exact (Arms.planTry_sure ..).mild
  | arm body layer rest subject here =>
    cases r with
    | false => exact (Arms.planTry_sure ..).mild
    | true => trivial
  | resolved | defined | equated => cases r <;> trivial
  | delay | run =>
    simp only [Frame.plan]
    split <;> trivial
  | _ => trivial

lemma Join.plan_mild (join : Join g h) (a b : g.Result) : (join.plan a b H).effect.Mild := by
  cases join with
  | apply depth => exact (Value.planEnter_sure ..).mild
  | pair => trivial
  | send delay => cases a <;> trivial
  | meanings => cases a <;> cases b <;> trivial

/-- Matches a name. -/
def Job.Names : {g : Goal} → Job g → Prop
  | _, .fit (.ident _) _ _ => True
  | _, _ => False

/-- Only matching a name sets a layer or fills a slot. -/
lemma Job.plan_mild (job : Job g) (hjob : ¬ job.Names) : (job.plan now H).effect.Mild := by
  cases job with
  | eval e here => exact (Expr.plan_sure e here).mild
  | apply f a depth => exact (Value.planEnter_sure ..).mild
  | exec stmt here => cases stmt <;> trivial
  | publish | deliver => trivial
  | fit p v here =>
    cases p with
    | ident name => exact absurd trivial hjob
    | pair ph pt => cases v <;> trivial
    | _ => trivial
  | unify p _ here | unifyName p _ here | resolve p here => cases p <;> trivial
  | unifyPair right left here =>
    cases right with
    | pair rh rt => cases left <;> trivial
    | _ => trivial

lemma Job.put_spares (job : Job g) (secret : job.Secret K) {layer : Nat} {b : String → Option Value}
    (h : (job.plan now H).effect = .put layer b) : (⟨.layer, layer⟩ : Address) ∉ K := by
  by_cases hjob : job.Names
  · unfold Job.Names at hjob
    split at hjob
    · rename_i name v here
      simp only [Job.plan, Pattern.planFit, Space.planBind] at h
      split at h
      · rename_i layer' base henv
        split at h <;> cases h
        exact secret _ _ henv
      · split at h <;> cases h
      · cases h
    · exact hjob.elim
  · exact absurd h ((job.plan_mild hjob).ne.1 _ _)

/-- Slots are filled by statements only. -/
lemma Job.fill_block {job : Job g} (hj : job.Like R level job) {slot : Nat} {v : Value}
    (h : (job.plan now H).effect = .fill slot v) :
    (g = .verdict ∧ level = .block) ∧ ∀ r, ∃ x, (job.plan now H).next r = .done x := by
  by_cases hjob : job.Names
  · cases hj with
    | fit p v place =>
      cases p with
      | ident name =>
        simp only [Job.plan, Pattern.planFit, Space.planBind] at h
        split at h
        · split at h <;> cases h
        · rename_i henv
          have hlevel := place.level
          rw [henv] at hlevel
          cases hlevel
          refine ⟨⟨rfl, rfl⟩, fun r => ⟨true, ?_⟩⟩
          split at h
          · rename_i hslot
            simp only [Job.plan, Pattern.planFit, henv, Space.planBind, hslot]
          · cases h
        · cases h
      | _ => exact hjob.elim
    | _ => exact hjob.elim
  · exact absurd h ((job.plan_mild hjob).ne.2 _ _)

lemma Place.LikeAt.spares {here here' : Place} (place : here.LikeAt R .block here') :
    here.Spares K := by
  intro layer base henv
  have hlevel := place.level
  rw [henv] at hlevel
  cases hlevel

namespace Evaluation

/-- A step sets no layer of a set that the evaluation keeps clear of. -/
lemma Fires.put_spares {e : Evaluation g} {p : Plan g} (hfires : e.Fires now H p) {layer : Nat}
    {b : String → Option Value} (h : p.effect = .put layer b) :
    ∀ {K : Set Address}, e.Secret H K → (⟨.layer, layer⟩ : Address) ∉ K := by
  induction hfires with
  | start job => exact fun secret => job.put_spares secret h
  | read slot => cases h
  | resume r frame => exact absurd h ((frame.plan_mild r).ne.1 _ _)
  | join a b join => exact absurd h ((join.plan_mild a b).ne.1 _ _)
  | one frame _ ih => exact fun secret => ih h secret.2
  | bothLeft right join _ ih =>
    rintro K ⟨⟨K', hK', _, _, hleft⟩, _⟩ hin
    exact ih h hleft (hK' hin)
  | bothRight left join _ ih =>
    rintro K ⟨_, K', hK', _, _, hright⟩ hin
    exact ih h hright (hK' hin)

/-- A step that fills a slot is the step of a statement, and matches no pattern on a layer. -/
lemma Fires.fill_secret {e : Evaluation g} {p : Plan g} (hfires : e.Fires now H p) {slot : Nat}
    {v : Value} (h : p.effect = .fill slot v) (he : e.Like R level e) :
    ((g = .verdict ∧ level = .block) ∨ g = .outcome) ∧ ∀ r H' K', (p.next r).Secret H' K' := by
  induction hfires generalizing level with
  | start job =>
    cases he with
    | start hj =>
      obtain ⟨hlevel, hnext⟩ := Job.fill_block hj h
      refine ⟨.inl hlevel, fun r H' K' => ?_⟩
      obtain ⟨x, hx⟩ := hnext r
      rw [hx]
      trivial
  | read slot => cases h
  | resume r frame => exact absurd h ((frame.plan_mild r).ne.2 _ _)
  | join a b join => exact absurd h ((join.plan_mild a b).ne.2 _ _)
  | one frame _ ih =>
    cases he with
    | one hpart hframe =>
      obtain ⟨hlevel, hnext⟩ := ih h hpart
      cases hframe with
      | fitTail _ _ place | unifyTail _ _ place =>
        obtain ⟨_, rfl⟩ := hlevel.resolve_right (by simp)
        exact ⟨.inl ⟨rfl, rfl⟩, fun r H' K' => ⟨place.spares, hnext r H' K'⟩⟩
      | defined | equated => exact ⟨.inr rfl, fun r H' K' => ⟨trivial, hnext r H' K'⟩⟩
      | _ => simp at hlevel
  | bothLeft right join _ ih =>
    cases he with
    | both first second =>
      obtain ⟨hlevel, _⟩ := ih h first
      cases join <;> simp at hlevel
  | bothRight left join _ ih =>
    cases he with
    | both first second =>
      obtain ⟨hlevel, _⟩ := ih h second
      cases join <;> simp at hlevel

end Evaluation

/-! ### What steps begin -/

/-- Like `Evaluation.Secret`, for what was just begun: parts side by side match no patterns yet. -/
def Evaluation.Hidden : {g : Goal} → Set Address → Evaluation g → Prop
  | _, K, .start job => job.Secret K
  | _, K, .one part frame => frame.Secret K ∧ part.Hidden K
  | _, _, .both left right _ => (∀ K, left.Hidden K) ∧ ∀ K, right.Hidden K
  | _, _, _ => True

lemma Evaluation.Hidden.secret (hdom : H.Closed H.dom) {e : Evaluation g}
    (he : e.Like (.on H.dom) level e) (hK : K ⊆ H.dom) (hidden : e.Hidden K) : e.Secret H K := by
  induction e generalizing K level with
  | done | parked | awaiting | race => trivial
  | start job => exact hidden
  | one part frame ih =>
    cases he with
    | one hpart _ => exact ⟨hidden.1, ih hpart hK hidden.2⟩
  | both left right join ih1 ih2 =>
    cases he with
    | both first second =>
      exact ⟨⟨H.dom, hK, hdom, ⟨_, second⟩, ih1 first subset_rfl (hidden.1 _)⟩,
        H.dom, hK, hdom, ⟨_, first⟩, ih2 second subset_rfl (hidden.2 _)⟩

/-- A layer that is new is not in the set. -/
lemma Place.spares_new {env : Env} {depth : Nat}
    (fresh : ∀ a ∈ (Effect.make (.layer fun _ => none)).news r, a ∉ K) :
    (⟨.dynamic r.id env, depth⟩ : Place).Spares K := by
  intro layer base henv
  cases henv
  exact fresh _ rfl

lemma Arms.planTry_hidden (x : Arms) (v : Value) (here : Place)
    (fresh : ∀ a ∈ (x.planTry v here).effect.news r, a ∉ K) :
    ((x.planTry v here).next r).Hidden K := by
  cases x with
  | nil => trivial
  | cons p e rest => exact ⟨trivial, Place.spares_new fresh⟩

lemma Value.planEnter_hidden (f a : Value) (depth : Nat)
    {frame : Expr → Place → Frame .verdict .value} (hframe : ∀ e here, (frame e here).Secret K)
    (fresh : ∀ x ∈ (f.planEnter a depth H frame).effect.news r, x ∉ K) :
    ((f.planEnter a depth H frame).next r).Hidden K := by
  unfold Value.planEnter at fresh ⊢
  split
  · split
    · rename_i hc
      simp only [hc] at fresh
      exact ⟨hframe _ _, Place.spares_new fresh⟩
    · trivial
  · split
    · split <;> trivial
    · trivial
  · trivial

lemma Expr.plan_hidden (e : Expr) (here : Place)
    (fresh : ∀ a ∈ (e.plan now here H).effect.news r, a ∉ K) :
    ((e.plan now here H).next r).Hidden K := by
  cases e with
  | ident name =>
    simp only [Expr.plan]
    split <;> trivial
  | apply | pair => exact ⟨fun _ => trivial, fun _ => trivial⟩
  | choose | new => exact ⟨trivial, trivial⟩
  | cond p q a b => exact ⟨trivial, Place.spares_new fresh⟩
  | _ => trivial

lemma Job.plan_hidden {job : Job g} (hj : job.Like R level job) (secret : job.Secret K)
    (fresh : ∀ a ∈ (job.plan now H).effect.news r, a ∉ K) : ((job.plan now H).next r).Hidden K := by
  cases hj with
  | @eval e _ here _ _ _ => exact Expr.plan_hidden e here fresh
  | apply f a depth => exact Value.planEnter_hidden _ _ _ (fun _ _ => trivial) fresh
  | exec s place =>
    cases s with
    | equate p q => exact ⟨trivial, place.spares⟩
    | send m t => exact ⟨fun _ => trivial, fun _ => trivial⟩
    | empty | seq | create => trivial
    | _ => exact ⟨trivial, trivial⟩
  | fit p v place =>
    cases p with
    | any => trivial
    | ident name =>
      simp only [Job.plan, Pattern.planFit, Space.planBind]
      split
      · split <;> trivial
      · split <;> trivial
      · trivial
    | pair head tail =>
      cases v with
      | pair h t => exact ⟨secret, secret⟩
      | _ => trivial
    | _ => exact ⟨trivial, trivial⟩
  | unify p q place =>
    cases p with
    | any | ident | pair => exact secret
    | _ => exact ⟨secret, trivial⟩
  | unifyName p q place =>
    cases p with
    | any | ident => trivial
    | _ => exact ⟨secret, trivial⟩
  | unifyPair p q place =>
    cases p with
    | any | ident => exact secret
    | pair head tail =>
      cases q with
      | pair head' tail' => exact ⟨secret, secret⟩
      | _ => trivial
    | _ => exact ⟨secret, trivial⟩
  | resolve p place =>
    cases p with
    | any | ident => trivial
    | pair head tail => exact ⟨fun _ => trivial, fun _ => trivial⟩
    | _ => exact ⟨trivial, trivial⟩

lemma Frame.plan_hidden {inner outer : Level} {frame : Frame g h} {x : g.Result}
    (hf : frame.Like R inner outer frame) (secret : frame.Secret K)
    (fresh : ∀ a ∈ (frame.plan x H).effect.news r, a ∉ K) : ((frame.plan x H).next r).Hidden K := by
  cases hf with
  | choose arms place => exact Arms.planTry_hidden _ _ _ fresh
  | arm e env rest v place =>
    cases x with
    | false => exact Arms.planTry_hidden _ _ _ fresh
    | true => trivial
  | branch | enter | nested | defined | equated => cases x <;> trivial
  | fit p place => exact secret
  | resolved p place =>
    cases x with
    | none => trivial
    | some v => exact secret
  | fitTail | unifyTail =>
    cases x with
    | false => trivial
    | true => exact secret
  | define p place => exact ⟨trivial, place.spares⟩
  | delay m t place =>
    simp only [Frame.plan]
    split
    · exact ⟨fun _ => trivial, fun _ => trivial⟩
    · trivial
  | run place =>
    simp only [Frame.plan]
    split <;> trivial
  | _ => trivial

lemma Join.plan_hidden (join : Join g h) (a b : g.Result)
    (fresh : ∀ x ∈ (join.plan a b H).effect.news r, x ∉ K) :
    ((join.plan a b H).next r).Hidden K := by
  cases join with
  | apply depth => exact Value.planEnter_hidden _ _ _ (fun _ _ => trivial) fresh
  | pair => trivial
  | send delay => cases a <;> trivial
  | meanings => cases a <;> cases b <;> trivial

/-! ### Steps -/

namespace Evaluation

variable {e : Evaluation g} {p q : Plan g}

/-- A step leaves alone what the evaluation keeps clear of, apart from slots. -/
lemma Fires.agree (hfires : e.Fires now H p) (secret : e.Secret H K) (hK : K ⊆ H.dom)
    (allowed : p.effect.Allowed H r) : Space.Agree K H (H.write (p.effect.writes r)) := by
  intro a ha hkind
  refine Space.write_of_not (allowed.lookup_eq_none (hK ha) ?_ ?_)
  · rintro layer b hput rfl
    exact hfires.put_spares hput secret ha
  · rintro slot v _ rfl
    exact hkind rfl

/-- A step that fills no slot leaves a set closed that the evaluation keeps clear of. -/
lemma Fires.closed (hfires : e.Fires now H p) (secret : e.Secret H K) (hK : H.Closed K)
    (allowed : p.effect.Allowed H r) (nofill : ∀ slot v, p.effect ≠ .fill slot v) :
    (H.write (p.effect.writes r)).Closed K := by
  refine hK.keep fun a ha => allowed.lookup_eq_none (hK.subset_dom ha) ?_ ?_
  · rintro layer b hput rfl
    exact hfires.put_spares hput secret ha
  · exact fun slot v hfill => absurd hfill (nofill slot v)

/-- What a step begins keeps clear of what was there. -/
lemma Hidden.secret_next (hdom : H.Closed H.dom) (hfires : e.Fires now H p)
    (he : e.Like (.on H.dom) level e) (hK : K ⊆ H.dom) (allowed : p.effect.Allowed H r)
    (hidden : (∀ a ∈ p.effect.news r, a ∉ K) → (p.next r).Hidden K) :
    (p.next r).Secret (H.write (p.effect.writes r)) K := by
  have hp := hfires.over hdom he
  have hover := hfires.next_over hdom he allowed
  have hclosed := hdom.effect hp.effect (r := r)
  rw [← Space.dom_write hp.effect allowed] at hover hclosed
  refine Hidden.secret hclosed hover ?_ (hidden fun a ha haK => hK haK (allowed.free ha))
  rw [Space.dom_write hp.effect allowed]
  exact hK.trans subset_union_left

/-- The evaluation itself takes a step that fills no slot. It still keeps clear of a closed set. -/
theorem Secret.step (hfires : e.Fires now H p) (hdom : H.Closed H.dom)
    (allowed : p.effect.Allowed H r) (nofill : ∀ slot v, p.effect ≠ .fill slot v)
    (he : e.Like (.on H.dom) level e) (hK : H.Closed K) (secret : e.Secret H K) :
    (p.next r).Secret (H.write (p.effect.writes r)) K := by
  induction hfires generalizing level K with
  | start job =>
    refine Hidden.secret_next hdom (.start job) he hK.subset_dom allowed ?_
    cases he with
    | start hj => exact Job.plan_hidden hj secret
  | read slot => trivial
  | resume x frame =>
    have hresume : Fires now H (.one (.done x) frame) _ := .resume x frame
    refine Hidden.secret_next hdom hresume he hK.subset_dom allowed ?_
    cases he with
    | one _ hframe => exact Frame.plan_hidden hframe secret.1
  | join a b join =>
    have hjoin : Fires now H (.both (.done a) (.done b) join) _ := .join a b join
    exact Hidden.secret_next hdom hjoin he hK.subset_dom allowed (join.plan_hidden a b)
  | one frame _ ih =>
    cases he with
    | one hpart hframe => exact ⟨secret.1, ih allowed nofill hpart hK secret.2⟩
  | bothLeft right join inner ih =>
    cases he with
    | both first second =>
      obtain ⟨⟨K1, hK1, hclosed1, hright, hleft⟩, K2, hK2, hclosed2, ⟨l, hleft'⟩, hright'⟩ := secret
      have hp := inner.over hclosed2 hleft'
      exact ⟨⟨K1, hK1, inner.closed hleft hclosed1 allowed nofill, hright,
          ih allowed nofill first hclosed1 hleft⟩,
        _, hK2.trans subset_union_left, hclosed2.effect hp.effect,
          ⟨l, inner.next_over hclosed2 hleft' allowed⟩, hright'.outside hp.effect allowed second⟩
  | bothRight left join inner ih =>
    cases he with
    | both first second =>
      obtain ⟨⟨K1, hK1, hclosed1, ⟨l, hright⟩, hleft⟩, K2, hK2, hclosed2, hleft', hright'⟩ := secret
      have hp := inner.over hclosed1 hright
      exact ⟨⟨_, hK1.trans subset_union_left, hclosed1.effect hp.effect,
          ⟨l, inner.next_over hclosed1 hright allowed⟩, hleft.outside hp.effect allowed first⟩,
        K2, hK2, inner.closed hright' hclosed2 allowed nofill, hleft',
          ih allowed nofill second hclosed2 hright'⟩

end Evaluation

/-- An evaluation with parts that are not run as statements side by side. -/
def Evaluation.Compound : {g : Goal} → Evaluation g → Prop
  | _, .one .. => True
  | _, .both .. => True
  | _, _ => False

/-- Two plans can be carried out in either order: each is still there after the other, and it does
not matter which one comes first. -/
structure Plan.Apart (now : Millis) (H : Space) (p q : Plan g) : Prop where
  layers : ∀ layer b b', p.effect = .put layer b → q.effect ≠ .put layer b'
  compound : ∀ r, (p.next r).Compound ∧ (q.next r).Compound
  meet : ∃ p' q' : Feedback → Plan g,
    (∀ r, p.effect.Allowed H r → (p.next r).Fires now (H.write (p.effect.writes r)) (q' r)) ∧
    (∀ r, q.effect.Allowed H r → (q.next r).Fires now (H.write (q.effect.writes r)) (p' r)) ∧
    (∀ r, (q' r).effect = q.effect ∧ (p' r).effect = p.effect) ∧
    ∀ r r', (q' r).next r' = (p' r').next r

lemma Plan.Apart.symm {p q : Plan g} (h : p.Apart now H q) : q.Apart now H p := by
  obtain ⟨hlayers, hcompound, p', q', hq, hp, heffect, hnext⟩ := h
  exact ⟨fun layer b b' hb hb' => hlayers layer b' b hb' hb, fun r => (hcompound r).symm,
    q', p', hp, hq, fun r => (heffect r).symm, fun r r' => (hnext r' r).symm⟩

/-- Plans that can be carried out in either order stay so inside of an evaluation. -/
lemma Plan.Apart.map {p q : Plan g} (hpq : p.Apart now H q)
    {C : Evaluation g → Evaluation h} (hC : ∀ e, (C e).Compound)
    (lift : ∀ {H e p}, e.Fires now H p → (C e).Fires now H (p.map C)) :
    (p.map C).Apart now H (q.map C) := by
  obtain ⟨hlayers, _, p', q', hq, hp, heffect, hnext⟩ := hpq
  exact ⟨hlayers, fun _ => ⟨hC _, hC _⟩, fun r => (p' r).map C, fun r => (q' r).map C,
    fun r allowed => lift (hq r allowed), fun r allowed => lift (hp r allowed), heffect,
    fun r r' => congrArg C (hnext r r')⟩

namespace Evaluation

/-- Plans of two parts that run side by side and keep clear of each other. -/
lemma Secret.apart {left right : Evaluation g} {join : Join g h} {p q : Plan g}
    (secret : (both left right join).Secret H K) (hp : left.Fires now H p)
    (hq : right.Fires now H q) :
    (p.map (.both · right join)).Apart now H (q.map (.both left · join)) := by
  obtain ⟨⟨K1, _, hclosed1, ⟨l1, hright⟩, hleft⟩, K2, _, hclosed2, ⟨l2, hleft'⟩, hright'⟩ := secret
  refine ⟨?_, fun _ => ⟨trivial, trivial⟩, fun r' => p.map (.both · (q.next r') join),
    fun r => q.map (.both (p.next r) · join), ?_, ?_, fun _ => ⟨rfl, rfl⟩, fun _ _ => rfl⟩
  · intro layer b b' hput hput'
    have hover := (hq.over hclosed1 hright).effect
    rw [show q.effect = .put layer b' from hput'] at hover
    cases hover with
    | put same _ => exact hp.put_spares hput hleft same.2
  · intro r allowed
    exact .bothRight _ _ (hq.congr hclosed1 hright (hp.agree hleft hclosed1.subset_dom allowed))
  · intro r allowed
    exact .bothLeft _ _ (hp.congr hclosed2 hleft' (hq.agree hright' hclosed2.subset_dom allowed))

/-- Two plans of an evaluation are the same, or can be carried out in either order. -/
theorem Fires.apart {e : Evaluation g} {p q : Plan g} (hp : e.Fires now H p) (hq : e.Fires now H q)
    (secret : e.Secret H K) : p = q ∨ p.Apart now H q := by
  induction hp generalizing K with
  | start | read =>
    cases hq
    exact .inl rfl
  | resume x frame =>
    cases hq with
    | resume => exact .inl rfl
    | one _ inner => exact absurd inner not_fires_done
  | join a b join =>
    cases hq with
    | join => exact .inl rfl
    | bothLeft _ _ inner | bothRight _ _ inner => exact absurd inner not_fires_done
  | one frame inner ih =>
    cases hq with
    | resume => exact absurd inner not_fires_done
    | one _ inner' =>
      rcases ih inner' secret.2 with rfl | hapart
      · exact .inl rfl
      · exact .inr (hapart.map (fun _ => trivial) (.one frame))
  | bothLeft right join inner ih =>
    cases hq with
    | join => exact absurd inner not_fires_done
    | bothLeft _ _ inner' =>
      obtain ⟨K1, _, _, _, hleft⟩ := secret.1
      rcases ih inner' hleft with rfl | hapart
      · exact .inl rfl
      · exact .inr (hapart.map (fun _ => trivial) (.bothLeft right join))
    | bothRight _ _ inner' => exact .inr (secret.apart inner inner')
  | bothRight left join inner ih =>
    cases hq with
    | join => exact absurd inner not_fires_done
    | bothLeft _ _ inner' => exact .inr (secret.apart inner' inner).symm
    | bothRight _ _ inner' =>
      obtain ⟨K2, _, _, _, hright⟩ := secret.2
      rcases ih inner' hright with rfl | hapart
      · exact .inl rfl
      · exact .inr (hapart.map (fun _ => trivial) (.bothRight left join))

end Evaluation

end Troupe
