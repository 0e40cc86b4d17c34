import Mathlib.Algebra.Order.Group.Multiset
import Troupe.Proofs.Privacy

/-!
Statements side by side, in no order.

A `Soup` is what runs, as a multiset: the statements of all sequences that have begun, or a single
expression. It takes steps (`Soup.Moves`) on a space. In a sound soup (`Soup.Sound`) steps do not
disturb each other, so it does not matter which one is taken first.

* `Soup.Sound.after`: steps keep a soup sound.
* `Soup.Moves.apart`: two steps are the same, or can be taken in either order.
* `Soup.Path.advance`: if a number of steps lead to the end, then whichever step is taken first,
  with the right response one step less leads to the same end.
* `Soup.Path.not_hopeless`: if steps lead to the end, none of them is hopeless.
-/

namespace Troupe

open Multiset Space

/-! ### Effects one after the other -/

namespace Effect

/-- There is a response to the effect, as far as slots are concerned. -/
def Ready (H : Space) : Effect → Prop
  | fill slot v =>
    H ⟨.slot, slot⟩ = some (.slot Option.none) ∨ H ⟨.slot, slot⟩ = some (.slot (some v))
  | read slot => ∃ v, H ⟨.slot, slot⟩ = some (.slot (some v))
  | lost => False
  | _ => True

/-- There will never be a response to the effect. -/
def Hopeless (H : Space) : Effect → Prop
  | fill slot v => ∃ c, H ⟨.slot, slot⟩ = some c ∧ c ≠ .slot Option.none ∧ c ≠ .slot (some v)
  | lost => True
  | _ => False

variable {H : Space} {ε ε' : Effect} {r r' : Feedback}

lemma Hopeless.not_allowed (hopeless : ε.Hopeless H) : ¬ ε.Allowed H r := by
  intro allowed
  cases ε with
  | fill slot v =>
    obtain ⟨c, hc, hnone, hsome⟩ := hopeless
    rcases allowed with h | h <;> rw [h] at hc <;> cases hc
    · exact hnone rfl
    · exact hsome rfl
  | lost => exact allowed
  | _ => exact hopeless

/-- What was written stays, but for unbound slots and layers. -/
lemma Allowed.keep (allowed : ε.Allowed H r) {slot : Nat} {c : Content}
    (hc : H ⟨.slot, slot⟩ = some c) (bound : c ≠ .slot Option.none) :
    H.write (ε.writes r) ⟨.slot, slot⟩ = some c := by
  cases hlookup : (ε.writes r).lookup ⟨.slot, slot⟩ with
  | none => exact (write_of_not hlookup).trans hc
  | some c' =>
    rw [write_of_lookup hlookup]
    cases allowed.touches hlookup with
    | new _ free => simp [free] at hc
    | fill room =>
      rcases room with h | h <;> rw [h] at hc <;> cases hc
      · exact absurd rfl bound
      · rfl

lemma Hopeless.keep (hopeless : ε'.Hopeless H) (allowed : ε.Allowed H r) :
    ε'.Hopeless (H.write (ε.writes r)) := by
  cases ε' with
  | fill slot v =>
    obtain ⟨c, hc, hnone, hsome⟩ := hopeless
    exact ⟨c, allowed.keep hc hnone, hnone, hsome⟩
  | lost => trivial
  | _ => exact hopeless

/-- After another effect, an effect is still ready or has become hopeless. -/
lemma Ready.keep (ready : ε'.Ready H) (allowed : ε.Allowed H r) :
    ε'.Ready (H.write (ε.writes r)) ∨ ε'.Hopeless (H.write (ε.writes r)) := by
  cases ε' with
  | fill slot v =>
    rcases ready with h | h
    · cases hlookup : (ε.writes r).lookup ⟨.slot, slot⟩ with
      | none => exact .inl (.inl ((write_of_not hlookup).trans h))
      | some c =>
        have hwrite := write_of_lookup hlookup (H := H)
        cases allowed.touches hlookup with
        | new _ free => simp [free] at h
        | @fill _ w _ _ =>
          by_cases hw : w = v
          · subst hw
            exact .inl (.inr hwrite)
          · exact .inr ⟨_, hwrite, by simp, by simpa using hw⟩
    · exact .inl (.inr (allowed.keep h (by simp)))
  | read slot =>
    obtain ⟨v, hv⟩ := ready
    exact .inl ⟨v, allowed.keep hv (by simp)⟩
  | lost => exact ready.elim
  | _ => exact .inl trivial

/-- What is free after an effect was free before, and is none of what is new. -/
lemma free_of_write {a : Address} (h : H.write (ε.writes r) a = Option.none) :
    H a = Option.none ∧ (ε.writes r).lookup a = Option.none := by
  cases hlookup : (ε.writes r).lookup a with
  | none => exact ⟨(write_of_not hlookup).symm.trans h, rfl⟩
  | some c =>
    rw [write_of_lookup hlookup] at h
    cases h

/-- An effect that is ready, and gets a response after another one, could have got it before. -/
lemma Allowed.back (allowed : ε.Allowed H r) (ready : ε'.Ready H)
    (allowed' : ε'.Allowed (H.write (ε.writes r)) r') : ε'.Allowed H r' := by
  cases ε' with
  | make c => exact (free_of_write allowed').1
  | scope vars =>
    obtain ⟨hid, hlen, hnodup, hfree⟩ := allowed'
    exact ⟨(free_of_write hid).1, hlen, hnodup, fun i hi => (free_of_write (hfree i hi)).1⟩
  | fill slot v => exact ready
  | read slot =>
    obtain ⟨v, hv⟩ := ready
    rw [Allowed, allowed.keep hv (by simp)] at allowed'
    exact hv.trans allowed'
  | lost => exact ready.elim
  | _ => trivial

/-- The second effect writes to nothing that is free at first and new with the first one. -/
lemma Allowed.lookup_news (allowed : ε.Allowed H r)
    (allowed' : ε'.Allowed (H.write (ε.writes r)) r') (ready : ε'.Ready H)
    (there : ∀ layer b, ε' = .put layer b → H ⟨.layer, layer⟩ ≠ Option.none) {a : Address}
    (ha : a ∈ ε.news r) : (ε'.writes r').lookup a = Option.none := by
  have hfree := allowed.free ha
  cases hlookup : (ε'.writes r').lookup a with
  | none => rfl
  | some c' =>
    obtain ⟨c, hc⟩ := lookup_of_news ha
    cases allowed'.touches hlookup with
    | new _ free =>
      rw [write_of_lookup hc] at free
      cases free
    | put => exact absurd hfree (there _ _ rfl)
    | fill _ => rcases ready with h | h <;> simp [hfree] at h

/-- Two effects, one after the other, are allowed in the other order, too. -/
lemma Allowed.forth (allowed : ε.Allowed H r) (allowed' : ε'.Allowed (H.write (ε.writes r)) r')
    (ready : ε'.Ready H) (there : ∀ layer b, ε' = .put layer b → H ⟨.layer, layer⟩ ≠ Option.none) :
    ε.Allowed (H.write (ε'.writes r')) r := by
  have hnews : ∀ a ∈ ε.news r, H.write (ε'.writes r') a = Option.none := fun a ha =>
    (write_of_not (allowed.lookup_news allowed' ready there ha)).trans (allowed.free ha)
  have hback := allowed.back ready allowed'
  cases ε with
  | make c => exact hnews _ rfl
  | scope vars =>
    exact ⟨hnews _ (.inl rfl), allowed.2.1, allowed.2.2.1, fun i hi => hnews _ (.inr ⟨i, hi, rfl⟩)⟩
  | fill slot v =>
    rcases allowed with h | h
    · cases hlookup : (ε'.writes r').lookup ⟨.slot, slot⟩ with
      | none => exact .inl ((write_of_not hlookup).trans h)
      | some c =>
        refine .inr ((write_of_lookup hlookup).trans ?_)
        cases hback.touches hlookup with
        | new _ free => simp [free] at h
        | fill _ =>
          -- the other effect fills the same slot after this one, so with the same value
          have hself : H.write ((fill slot v).writes r) ⟨.slot, slot⟩ = some (.slot (some v)) :=
            write_of_lookup List.lookup_cons_self
          rcases allowed' with h' | h' <;> rw [hself] at h' <;> cases h'
          rfl
    · exact .inr (hback.keep h (by simp))
  | read slot => exact hback.keep allowed (by simp)
  | lost => exact allowed
  | _ => trivial

/-- Two effects, one after the other, write the same in the other order. -/
lemma Allowed.write_comm (allowed : ε.Allowed H r)
    (allowed' : ε'.Allowed (H.write (ε.writes r)) r') (ready : ε'.Ready H)
    (there : ∀ layer b, ε' = .put layer b → H ⟨.layer, layer⟩ ≠ Option.none)
    (layers : ∀ layer b b', ε = .put layer b → ε' ≠ .put layer b') :
    (H.write (ε.writes r)).write (ε'.writes r') = (H.write (ε'.writes r')).write (ε.writes r) := by
  refine Space.write_comm fun a c c' hc hc' => ?_
  cases allowed.touches hc with
  | new fresh _ =>
    rw [allowed.lookup_news allowed' ready there fresh] at hc'
    cases hc'
  | put =>
    cases allowed'.touches hc' with
    | new _ free =>
      rw [write_of_lookup hc] at free
      cases free
    | put => exact absurd rfl (layers _ _ _ rfl)
  | @fill slot v _ _ =>
    cases allowed'.touches hc' with
    | new _ free =>
      rw [write_of_lookup hc] at free
      cases free
    | fill room =>
      rw [write_of_lookup hc] at room
      rcases room with h | h <;> cases h
      rfl

end Effect

/-! ### Threads -/

/-- The statements of a sequence. -/
def Stmt.atoms : Stmt → Multiset Stmt
  | .empty => 0
  | .seq a b => a.atoms + b.atoms
  | s => {s}

/-- What runs side by side in an evaluation. Statements that are done are left out. -/
def Evaluation.threads : {g : Goal} → Evaluation g → Multiset Work
  | _, .race left right => left.threads + right.threads
  | _, .start (.exec s here) => s.atoms.map fun a => ⟨.outcome, .start (.exec a here)⟩
  | .outcome, .done .ok => 0
  | _, e => {⟨_, e⟩}

/-- Two threads are like each other. -/
inductive Work.Like (R : Likeness) : Work → Work → Prop where
  | mk {g : Goal} {e e' : Evaluation g} (e_like : e.Like R .layer e') : Like R ⟨g, e⟩ ⟨g, e'⟩

/-- A thread mentions no addresses but those of the set. -/
def Work.Over (K : Set Address) (w : Work) : Prop := w.evaluation.Like (.on K) .layer w.evaluation

variable {R R' : Likeness} {g : Goal} {now : Millis} {H : Space} {K K' : Set Address}

lemma Work.Like.mono {w w' : Work} (hR : R ≤ R') (h : w.Like R w') : w.Like R' w' := by
  cases h with
  | mk he => exact .mk (he.mono hR)

lemma Work.Over.mono {w : Work} (hK : K ⊆ K') (h : w.Over K) : w.Over K' :=
  Evaluation.Like.mono (Likeness.on_mono hK) h

lemma Stmt.Like.atoms {s s' : Stmt} (h : s.Like R s') : Rel (Stmt.Like R) s.atoms s'.atoms := by
  cases h with
  | empty => exact .zero
  | seq first second => exact first.atoms.add second.atoms
  | define p e => exact .cons (.define p e) .zero
  | equate p q => exact .cons (.equate p q) .zero
  | send m t => exact .cons (.send m t) .zero
  | after d m t => exact .cons (.after d m t) .zero
  | create name e => exact .cons (.create name e) .zero
  | become e => exact .cons (.become e) .zero
  | throw e => exact .cons (.throw e) .zero
  | expr e => exact .cons (.expr e) .zero

/-- The threads of evaluations that are like each other. -/
lemma Evaluation.Like.threads {e e' : Evaluation g} (h : e.Like R .layer e') :
    Rel (Work.Like R) e.threads e'.threads := by
  have hself : Rel (Work.Like R) {⟨g, e⟩} {⟨g, e'⟩} := .cons (.mk h) .zero
  cases h with
  | @done _ g r r' answer =>
    cases g with
    | outcome =>
      cases answer with
      | ok => exact .zero
      | become _ => exact hself
    | _ => exact hself
  | start hj =>
    cases hj with
    | exec hs place =>
      refine rel_map.2 (hs.atoms.mono fun _ _ _ _ ha => ?_)
      exact .mk (.start (.exec ha place))
    | _ => exact hself
  | parked | one | both => exact hself

/-- The threads of an evaluation over a set are over it. -/
lemma Evaluation.over_threads {e : Evaluation g} (he : e.Like (.on K) .layer e) :
    ∀ w ∈ e.threads, w.Over K := by
  intro w hw
  obtain ⟨w', _, hlike⟩ := exists_mem_of_rel_of_mem he.threads hw
  cases hlike with
  | mk h =>
    have heq := h.eq (Likeness.diagonal_on K)
    subst heq
    exact h

/-- An evaluation is one thread, or its threads have not begun. -/
lemma Evaluation.Like.single_or {e : Evaluation g} (he : e.Like R .layer e) :
    e.threads = {⟨g, e⟩} ∨ ∀ w ∈ e.threads, ∀ H K, w.evaluation.Secret H K := by
  cases he with
  | @done _ g r r' answer =>
    cases g with
    | outcome =>
      cases answer with
      | ok => exact .inr fun _ hw => absurd hw (notMem_zero _)
      | become _ => exact .inl rfl
    | _ => exact .inl rfl
  | start hj =>
    cases hj with
    | exec hs place =>
      refine .inr fun w hw H K => ?_
      obtain ⟨a, _, rfl⟩ := mem_map.1 hw
      trivial
    | _ => exact .inl rfl
  | parked | one | both => exact .inl rfl

lemma Evaluation.Compound.threads {e : Evaluation g} (h : e.Compound) : e.threads = {⟨g, e⟩} := by
  cases e with
  | one | both => rfl
  | _ => exact h.elim

/-! ### Steps -/

/-- What runs, the space it runs on, and what was sent. -/
structure Soup where
  threads : Multiset Work
  space : Space
  sends : Multiset PendingSend

/-- A step of a soup. -/
structure Move where
  effect : Effect
  next : Feedback → Multiset Work

namespace Soup

/-- The steps that the threads plan. -/
inductive Moves (now : Millis) (st : Soup) : Move → Prop where
  | mk {g : Goal} {e : Evaluation g} {rest : Multiset Work} {p : Plan g}
      (here : st.threads = ⟨g, e⟩ ::ₘ rest) (fires : e.Fires now st.space p) :
      Moves now st ⟨p.effect, fun r => (p.next r).threads + rest⟩

/-- The soup after a step. -/
def after (st : Soup) (m : Move) (r : Feedback) : Soup :=
  ⟨m.next r, st.space.write (m.effect.writes r), st.sends + m.effect.sends⟩

/-- Nothing dangles, and threads keep clear of each other. -/
structure Sound (st : Soup) : Prop where
  closed : st.space.Closed st.space.dom
  spans : ∀ w ∈ st.threads, w.Over st.space.dom
  secret : ∀ w rest, st.threads = w ::ₘ rest → ∃ K, st.space.Closed K ∧ (∀ u ∈ rest, u.Over K) ∧
    w.evaluation.Secret st.space K

/-- A job that is alone, and mentions only what is there. -/
lemma Sound.single {job : Job g} (closed : H.Closed H.dom)
    (inside : job.Like (.on H.dom) .layer job)
    (sends : Multiset PendingSend) : Sound ⟨{⟨g, .start job⟩}, H, sends⟩ := by
  refine ⟨closed, fun w hw => ?_, fun w rest hw => ⟨∅, ⟨fun h => h.2.elim⟩, ?_, ?_⟩⟩
  · obtain rfl := mem_singleton.1 hw
    exact .start inside
  · obtain ⟨_, rfl⟩ := singleton_eq_cons_iff _ |>.1 hw
    exact fun u hu => absurd hu (notMem_zero u)
  · obtain ⟨rfl, _⟩ := singleton_eq_cons_iff _ |>.1 hw
    cases job with
    | fit | unify | unifyName | unifyPair => exact fun _ _ _ => Set.notMem_empty _
    | _ => trivial

variable {st st' : Soup} {m n : Move} {r r' : Feedback}

/-- After a step, the thread that took it keeps clear of the others. -/
lemma Sound.secret_own (sound : st.Sound) {e : Evaluation g} {p : Plan g} {rest : Multiset Work}
    (here : st.threads = ⟨g, e⟩ ::ₘ rest) (fires : e.Fires now st.space p)
    (allowed : p.effect.Allowed st.space r)
    (closed : (st.space.write (p.effect.writes r)).Closed (st.space.write (p.effect.writes r)).dom)
    (spans : ∀ u ∈ rest, u.Over (st.space.write (p.effect.writes r)).dom) :
    ∃ K, (st.space.write (p.effect.writes r)).Closed K ∧ (∀ u ∈ rest, u.Over K) ∧
      (p.next r).Secret (st.space.write (p.effect.writes r)) K := by
  have he : (⟨g, e⟩ : Work).Over st.space.dom := sound.spans _ (by simp [here])
  by_cases hfill : ∃ slot v, p.effect = .fill slot v
  · obtain ⟨slot, v, hfill⟩ := hfill
    exact ⟨_, closed, spans, (fires.fill_secret hfill he).2 r _ _⟩
  · simp only [not_exists] at hfill
    obtain ⟨K, hK, hrest, hsecret⟩ := sound.secret _ _ here
    exact ⟨K, fires.closed hsecret hK allowed hfill, hrest,
      hsecret.step fires sound.closed allowed hfill he hK⟩

/-- After a step, the other threads keep clear of the one that took it. -/
lemma Sound.secret_other (sound : st.Sound) {e : Evaluation g} {p : Plan g} {w : Work}
    {rest : Multiset Work} (here : st.threads = ⟨g, e⟩ ::ₘ w ::ₘ rest)
    (fires : e.Fires now st.space p) (allowed : p.effect.Allowed st.space r) :
    ∃ K, (st.space.write (p.effect.writes r)).Closed K ∧
      (∀ u ∈ (p.next r).threads + rest, u.Over K) ∧
        w.evaluation.Secret (st.space.write (p.effect.writes r)) K := by
  obtain ⟨K, hK, hrest, hsecret⟩ := sound.secret w (⟨g, e⟩ ::ₘ rest) (by
    rw [here, cons_swap])
  have he : (⟨g, e⟩ : Work).Over K := hrest _ (mem_cons_self _ _)
  have hp := fires.over hK he
  refine ⟨_, hK.effect hp.effect, ?_, hsecret.outside hp.effect allowed
    (sound.spans w (by simp [here]))⟩
  intro u hu
  rcases mem_add.1 hu with hu | hu
  · exact Evaluation.over_threads (fires.next_over hK he allowed) u hu
  · exact (hrest u (mem_cons_of_mem hu)).mono Set.subset_union_left

/-- A step keeps a soup sound. -/
theorem Sound.after (sound : st.Sound) (moves : st.Moves now m)
    (allowed : m.effect.Allowed st.space r) : (st.after m r).Sound := by
  obtain ⟨here, fires⟩ := moves
  rename_i g e rest p
  have he : (⟨g, e⟩ : Work).Over st.space.dom := sound.spans _ (by simp [here])
  have hp := fires.over sound.closed he
  have hdom := dom_write hp.effect allowed
  have hclosed := sound.closed.effect hp.effect (r := r)
  have hnext := fires.next_over sound.closed he allowed
  rw [← hdom] at hclosed hnext
  have hrest : ∀ u ∈ rest, u.Over (st.space.write (p.effect.writes r)).dom := by
    intro u hu
    rw [hdom]
    exact (sound.spans u (by simp [here, hu])).mono Set.subset_union_left
  have hover : ∀ w ∈ (p.next r).threads + rest,
      w.Over (st.space.write (p.effect.writes r)).dom := by
    intro w hw
    rcases mem_add.1 hw with hw | hw
    · exact Evaluation.over_threads hnext w hw
    · exact hrest w hw
  refine ⟨hclosed, hover, ?_⟩
  intro w rest' heq
  replace heq : (p.next r).threads + rest = w ::ₘ rest' := heq
  by_cases hwn : w ∈ (p.next r).threads
  · rcases Evaluation.Like.single_or hnext with hsingle | hall
    · rw [hsingle, mem_singleton] at hwn
      subst hwn
      rw [hsingle, singleton_add, cons_inj_right] at heq
      subst heq
      exact sound.secret_own here fires allowed hclosed hrest
    · rw [heq] at hover
      exact ⟨_, hclosed, fun u hu => hover u (mem_cons_of_mem hu), hall w hwn _ _⟩
  · have hw : w ∈ rest := by
      have hmem : w ∈ (p.next r).threads + rest := by simp [heq]
      exact (mem_add.1 hmem).resolve_left hwn
    obtain ⟨others, rfl⟩ := exists_cons_of_mem hw
    rw [add_cons, cons_inj_right] at heq
    subst heq
    exact sound.secret_other here fires allowed

end Soup

/-- Two steps can be taken in either order. -/
structure Move.Apart (now : Millis) (st : Soup) (m n : Move) : Prop where
  layers : ∀ layer b b', m.effect = .put layer b → n.effect ≠ .put layer b'
  meet : ∃ m' n' : Feedback → Move,
    (∀ r, m.effect.Allowed st.space r → (st.after m r).Moves now (n' r)) ∧
    (∀ r, n.effect.Allowed st.space r → (st.after n r).Moves now (m' r)) ∧
    (∀ r, (n' r).effect = n.effect ∧ (m' r).effect = m.effect) ∧
    ∀ r r', (n' r).next r' = (m' r').next r

namespace Soup

variable {st st' : Soup} {m n : Move} {r r' : Feedback}

/-- Two steps of a soup are the same, or can be taken in either order. -/
theorem Moves.apart (sound : st.Sound) (hm : st.Moves now m) (hn : st.Moves now n) :
    m = n ∨ m.Apart now st n := by
  obtain ⟨here, fires⟩ := hm
  rename_i g e rest p
  obtain ⟨here', fires'⟩ := hn
  rename_i g' e' rest' q
  obtain ⟨K, hK, hrest, hsecret⟩ := sound.secret _ _ here
  rcases cons_eq_cons.1 (here.symm.trans here') with ⟨heq, rfl⟩ | ⟨_, others, rfl, rfl⟩
  · -- two steps of one thread
    cases heq
    rcases fires.apart fires' hsecret with rfl | hapart
    · exact .inl rfl
    · obtain ⟨hlayers, hcompound, p', q', hq, hp, heffect, hnext⟩ := hapart
      refine .inr ⟨hlayers, fun r => ⟨(p' r).effect, fun r' => ((p' r).next r').threads + rest⟩,
        fun r => ⟨(q' r).effect, fun r' => ((q' r).next r').threads + rest⟩, ?_, ?_, heffect, ?_⟩
      · intro r allowed
        refine .mk ?_ (hq r allowed)
        exact congrArg (· + rest) (hcompound r).1.threads
      · intro r allowed
        refine .mk ?_ (hp r allowed)
        exact congrArg (· + rest) (hcompound r).2.threads
      · intro r r'
        dsimp only
        rw [hnext r r']
  · -- steps of two threads
    obtain ⟨K', hK', hrest', hsecret'⟩ := sound.secret _ _ here'
    have he : (⟨g, e⟩ : Work).Over K' := hrest' _ (mem_cons_self _ _)
    have he' : (⟨g', e'⟩ : Work).Over K := hrest _ (mem_cons_self _ _)
    refine .inr
      ⟨?_, fun r' => ⟨p.effect, fun r => (p.next r).threads + ((q.next r').threads + others)⟩,
      fun r => ⟨q.effect, fun r' => (q.next r').threads + ((p.next r).threads + others)⟩, ?_, ?_,
      fun _ => ⟨rfl, rfl⟩, fun r r' => add_left_comm _ _ _⟩
    · intro layer b b' hput hput'
      have hover := (fires'.over hK he').effect
      rw [show q.effect = .put layer b' from hput'] at hover
      cases hover with
      | put same _ => exact fires.put_spares hput hsecret same.2
    · intro r allowed
      refine .mk ?_ (fires'.congr hK he' (fires.agree hsecret hK.subset_dom allowed))
      exact add_cons _ _ _
    · intro r allowed
      refine .mk ?_ (fires.congr hK' he (fires'.agree hsecret' hK'.subset_dom allowed))
      exact add_cons _ _ _

/-! ### Paths to the end -/

/-- Everything is done. -/
def Final (st : Soup) : Prop := ∀ w ∈ st.threads, ∃ r, w.evaluation = .done r

lemma Final.not_moves (final : st.Final) : ¬ st.Moves now m := by
  rintro ⟨here, fires⟩
  rename_i g e rest p
  obtain ⟨r, hr⟩ := final ⟨g, e⟩ (by rw [here]; exact mem_cons_self _ _)
  rw [show e = .done r from hr] at fires
  exact Evaluation.not_fires_done fires

/-- A number of steps. -/
inductive Path (now : Millis) : Nat → Soup → Soup → Prop where
  | refl (st : Soup) : Path now 0 st st
  | step {n : Nat} {st st' : Soup} {m : Move} {r : Feedback} (moves : st.Moves now m)
      (allowed : m.effect.Allowed st.space r) (rest : Path now n (st.after m r) st') :
      Path now (n + 1) st st'

lemma Path.trans {k l : Nat} {st1 st2 st3 : Soup} (first : Path now k st1 st2)
    (second : Path now l st2 st3) : Path now (l + k) st1 st3 := by
  induction first with
  | refl st => exact second
  | step moves allowed _ ih => exact .step moves allowed (ih second)

/-- If steps lead to the end, none of them is hopeless. -/
theorem Path.not_hopeless {k : Nat} (path : Path now k st st') (final : st'.Final)
    (sound : st.Sound) (moves : st.Moves now m) : ¬ m.effect.Hopeless st.space := by
  induction path generalizing m with
  | refl st => exact absurd moves final.not_moves
  | @step k st st' n r moves' allowed _ ih =>
    intro hopeless
    rcases Moves.apart sound moves moves' with rfl | ⟨_, m', n', _, hm, heffect, _⟩
    · exact hopeless.not_allowed allowed
    · refine ih final (sound.after moves' allowed) (hm r allowed) ?_
      rw [(heffect r).2]
      exact hopeless.keep allowed

/-- Layers that are set are there. -/
lemma Moves.layer_there (sound : st.Sound) (moves : st.Moves now m) {layer : Nat}
    {b : String → Option Value} (h : m.effect = .put layer b) :
    st.space ⟨.layer, layer⟩ ≠ none := by
  obtain ⟨here, fires⟩ := moves
  rename_i g e rest p
  have he : (⟨g, e⟩ : Work).Over st.space.dom := sound.spans _ (by simp [here])
  have hover := (fires.over sound.closed he).effect
  rw [show p.effect = .put layer b from h] at hover
  cases hover with
  | put same _ => exact same.2

/-- If a number of steps lead to the end, then whichever step is taken first, with the right
response one step less leads to the same end. -/
theorem Path.advance {k : Nat} (path : Path now k st st') (final : st'.Final) (sound : st.Sound)
    (moves : st.Moves now m) (ready : m.effect.Ready st.space) :
    ∃ l r, k = l + 1 ∧ m.effect.Allowed st.space r ∧ Path now l (st.after m r) st' := by
  induction path generalizing m with
  | refl st => exact absurd moves final.not_moves
  | @step k st st' n r moves' allowed rest ih =>
    rcases Moves.apart sound moves moves' with rfl | ⟨hlayers, m', n', hn, hm, heffect, hnext⟩
    · exact ⟨k, r, rfl, allowed, rest⟩
    · have hsound := sound.after moves' allowed
      have hready : (m' r).effect.Ready (st.after n r).space := by
        rw [(heffect r).2]
        refine (ready.keep allowed).resolve_right fun hopeless => ?_
        refine rest.not_hopeless final hsound (hm r allowed) ?_
        rwa [(heffect r).2]
      obtain ⟨l, r', rfl, hallowed, hpath⟩ := ih final hsound (hm r allowed) hready
      rw [(heffect r).2] at hallowed
      -- the step that came first comes second now
      have hback : m.effect.Allowed st.space r' := allowed.back ready hallowed
      have hthere := fun layer b (h : m.effect = .put layer b) => moves.layer_there sound h
      refine ⟨l + 1, r', rfl, hback, .step (hn r' hback) (r := r) ?_ ?_⟩
      · rw [(heffect r').1]
        exact allowed.forth hallowed ready hthere
      · convert hpath using 1
        have hspace := allowed.write_comm hallowed ready hthere fun layer b b' h h' =>
          hlayers layer b' b h' h
        simp only [Soup.after, (heffect r).2, (heffect r').1, hnext r' r]
        rw [hspace, add_right_comm]

end Soup

end Troupe
