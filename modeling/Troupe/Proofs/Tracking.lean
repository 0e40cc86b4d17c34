import Mathlib.Data.Prod.Lex
import Troupe.Proofs.Halting
import Troupe.Proofs.SoupSteps

/-!
Trees that follow a soup to its end.

Suppose that some steps of a soup lead to its end. A tree that is like the soup cannot miss this
end: each of its small steps is a step of the soup, and as steps may be taken in any order, what is
left of the way gets shorter by it. So the tree halts, it does not get stuck, and it ends with the
same answer, up to the numbers of what is new.

* `Soup.Path.follow`: steps of a soup, followed by another one that is like it.
* `Evaluation.Tracks`: a tree on its way to the end of a soup.
* `Evaluation.Tracks.micro`, `Evaluation.Tracks.halts`, `Evaluation.Tracks.not_idle`
-/

namespace Troupe

open Evaluation Multiset Option

variable {R R' : Likeness} {now : Millis} {H H' : Space}

/-! ### Responses on both sides -/

namespace Space.Like

variable {i j : Nat} {v? : Option Value}

/-- Slots that are related are bound alike. -/
lemma slot (hH : H.Like R H') (same : R .slot i j) (h : H ⟨.slot, i⟩ = some (.slot v?)) :
    ∃ w?, H' ⟨.slot, j⟩ = some (.slot w?) ∧ Rel (Value.Like R) v? w? := by
  obtain ⟨c, c', hc, hc', hlike⟩ := hH.at_related same
  rw [h] at hc
  cases hc
  cases hlike with
  | slot each => exact ⟨_, hc', each⟩

lemma slot_symm (hH : H.Like R H') (same : R .slot i j) (h : H' ⟨.slot, j⟩ = some (.slot v?)) :
    ∃ w?, H ⟨.slot, i⟩ = some (.slot w?) ∧ Rel (Value.Like R) w? v? := by
  obtain ⟨c, c', hc, hc', hlike⟩ := hH.at_related same
  rw [h] at hc'
  cases hc'
  cases hlike with
  | slot each => exact ⟨_, hc, each⟩

end Space.Like

namespace Effect.Like

variable {ε ε' : Effect} {r : Feedback}

/-- An effect with a response on one side is ready on the other. -/
lemma ready (hε : ε.Like R ε') (unique : R.Unique) (hH : H.Like R H') (allowed : ε.Allowed H r) :
    ε'.Ready H' := by
  cases hε with
  | fill same v_like =>
    rcases allowed with h | h
    · obtain ⟨_, hw, ⟨⟩⟩ := hH.slot same h
      exact .inl hw
    · obtain ⟨_, hw, hlike⟩ := hH.slot same h
      cases hlike with
      | some hlike =>
        rw [(Value.Like.eq_iff unique hlike v_like).1 rfl] at hw
        exact .inr hw
  | read same =>
    obtain ⟨_, hw, hlike⟩ := hH.slot same allowed
    cases hlike
    exact ⟨_, hw⟩
  | lost => exact allowed.elim
  | _ => trivial

/-- An effect that is hopeless on one side is hopeless on the other. -/
lemma hopeless (hε : ε.Like R ε') (unique : R.Unique) (hH : H.Like R H') (h : ε.Hopeless H) :
    ε'.Hopeless H' := by
  cases hε with
  | fill same v_like =>
    obtain ⟨c, hc, hnone, hsome⟩ := h
    obtain ⟨_, c', hd, hc', _⟩ := hH.at_related same
    have hback : ∀ {v? : Option Value}, c' = .slot v? →
        ∃ w?, c = .slot w? ∧ Rel (Value.Like R) w? v? := by
      rintro v? rfl
      obtain ⟨w?, hw, hlike⟩ := hH.slot_symm same hc'
      exact ⟨w?, some.inj (hc.symm.trans hw), hlike⟩
    refine ⟨c', hc', fun h => ?_, fun h => ?_⟩
    · obtain ⟨_, rfl, ⟨⟩⟩ := hback h
      exact hnone rfl
    · obtain ⟨_, rfl, hlike⟩ := hback h
      cases hlike with
      | some hlike => exact hsome (by rw [(Value.Like.eq_iff unique hlike v_like).2 rfl])
  | lost => trivial
  | _ => exact h.elim

lemma sends (hε : ε.Like R ε') : Rel (PendingSend.Like R) ε.sends ε'.sends := by
  cases hε with
  | send x_like => exact .cons x_like .zero
  | _ => exact .zero

end Effect.Like

/-! ### Steps of soups that are like each other -/

/-- Two steps are like each other. -/
structure Move.Like (R : Likeness) (m m' : Move) : Prop where
  effect : m.effect.Like R m'.effect
  next : ∀ {R' : Likeness} {r r' : Feedback}, R ≤ R' → m.effect.Replies R' r r' →
    Multiset.Rel (Work.Like R') (m.next r) (m'.next r')

namespace Soup

/-- Two soups are like each other. -/
structure Like (R : Likeness) (a st : Soup) : Prop where
  unique : R.Unique
  space : a.space.Like R st.space
  threads : Multiset.Rel (Work.Like R) a.threads st.threads
  sends : Multiset.Rel (PendingSend.Like R) a.sends st.sends

variable {a b st st' F : Soup} {m m' : Move} {r r' : Feedback} {j k : Nat}

/-- A step on one side is a step on the other. -/
lemma Like.moves (like : a.Like R st) (moves : a.Moves now m) :
    ∃ m', st.Moves now m' ∧ m.Like R m' := by
  obtain ⟨here, fires⟩ := moves
  have hthreads := like.threads
  rw [here] at hthreads
  obtain ⟨w', rest', ⟨he⟩, hrest, here'⟩ := rel_cons_left.1 hthreads
  obtain ⟨p', fires', hp⟩ := fires.like like.unique like.space.sees he
  refine ⟨_, .mk here' fires', hp.effect, fun hR replies => ?_⟩
  exact (hp.next hR replies).threads.add (hrest.mono fun _ _ _ _ hw => hw.mono hR)

/-- After a step on both sides. -/
lemma Like.after (like : a.Like R st) (hm : m.Like R m') (allowed : m.effect.Allowed a.space r)
    (allowed' : m'.effect.Allowed st.space r') :
    ∃ R', R ≤ R' ∧ (a.after m r).Like R' (st.after m' r') := by
  obtain ⟨R', hR, unique, replies, hspace⟩ :=
    Effect.exists_like like.unique like.space hm.effect allowed allowed'
  refine ⟨R', hR, unique, hspace, hm.next hR replies, ?_⟩
  exact (like.sends.add hm.effect.sends).mono fun _ _ _ _ hx => hx.mono hR

/-- Steps of a soup, followed by another one that is on its way to an end. -/
theorem Path.follow (path : Path now j a b) :
    ∀ {R : Likeness} {k : Nat} {st : Soup}, a.Like R st → st.Sound → Path now k st F → F.Final →
      ∃ R' k' st', R ≤ R' ∧ b.Like R' st' ∧ st'.Sound ∧ Path now k' st' F ∧ k = k' + j := by
  induction path with
  | refl a => exact fun like sound goal _ => ⟨_, _, _, le_rfl, like, sound, goal, rfl⟩
  | @step j a b m r moves allowed _ ih =>
    intro R k st like sound goal final
    obtain ⟨m', moves', hm⟩ := like.moves moves
    have hready := hm.effect.ready like.unique like.space allowed
    obtain ⟨l, r', rfl, allowed', goal'⟩ := goal.advance final sound moves' hready
    obtain ⟨R1, hR1, like'⟩ := like.after hm allowed allowed'
    obtain ⟨R', k', st', hR', like'', sound', goal'', rfl⟩ :=
      ih like' (sound.after moves' allowed') goal' final
    exact ⟨R', k', st', hR1.trans hR', like'', sound', goal'', rfl⟩

/-- What is done stays. -/
lemma Path.keeps_done {D : Multiset Work} (done : ∀ w ∈ D, ∃ r, w.evaluation = .done r)
    (path : Path now k st st') : D ≤ st.threads → D ≤ st'.threads := by
  induction path with
  | refl st => exact id
  | step moves _ _ ih =>
    intro hD
    refine ih ?_
    cases moves with
    | @mk g e rest p here fires =>
      rw [here] at hD
      have hnot : (⟨g, e⟩ : Work) ∉ D := by
        intro hmem
        obtain ⟨x, hx⟩ := done _ hmem
        rw [show e = .done x from hx] at fires
        exact not_fires_done fires
      exact ((le_cons_of_notMem hnot).1 hD).trans (le_add_left _ _)

/-- Steps keep a soup sound. -/
lemma Path.sound (path : Path now k st st') (sound : st.Sound) : st'.Sound := by
  induction path with
  | refl st => exact sound
  | step moves allowed _ ih => exact ih (sound.after moves allowed)

/-- A soup that is done takes no steps. -/
lemma Path.eq_of_final (path : Path now k st F) (final : st.Final) : st = F := by
  cases path with
  | refl => rfl
  | step moves _ _ => exact absurd moves final.not_moves

/-- Everything is done, and there is one answer at most. -/
structure Ends (F : Soup) : Prop where
  final : F.Final
  single : Multiset.card F.threads ≤ 1

end Soup

/-! ### Runs that end well -/

namespace Evaluation

variable {cx : Context} {i n k : Nat} {g : Goal} {f f' : Evaluation g}
  {ds : List Work} {c c' : Core} {level : Level}

/-- A tree that is doomed ends doomed, or with a new actor. -/
lemma Steps.ruined (hs : Steps cx k f c f' ds c') :
    c.Staged cx.transaction n → f.Doomed level ∨ c.Staged cx.transaction (n + 1) →
      f'.Doomed level ∨ c'.Staged cx.transaction (n + 1) := by
  induction hs with
  | refl f c => exact fun _ h => h
  | park slot who _ ih => exact ih
  | step first _ ih =>
    exact fun staged h => ih (first.staged staged)
      (h.elim (first.doomed · staged) fun more => .inr (first.staged more))

lemma soup_park (f : Evaluation g) (c : Core) (i slot : Nat) (who : Waiter) :
    f.soup { c with heap := c.heap.park slot who } i = f.soup c i := by
  simp only [soup, Heap.space_park, Core.sends]

/-- A tree with a sound soup, which binds names where it should: in frames that `old` does not
have. -/
structure Proper (cx : Context) (made : Array StagedActor) (tidy : Prop) (old : Heap)
    (f : Evaluation g) (c : Core) : Prop where
  flat : f.flat = f
  gathers : c.Gathers cx.transaction made
  sound : (f.soup c cx.transaction).Sound
  room : old.Anchors c.heap
  code : tidy → c.heap.Tidy
  guarded : f.Guarded tidy old c.heap

section Proper

variable {made : Array StagedActor} {tidy : Prop} {old : Heap}

lemma Proper.park (h : Proper cx made tidy old f c) (slot : Nat) (who : Waiter) :
    Proper cx made tidy old f { c with heap := c.heap.park slot who } where
  flat := h.flat
  gathers := h.gathers
  sound := by rw [soup_park]; exact h.sound
  room := h.room.trans (c.heap.anchors_park slot who)
  code ht := (h.code ht).of_eq rfl rfl
  guarded := h.guarded.mono (c.heap.anchors_park slot who)

/-- A small step that is not in vain takes steps of the soup. -/
lemma Proper.micro (h : Proper cx made tidy old f c) (step : Micro cx f c f' ds c')
    (well : ¬ (f'.Doomed .layer ∨ c'.Staged cx.transaction (made.size + 1))) :
    Proper cx made tidy old f' c' ∧
      ∃ k, Soup.Path cx.now k (f.soup c cx.transaction) (f'.soup c' cx.transaction) := by
  have shelters := step.turns.shelters h.room h.code h.guarded
  obtain ⟨_, echo⟩ := step.echo h.gathers h.sound.closed h.flat fun w hw =>
    ⟨w, .mk (h.sound.spans w hw)⟩
  have hproper : c'.Gathers cx.transaction made → (f'.soup c' cx.transaction).Sound →
      Proper cx made tidy old f' c' := fun gathers sound =>
    ⟨step.flat h.flat, gathers, sound, h.room.trans shelters.anchors, shelters.tidy,
      fun i hi => shelters.guarded i (List.mem_append_left _ hi)⟩
  cases echo with
  | quiet same core less =>
    subst core
    have hsoup : f'.soup c' cx.transaction = f.soup c' cx.transaction := by simp only [soup, same]
    rw [hsoup] at hproper ⊢
    exact ⟨hproper h.gathers h.sound, 0, .refl _⟩
  | path gathers path => exact ⟨hproper (gathers h.gathers) (path.sound h.sound), _, path⟩
  | hopeless moves hopeless ruins => exact absurd (ruins h.guarded) well
  | conflict threads doomed => exact absurd (.inl doomed) well

/-- A run that ends well, and without a new actor, takes steps of the soup of its tree. -/
theorem Steps.path (hs : Steps cx n f c f' ds c') (well : ¬ f'.Doomed .layer)
    (gathers : c'.Gathers cx.transaction made) : Proper cx made tidy old f c →
      Proper cx made tidy old f' c' ∧
        ∃ k, Soup.Path cx.now k (f.soup c cx.transaction) (f'.soup c' cx.transaction) := by
  induction hs with
  | refl f c => exact fun h => ⟨h, 0, .refl _⟩
  | park slot who _ ih =>
    intro h
    rw [← soup_park _ _ _ slot who]
    exact ih well gathers (h.park slot who)
  | step first rest ih =>
    intro h
    obtain ⟨h1, k, path⟩ := h.micro first fun ruin =>
      (rest.ruined (first.staged h.gathers.staged) ruin).elim well gathers.not_staged
    obtain ⟨h', k', path'⟩ := ih well gathers h1
    exact ⟨h', _, path.trans path'⟩

end Proper

end Evaluation

/-! ### Trees on their way -/

namespace Evaluation

variable {cx : Context} {base : Likeness} {made : Array StagedActor} {F : Soup}
  {k n : Nat} {g : Goal} {f f' : Evaluation g} {ds : List Work} {c c' : Core}

/-- The tree is like a soup that is `k` steps away from the end `F`. -/
structure Tracks (cx : Context) (base : Likeness) (made : Array StagedActor) (F : Soup) (k : Nat)
    {g : Goal} (f : Evaluation g) (c : Core) : Prop where
  flat : f.flat = f
  gathers : c.Gathers cx.transaction made
  follows : ∃ R st, base ≤ R ∧ (f.soup c cx.transaction).Like R st ∧ st.Sound ∧
    Soup.Path cx.now k st F

lemma mem_threads_done {r : g.Result} {w : Work} (hw : w ∈ (done r).threads) :
    ∃ x : g.Result, w = ⟨g, .done x⟩ := by
  cases g with
  | outcome =>
    cases r with
    | ok => exact absurd hw (notMem_zero _)
    | _ => exact ⟨_, mem_singleton.1 hw⟩
  | _ => exact ⟨_, mem_singleton.1 hw⟩

section Stuck

variable {P : Nat → Prop}

lemma Idle.not_done {r : g.Result} : ¬ (done r).Idle (fun _ => False) P := nofun

/-- The threads of a tree that waits are done, or wait, and one of them waits. -/
lemma Idle.threads (h : f.Idle (fun _ => False) P) :
    (∀ w ∈ f.threads, (∃ r, w.evaluation = .done r) ∨ w.evaluation.Idle (fun _ => False) P) ∧
      ∃ w ∈ f.threads, w.evaluation.Idle (fun _ => False) P := by
  have hdone : ∀ {o : Outcome} {w : Work}, w ∈ (done (g := .outcome) o).threads →
      ∃ r, w.evaluation = .done r := fun hw =>
    have ⟨x, hx⟩ := mem_threads_done hw
    hx ▸ ⟨x, rfl⟩
  have hself : ∀ {g : Goal} {e : Evaluation g}, e.Idle (fun _ => False) P →
      (∀ w ∈ ({⟨g, e⟩} : Multiset Work),
        (∃ r, w.evaluation = .done r) ∨ w.evaluation.Idle (fun _ => False) P) ∧
      ∃ w ∈ ({⟨g, e⟩} : Multiset Work), w.evaluation.Idle (fun _ => False) P := fun h =>
    ⟨fun w hw => .inr (mem_singleton.1 hw ▸ h), _, mem_singleton_self _, h⟩
  induction h with
  | parked h => exact hself (.parked h)
  | awaiting h => exact h.elim
  | one frame inner _ => exact hself (.one frame inner)
  | both join first second _ _ => exact hself (.both join first second)
  | bothLeft join first b _ => exact hself (.bothLeft join first b)
  | bothRight join a second _ => exact hself (.bothRight join a second)
  | race _ _ ih1 ih2 =>
    exact ⟨fun w hw => (mem_add.1 hw).elim (ih1.1 w) (ih2.1 w),
      ih1.2.imp fun w hw => ⟨mem_add.2 (.inl hw.1), hw.2⟩⟩
  | raceLeft _ _ ih =>
    exact ⟨fun w hw => (mem_add.1 hw).elim (ih.1 w) fun hw => .inl (hdone hw),
      ih.2.imp fun w hw => ⟨mem_add.2 (.inl hw.1), hw.2⟩⟩
  | raceRight _ _ ih =>
    exact ⟨fun w hw => (mem_add.1 hw).elim (fun hw => .inl (hdone hw)) (ih.1 w),
      ih.2.imp fun w hw => ⟨mem_add.2 (.inr hw.1), hw.2⟩⟩

/-- What is like something that waits for slots has to wait, too. -/
lemma Idle.not_allowed {h : Heap} (idle : f.Idle (fun _ => False) fun slot => h.slot? slot = none)
    (hH : h.space.Like R H') : ∀ {level : Level} {e : Evaluation g} {p : Plan g} {r : Feedback},
      f.Like R level e → e.Fires now H' p → ¬ p.effect.Allowed H' r := by
  induction idle with
  | parked unbound =>
    intro level e p r like fires allowed
    cases like with
    | parked same =>
      cases fires
      obtain ⟨w?, hw, hlike⟩ := hH.slot_symm same allowed
      cases hlike
      rw [h.space_slot, unbound] at hw
      cases hw
  | awaiting h => exact h.elim
  | one frame inner ih =>
    intro level e p r like fires
    cases like with
    | one part_like _ =>
      cases fires with
      | resume =>
        cases part_like
        exact absurd inner Idle.not_done
      | one _ fires => exact ih part_like fires
  | both join left right ih1 ih2 =>
    intro level e p r like fires
    cases like with
    | both first second =>
      cases fires with
      | join =>
        cases first
        exact absurd left Idle.not_done
      | bothLeft _ _ fires => exact ih1 first fires
      | bothRight _ _ fires => exact ih2 second fires
  | bothLeft join left b ih =>
    intro level e p r like fires
    cases like with
    | both first second =>
      cases fires with
      | join =>
        cases first
        exact absurd left Idle.not_done
      | bothLeft _ _ fires => exact ih first fires
      | bothRight _ _ fires =>
        cases second
        exact absurd fires not_fires_done
  | bothRight join a right ih =>
    intro level e p r like fires
    cases like with
    | both first second =>
      cases fires with
      | join =>
        cases second
        exact absurd right Idle.not_done
      | bothLeft _ _ fires =>
        cases first
        exact absurd fires not_fires_done
      | bothRight _ _ fires => exact ih second fires
  | race | raceLeft | raceRight => exact fun like => nomatch like

end Stuck

namespace Tracks

lemma park (h : Tracks cx base made F k f c) (slot : Nat) (who : Waiter) :
    Tracks cx base made F k f { c with heap := c.heap.park slot who } := by
  refine ⟨h.flat, h.gathers, ?_⟩
  rw [soup_park]
  exact h.follows

/-- Two behaviors at once do not lead to one answer. -/
lemma not_conflict (h : Tracks cx base made F k f c) (ends : F.Ends) {v w : Value}
    {rest : Multiset Work} : f.threads ≠
      ⟨.outcome, .done (.become v)⟩ ::ₘ ⟨.outcome, .done (.become w)⟩ ::ₘ rest := by
  intro hthreads
  obtain ⟨R, st, _, like, _, path⟩ := h.follows
  have hrel := like.threads
  rw [show (f.soup c cx.transaction).threads = _ from hthreads] at hrel
  obtain ⟨_, _, ⟨hv⟩, hrel, hst⟩ := rel_cons_left.1 hrel
  obtain ⟨_, rest', ⟨hw⟩, _, rfl⟩ := rel_cons_left.1 hrel
  cases hv with
  | @done _ _ _ v' _ =>
    cases hw with
    | @done _ _ _ w' _ =>
      have hkeeps := path.keeps_done (D := {⟨.outcome, .done v'⟩, ⟨.outcome, .done w'⟩})
        (by simp) (by
          rw [hst]
          exact cons_le_cons _ (cons_le_cons _ (zero_le _)))
      have hcard := (card_le_card hkeeps).trans ends.single
      simp at hcard

/-- A small step brings the tree nearer to the end, or begins or ends a sequence. -/
theorem micro (h : Tracks cx base made F k f c) (ends : F.Ends) (step : Micro cx f c f' ds c') :
    ds = [] ∧ ∃ k', Tracks cx base made F k' f' c' ∧
      (k' < k ∨ k' = k ∧ f'.weight < f.weight) := by
  obtain ⟨R, st, hR, like, sound, path⟩ := h.follows
  obtain ⟨rfl, echo⟩ := step.echo h.gathers like.space h.flat fun w hw =>
    (exists_mem_of_rel_of_mem like.threads hw).imp fun _ h => h.2
  refine ⟨rfl, ?_⟩
  cases echo with
  | quiet same core less =>
    subst core
    refine ⟨k, ⟨step.flat h.flat, h.gathers, R, st, hR, ?_, sound, path⟩, .inr ⟨rfl, less⟩⟩
    rwa [show f'.soup c' cx.transaction = f.soup c' cx.transaction by simp only [soup, same]]
  | path gathers taken =>
    obtain ⟨R', k', st', hR', like', sound', path', rfl⟩ := taken.follow like sound path ends.final
    exact ⟨k', ⟨step.flat h.flat, gathers h.gathers, R', st', hR.trans hR', like', sound', path'⟩,
      .inl (by omega)⟩
  | hopeless moves hopeless _ =>
    obtain ⟨m', moves', hm⟩ := like.moves moves
    exact absurd (hm.effect.hopeless like.unique like.space hopeless)
      (path.not_hopeless ends.final sound moves')
  | conflict threads _ => exact absurd threads (h.not_conflict ends)

lemma halts (h : Tracks cx base made F k f c) (ends : F.Ends) : Halts cx f c := by
  refine Halts.of_invariant
    (fun (a : ℕ ×ₗ ℕ) f c => Tracks cx base made F (ofLex a).1 f c ∧ f.weight = (ofLex a).2)
    (fun slot who h => ⟨h.1.park slot who, h.2⟩) ?_ (a := toLex (k, f.weight)) ⟨h, rfl⟩
  rintro a f c f' ds c' ⟨h, hweight⟩ step
  obtain ⟨hds, k', h', hless⟩ := h.micro ends step
  refine ⟨hds, toLex (k', f'.weight), ?_, h', rfl⟩
  rw [Prod.Lex.lt_iff]
  exact hless.imp_right fun ⟨hk, hw⟩ => ⟨hk, hweight ▸ hw⟩

/-- Small steps keep the tree on its way. -/
lemma steps (hs : Steps cx n f c f' ds c') (ends : F.Ends) :
    ∀ {k : Nat}, Tracks cx base made F k f c → ∃ k', Tracks cx base made F k' f' c' := by
  induction hs with
  | refl f c => exact fun h => ⟨_, h⟩
  | park slot who _ ih => exact fun h => ih (h.park slot who)
  | step first _ ih =>
    intro k h
    obtain ⟨_, k', h', _⟩ := h.micro ends first
    exact ih h'

/-- A tree that has finished is like the end. -/
lemma done {r : g.Result} (h : Tracks cx base made F k (.done r) c) :
    ∃ R, base ≤ R ∧ ((done r).soup c cx.transaction).Like R F := by
  obtain ⟨R, st, hR, like, _, path⟩ := h.follows
  have hfinal : st.Final := by
    intro w' hw'
    obtain ⟨w, hw, hlike⟩ := exists_mem_of_rel_of_mem (rel_flip.2 like.threads) hw'
    obtain ⟨x, rfl⟩ := mem_threads_done hw
    cases hlike with
    | mk he =>
      cases he
      exact ⟨_, rfl⟩
  rw [path.eq_of_final hfinal] at like
  exact ⟨R, hR, like⟩

/-- A tree on its way does not get stuck. -/
theorem not_idle (h : Tracks cx base made F k f c) (ends : F.Ends) :
    ¬ f.Idle (fun _ => False) fun slot => c.heap.slot? slot = none := by
  intro idle
  obtain ⟨R, st, _, like, _, path⟩ := h.follows
  cases path with
  | refl =>
    obtain ⟨w, hw, hidle⟩ := idle.threads.2
    obtain ⟨_, hw', @⟨_, e, e', he⟩⟩ := exists_mem_of_rel_of_mem like.threads hw
    obtain ⟨r, rfl⟩ : ∃ r, e' = .done r := ends.final _ hw'
    cases he
    exact Idle.not_done hidle
  | step moves allowed _ =>
    cases moves with
    | @mk g' e' rest p here fires =>
      obtain ⟨_, hw, @⟨_, e, _, he⟩⟩ := exists_mem_of_rel_of_mem
        (rel_flip.2 like.threads)
        (show ⟨g', e'⟩ ∈ st.threads from here ▸ mem_cons_self _ _)
      have hrests : (∃ r : g'.Result, e = .done r) ∨ e.Idle _ _ := idle.threads.1 _ hw
      rcases hrests with ⟨r, rfl⟩ | hidle
      · cases he
        exact not_fires_done fires
      · exact hidle.not_allowed like.space he fires allowed

end Tracks

end Evaluation

end Troupe
