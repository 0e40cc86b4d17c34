import Troupe.Proofs.SmallStep

/-!
All trees of a task.

Besides its main evaluation a task may still run parts of what was dropped, when one half of a
sequence failed. `Evaluation.UnfoldsAll` unfolds the main evaluation, which comes first, and what
was dropped; together these trees hold every piece of the task (`Agenda.Laid`), each once.

* `Evaluation.Forest`: small steps on one of several trees.
* `Agenda.Laid.advance`, `Agenda.Laid.replace`: a run of the main evaluation, or of a piece, takes
  small steps on the trees.
* `Evaluation.UnfoldsAll.unique`: no two parts wait for the answer of one piece.
-/

namespace Troupe

open List Set

variable {trees ws : List Work} {ts : Set Nat} {g k : Goal} {e f : Evaluation g} {w : Work}
  {cell : Nat → Option Cell} {p : Nat}

namespace Evaluation

/-- A number of small steps on several trees. What a step drops joins the trees at their end. -/
inductive Forest (cx : Context) : Nat → List Work → Core → List Work → Core → Prop where
  | refl (trees : List Work) (c : Core) : Forest cx 0 trees c trees c
  | park {n : Nat} {trees trees' : List Work} {c c' : Core} (slot : Nat) (who : Waiter)
      (rest : Forest cx n trees { c with heap := c.heap.park slot who } trees' c') :
      Forest cx n trees c trees' c'
  | step {n : Nat} {before after trees' : List Work} {g : Goal} {f f' : Evaluation g}
      {ds : List Work} {c c1 c' : Core} (first : Micro cx f c f' ds c1)
      (rest : Forest cx n (before ++ ⟨g, f'⟩ :: (after ++ ds)) c1 trees' c') :
      Forest cx (n + 1) (before ++ ⟨g, f⟩ :: after) c trees' c'

namespace Forest

variable {cx : Context}

lemma trans {n m : Nat} {trees1 trees' : List Work} {c c1 c' : Core}
    (h1 : Forest cx n trees c trees1 c1) (h2 : Forest cx m trees1 c1 trees' c') :
    Forest cx (m + n) trees c trees' c' := by
  induction h1 with
  | refl trees c => exact h2
  | park slot who _ ih => exact .park slot who (ih h2)
  | step first _ ih => exact .step first (ih h2)

/-- Steps of one tree are steps on all of them. -/
lemma of_steps {n : Nat} (before after : List Work) {f' : Evaluation g} {ds : List Work}
    {c c' : Core} (h : Steps cx n f c f' ds c') :
    Forest cx n (before ++ ⟨g, f⟩ :: after) c (before ++ ⟨g, f'⟩ :: (after ++ ds)) c' := by
  induction h generalizing after with
  | refl f c =>
    rw [append_nil]
    exact .refl _ c
  | park slot who _ ih => exact .park slot who (ih after)
  | @step n f f1 f' ds ds' c c1 c' first _ ih =>
    have hrest := ih (after ++ ds)
    rw [append_assoc] at hrest
    exact .step first hrest

end Forest

/-! ### One piece among all trees -/

/-- A place in a tree where a subtree stands. -/
def Hole {g h : Goal} (C : Evaluation g → Evaluation h) : Prop :=
  ∀ {cx : Context} {f f' : Evaluation g} {ds : List Work} {c c' : Core},
    Micro cx f c f' ds c' → Micro cx (C f) c (C f') ds c'

/-- What the piece `p` unfolds to stands in one place of a whole, and may be replaced there. -/
structure Focus {γ : Type} (Whole : (Nat → Option Cell) → γ → Set Nat → Prop)
    (cell : Nat → Option Cell) (ts : Set Nat) (p : Nat) {k : Goal} (w : Evaluation k)
    (C : Evaluation k → γ) (fw : Evaluation k) (tw rest : Set Nat) : Prop where
  unfolds : w.Unfolds cell fw tw
  fresh : p ∉ tw
  tickets : ts = insert p tw ∪ rest
  apart : Disjoint (insert p tw) rest
  put : ∀ (cell' : Nat → Option Cell) (fw' : Evaluation k) (tw' : Set Nat),
    (Evaluation.awaiting p).Unfolds cell' fw' tw' → (∀ t ∈ rest, cell' t = cell t) →
      Disjoint tw' rest → Whole cell' (C fw') (tw' ∪ rest)

namespace Focus

variable {γ δ : Type} {Whole : (Nat → Option Cell) → γ → Set Nat → Prop}
  {Whole' : (Nat → Option Cell) → δ → Set Nat → Prop} {us rest tw : Set Nat} {w fw : Evaluation k}
  {C : Evaluation k → γ}

/-- A whole beside others, whose tickets are apart. -/
lemma beside (h : Focus Whole cell ts p w C fw tw rest) (apart : Disjoint ts us) (D : γ → δ)
    (build : ∀ {cell' : Nat → Option Cell} {x : γ} {ts' : Set Nat}, (∀ t ∈ us, cell' t = cell t) →
      Whole cell' x ts' → Disjoint ts' us → Whole' cell' (D x) (ts' ∪ us)) :
    Focus Whole' cell (ts ∪ us) p w (D ∘ C) fw tw (rest ∪ us) := by
  obtain ⟨hw, hpt, rfl, hap, hput⟩ := h
  rw [disjoint_union_left] at apart
  refine ⟨hw, hpt, union_assoc .., disjoint_union_right.2 ⟨hap, apart.1⟩, ?_⟩
  intro cell' fw' tw' hw' same hap'
  rw [disjoint_union_right] at hap'
  rw [← union_assoc]
  refine build (fun t ht => same t (.inr ht))
    (hput cell' fw' tw' hw' (fun t ht => same t (.inl ht)) hap'.1) ?_
  rw [disjoint_union_left]
  exact ⟨hap'.2, apart.2⟩

/-- A whole after others, whose tickets are apart. -/
lemma after (h : Focus Whole cell ts p w C fw tw rest) (apart : Disjoint us ts) (D : γ → δ)
    (build : ∀ {cell' : Nat → Option Cell} {x : γ} {ts' : Set Nat}, (∀ t ∈ us, cell' t = cell t) →
      Whole cell' x ts' → Disjoint us ts' → Whole' cell' (D x) (us ∪ ts')) :
    Focus Whole' cell (us ∪ ts) p w (D ∘ C) fw tw (rest ∪ us) := by
  rw [union_comm us ts]
  refine h.beside apart.symm D fun same hx hap => ?_
  rw [union_comm]
  exact build same hx hap.symm

end Focus

/-- The piece `p` in a tree. -/
lemma Unfolds.focus {w : Evaluation k} (h : Unfolds cell e f ts) (hp : p ∈ ts)
    (known : cell p = some (.working ⟨k, w⟩)) :
    ∃ (C : Evaluation k → Evaluation g) (fw : Evaluation k) (tw rest : Set Nat), Hole C ∧ f = C fw ∧
      Focus (fun cell' => e.Unfolds cell') cell ts p w C fw tw rest := by
  induction h with
  | done | start | parked => exact hp.elim
  | @working g ticket e f ts hknown inner fresh ih =>
    by_cases hticket : p = ticket
    · subst hticket
      rw [known] at hknown
      cases hknown
      refine ⟨id, f, ts, ∅, fun h => h, rfl, inner, fresh, (union_empty _).symm,
        disjoint_empty _, ?_⟩
      intro cell' fw' tw' hw' _ _
      rwa [union_empty]
    · obtain ⟨C, fw, tw, rest, hC, rfl, hfocus⟩ := ih (hp.resolve_left hticket)
      have hsingle : Disjoint {ticket} ts := disjoint_singleton_left.2 fresh
      refine ⟨C, fw, tw, rest ∪ {ticket}, hC, rfl, hfocus.after hsingle id fun same hx hap => ?_⟩
      refine .working ?_ hx (disjoint_singleton_left.1 hap)
      rw [same _ rfl, hknown]
  | @given g ticket r hknown =>
    rw [mem_singleton_iff] at hp
    subst hp
    rw [known] at hknown
    cases hknown
  | one frame _ ih =>
    obtain ⟨C, fw, tw, rest, hC, rfl, hfocus⟩ := ih hp
    refine ⟨fun x => .one (C x) frame.flat, fw, tw, rest, fun h => .one _ (hC h),
      rfl, hfocus.unfolds, hfocus.fresh, hfocus.tickets, hfocus.apart, ?_⟩
    intro cell' fw' tw' hw' same apart
    exact .one frame (hfocus.put cell' fw' tw' hw' same apart)
  | @both g h left right fl fr tl tr join hl hr hapart ih1 ih2 =>
    rcases hp with hp | hp
    · obtain ⟨C, fw, tw, rest, hC, rfl, hfocus⟩ := ih1 hp
      exact ⟨fun x => .both (C x) fr join.flat, fw, tw, _, fun h => .bothLeft _ _ (hC h), rfl,
        hfocus.beside hapart (Evaluation.both · fr join.flat) fun same hx hap =>
          .both join hx (hr.congr same) hap⟩
    · obtain ⟨C, fw, tw, rest, hC, rfl, hfocus⟩ := ih2 hp
      exact ⟨fun x => .both fl (C x) join.flat, fw, tw, _, fun h => .bothRight _ _ (hC h), rfl,
        hfocus.after hapart (Evaluation.both fl · join.flat) fun same hx hap =>
          .both join (hl.congr same) hx hap⟩
  | @race left right fl fr tl tr hl hr hapart ih1 ih2 =>
    rcases hp with hp | hp
    · obtain ⟨C, fw, tw, rest, hC, rfl, hfocus⟩ := ih1 hp
      exact ⟨fun x => .race (C x) fr, fw, tw, _, fun h => .raceLeft _ (hC h), rfl,
        hfocus.beside hapart (Evaluation.race · fr) fun same hx hap => .race hx (hr.congr same) hap⟩
    · obtain ⟨C, fw, tw, rest, hC, rfl, hfocus⟩ := ih2 hp
      exact ⟨fun x => .race fl (C x), fw, tw, _, fun h => .raceRight _ (hC h), rfl,
        hfocus.after hapart (Evaluation.race fl ·) fun same hx hap => .race (hl.congr same) hx hap⟩

lemma UnfoldsAll.focus {w : Evaluation k} (h : UnfoldsAll cell ws trees ts) (hp : p ∈ ts)
    (known : cell p = some (.working ⟨k, w⟩)) :
    ∃ (g : Goal) (C : Evaluation k → Evaluation g) (fw : Evaluation k) (before after : List Work)
      (tw rest : Set Nat), Hole C ∧ trees = before ++ ⟨g, C fw⟩ :: after ∧
      Focus (fun cell' => UnfoldsAll cell' ws) cell ts p w (before ++ ⟨g, C ·⟩ :: after)
      fw tw rest := by
  induction h with
  | nil => exact hp.elim
  | @cons g e f ws fs ts ts' head tail hapart ih =>
    rcases hp with hp | hp
    · obtain ⟨C, fw, tw, rest, hC, rfl, hfocus⟩ := head.focus hp known
      exact ⟨g, C, fw, [], fs, tw, _, hC, rfl, hfocus.beside hapart (fun x => ⟨g, x⟩ :: fs)
        fun same hx hap => .cons hx (tail.congr same) hap⟩
    · obtain ⟨g', C, fw, before, after, tw, rest, hC, rfl, hfocus⟩ := ih hp
      exact ⟨g', C, fw, ⟨g, f⟩ :: before, after, tw, _, hC, rfl, hfocus.after hapart (⟨g, f⟩ :: ·)
        fun same hx hap => .cons (head.congr same) hx hap⟩

/-! ### Who waits for whom -/

/-- The tickets that an evaluation itself waits for. -/
def awaits : {g : Goal} → Evaluation g → Set Nat
  | _, .awaiting ticket => {ticket}
  | _, .one part _ => part.awaits
  | _, .both left right _ => left.awaits ∪ right.awaits
  | _, .race left right => left.awaits ∪ right.awaits
  | _, _ => ∅

lemma Unfolds.awaits_subset (h : Unfolds cell e f ts) : e.awaits ⊆ ts := by
  induction h with
  | done | start | parked | given => exact subset_rfl
  | working known _ _ _ => exact singleton_subset_iff.2 (mem_insert ..)
  | one frame _ ih => exact ih
  | both join _ _ _ ih1 ih2 | race _ _ _ ih1 ih2 => exact union_subset_union ih1 ih2

/-- What a piece waits for is among the tickets of the trees it stands in. -/
lemma Unfolds.piece_subset (h : Unfolds cell e f ts) (hp : p ∈ ts)
    (known : cell p = some (.working w)) : w.evaluation.awaits ⊆ ts := by
  obtain ⟨C, fw, tw, rest, _, _, hw, _, rfl, _⟩ := h.focus hp known
  exact fun u hu => .inl (.inr (hw.awaits_subset hu))

/-- What holds of two trees that are apart holds of both together. -/
lemma unique_union {h : Goal} {left fl : Evaluation g} {right fr : Evaluation h} {tl tr : Set Nat}
    (hl : Unfolds cell left fl tl) (hr : Unfolds cell right fr tr) (apart : Disjoint tl tr)
    (ihl : (∀ {p w}, p ∈ tl → cell p = some (.working w) →
        Disjoint left.awaits w.evaluation.awaits) ∧
      ∀ {p q w w'}, p ∈ tl → q ∈ tl → p ≠ q → cell p = some (.working w) →
        cell q = some (.working w') → Disjoint w.evaluation.awaits w'.evaluation.awaits)
    (ihr : (∀ {p w}, p ∈ tr → cell p = some (.working w) →
        Disjoint right.awaits w.evaluation.awaits) ∧
      ∀ {p q w w'}, p ∈ tr → q ∈ tr → p ≠ q → cell p = some (.working w) →
        cell q = some (.working w') → Disjoint w.evaluation.awaits w'.evaluation.awaits) :
    (∀ {p w}, p ∈ tl ∪ tr → cell p = some (.working w) →
        Disjoint (left.awaits ∪ right.awaits) w.evaluation.awaits) ∧
      ∀ {p q w w'}, p ∈ tl ∪ tr → q ∈ tl ∪ tr → p ≠ q → cell p = some (.working w) →
        cell q = some (.working w') → Disjoint w.evaluation.awaits w'.evaluation.awaits := by
  refine ⟨?_, ?_⟩
  · intro p w hp hw
    rw [disjoint_union_left]
    rcases hp with hp | hp
    · exact ⟨ihl.1 hp hw,
        (apart.mono (hl.piece_subset hp hw) hr.awaits_subset).symm⟩
    · exact ⟨apart.mono hl.awaits_subset (hr.piece_subset hp hw), ihr.1 hp hw⟩
  · intro p q w w' hp hq hpq hw hw'
    rcases hp with hp | hp <;> rcases hq with hq | hq
    · exact ihl.2 hp hq hpq hw hw'
    · exact apart.mono (hl.piece_subset hp hw) (hr.piece_subset hq hw')
    · exact (apart.mono (hl.piece_subset hq hw') (hr.piece_subset hp hw)).symm
    · exact ihr.2 hp hq hpq hw hw'

/-- No two parts of a tree wait for the answer of one piece. -/
lemma Unfolds.unique (h : Unfolds cell e f ts) :
    (∀ {p w}, p ∈ ts → cell p = some (.working w) → Disjoint e.awaits w.evaluation.awaits) ∧
      ∀ {p q w w'}, p ∈ ts → q ∈ ts → p ≠ q → cell p = some (.working w) →
        cell q = some (.working w') → Disjoint w.evaluation.awaits w'.evaluation.awaits := by
  induction h with
  | done | start | parked => exact ⟨fun hp => hp.elim, fun hp => hp.elim⟩
  | @working g ticket e f ts known inner fresh ih =>
    obtain ⟨hroot, hpieces⟩ := ih
    refine ⟨?_, ?_⟩
    · intro p w hp hw
      rw [awaits, disjoint_singleton_left]
      rcases hp with rfl | hp
      · rw [known] at hw
        cases hw
        exact fun hin => fresh (inner.awaits_subset hin)
      · exact fun hin => fresh (inner.piece_subset hp hw hin)
    · intro p q w w' hp hq hpq hw hw'
      rcases hp with rfl | hp
      · rw [known] at hw
        cases hw
        exact hroot (hq.resolve_left (Ne.symm hpq)) hw'
      · rcases hq with rfl | hq
        · rw [known] at hw'
          cases hw'
          exact (hroot hp hw).symm
        · exact hpieces hp hq hpq hw hw'
  | @given g ticket r known =>
    refine ⟨?_, ?_⟩
    · rintro p w rfl hw
      rw [known] at hw
      cases hw
    · rintro p q w w' rfl hq hpq
      exact absurd hq.symm hpq
  | one frame _ ih => exact ih
  | both join hl hr apart ih1 ih2 | race hl hr apart ih1 ih2 =>
    exact unique_union hl hr apart ih1 ih2

lemma UnfoldsAll.piece_subset (h : UnfoldsAll cell ws trees ts) (hp : p ∈ ts)
    (known : cell p = some (.working w)) : w.evaluation.awaits ⊆ ts := by
  obtain ⟨g, C, fw, before, after, tw, rest, _, _, hw, _, rfl, _⟩ := h.focus hp known
  exact fun u hu => .inl (.inr (hw.awaits_subset hu))

/-- No two pieces wait for the answer of one. -/
lemma UnfoldsAll.unique (h : UnfoldsAll cell ws trees ts) {q : Nat} {w' : Work} (hp : p ∈ ts)
    (hq : q ∈ ts) (hpq : p ≠ q) (hw : cell p = some (.working w))
    (hw' : cell q = some (.working w')) : Disjoint w.evaluation.awaits w'.evaluation.awaits := by
  induction h with
  | nil => exact hp.elim
  | cons head tail apart ih =>
    rcases hp with hp | hp <;> rcases hq with hq | hq
    · exact head.unique.2 hp hq hpq hw hw'
    · exact apart.mono (head.piece_subset hp hw) (tail.piece_subset hq hw')
    · exact (apart.mono (head.piece_subset hq hw') (tail.piece_subset hp hw)).symm
    · exact ih hp hq

/-- No piece waits for what the first evaluation waits for. -/
lemma UnfoldsAll.root_unique (h : UnfoldsAll cell (⟨g, e⟩ :: ws) trees ts) (hp : p ∈ ts)
    (hw : cell p = some (.working w)) : Disjoint e.awaits w.evaluation.awaits := by
  cases h with
  | cons head tail apart =>
    rcases hp with hp | hp
    · exact head.unique.1 hp hw
    · exact apart.mono head.awaits_subset (tail.piece_subset hp hw)

end Evaluation

namespace Agenda

open Evaluation

/-- The evaluations in `roots` unfold to `trees`, and every piece stands in them. -/
def Laid (a : Agenda) (roots trees : List Work) : Prop :=
  ∃ ts, UnfoldsAll a.cell roots trees ts ∧ ∀ t, a.cell t ≠ none → t ∈ ts

namespace Laid

variable {a a' : Agenda} {roots : List Work} {cx : Context} {who : Waiter} {s s' : Store}
  {log : List Request}

lemma congr (h : Laid a roots trees) (same : ∀ t, a'.cell t = a.cell t) : Laid a' roots trees := by
  obtain ⟨ts, hu, hall⟩ := h
  exact ⟨ts, hu.congr fun t _ => same t, fun t ht => hall t (by rwa [same t] at ht)⟩

lemma unique (h : Laid a roots trees) {q : Nat} {w' : Work} (hpq : p ≠ q)
    (hw : a.cell p = some (.working w)) (hw' : a.cell q = some (.working w')) :
    Disjoint w.evaluation.awaits w'.evaluation.awaits := by
  obtain ⟨ts, hu, hall⟩ := h
  exact hu.unique (hall p (by simp [hw])) (hall q (by simp [hw'])) hpq hw hw'

lemma root_unique (h : Laid a (⟨g, e⟩ :: roots) trees) (hw : a.cell p = some (.working w)) :
    Disjoint e.awaits w.evaluation.awaits := by
  obtain ⟨ts, hu, hall⟩ := h
  exact hu.root_unique (hall p (by simp [hw])) hw

/-- What a piece waits for is a piece. -/
lemma inside (h : Laid a roots trees) (hw : a.cell p = some (.working w)) {t : Nat}
    (ht : t ∈ w.evaluation.awaits) : t < a.pieces.size := by
  obtain ⟨ts, hu, hall⟩ := h
  exact lt_of_cell (hu.known t (hu.piece_subset (hall p (by simp [hw])) hw ht))

/-- What the first evaluation waits for is a piece. -/
lemma root_inside (h : Laid a (⟨g, e⟩ :: roots) trees) {t : Nat} (ht : t ∈ e.awaits) :
    t < a.pieces.size := by
  obtain ⟨ts, hu, _⟩ := h
  cases hu with
  | cons head _ _ => exact lt_of_cell (head.known t (head.awaits_subset ht))

/-- A run of the first evaluation. -/
theorem advance {e' : Evaluation g} (h : Laid (s.agenda cx.task) (⟨g, e⟩ :: roots) trees)
    (hs : cx.task < s.agendas.size) (run : e.Run cx who s log e' s') :
    ∃ n ds trees', Laid (s'.agenda cx.task) (⟨g, e'⟩ :: (roots ++ ds)) trees' ∧
      Forest cx n trees s.core trees' s'.core ∧
      (n = 0 → (s.agenda cx.task).Calm (s'.agenda cx.task)) := by
  obtain ⟨ts, hu, hall⟩ := h
  cases hu with
  | @cons _ _ f _ fs ts ts' head tail apart =>
    obtain ⟨n, f', tm, ds, gs, td, hsteps, hm, hd, hap, hb, hcalm⟩ := run.simulates hs head
    have hapart := hb.disjoint tail.known apart
    rw [disjoint_union_left] at hapart
    refine ⟨n, ds, ⟨g, f'⟩ :: (fs ++ gs), ⟨tm ∪ (ts' ∪ td), ?_, ?_⟩,
      .of_steps [] fs hsteps, hcalm⟩
    · refine .cons hm ((tail.congr (hb.cell_eq tail.known apart)).append hd hapart.2.symm) ?_
      rw [disjoint_union_right]
      exact ⟨hapart.1, hap⟩
    · intro t ht
      by_cases hts : t ∈ ts ∨ (s.agenda cx.task).pieces.size ≤ t
      · rcases hb.kept t hts with h | h
        · exact h.imp id .inr
        · exact absurd h ht
      · rw [not_or] at hts
        have hcell := cell_congr (hb.frame t (Nat.lt_of_not_le hts.2) hts.1)
        rw [hcell] at ht
        exact .inr (.inl ((hall t ht).resolve_left hts.1))

/-- A run of a piece leaves its own slip alone. -/
lemma slip_self {w w' : Evaluation k} (h : Laid (s.agenda cx.task) roots trees)
    (hs : cx.task < s.agendas.size) (hw : (s.agenda cx.task).cell p = some (.working ⟨k, w⟩))
    (run : w.Run cx who s log w' s') : (s'.agenda cx.task).slip p = (s.agenda cx.task).slip p := by
  obtain ⟨ts, hu, hall⟩ := h
  have hp : (s.agenda cx.task).cell p ≠ none := by simp [hw]
  obtain ⟨g, C, fw, before, after, tw, rest, hC, rfl, hinner, hpt, rfl, hap, hput⟩ :=
    hu.focus (hall p hp) hw
  obtain ⟨n, fw', tw', ds, gs, td, hsteps, hm, hd, hapd, hb, _⟩ := run.simulates hs hinner
  exact hb.frame p (lt_of_cell hp) hpt

/-- A run of a piece, which is then put back or has finished. -/
theorem replace {w w' : Evaluation k} (h : Laid (s.agenda cx.task) roots trees)
    (hs : cx.task < s.agendas.size) (hw : (s.agenda cx.task).cell p = some (.working ⟨k, w⟩))
    (run : w.Run cx who s log w' s') (others : ∀ t, t ≠ p → a'.cell t = (s'.agenda cx.task).cell t)
    (self : a'.cell p = some (.working ⟨k, w'⟩) ∨
      ∃ r, w' = .done r ∧ a'.cell p = some (.given ⟨k, r⟩)) :
    ∃ n ds trees', Laid a' (roots ++ ds) trees' ∧ Forest cx n trees s.core trees' s'.core ∧
      (n = 0 → (s.agenda cx.task).Calm (s'.agenda cx.task)) := by
  obtain ⟨ts, hu, hall⟩ := h
  have hp : (s.agenda cx.task).cell p ≠ none := by simp [hw]
  obtain ⟨g, C, fw, before, after, tw, rest, hC, rfl, hinner, hpt, rfl, hap, hput⟩ :=
    hu.focus (hall p hp) hw
  obtain ⟨n, fw', tw', ds, gs, td, hsteps, hm, hd, hapd, hb, hcalm⟩ := run.simulates hs hinner
  -- the tickets in `rest`, and `p` itself, are not concerned
  have hrest : ∀ t ∈ insert p rest, (s.agenda cx.task).cell t ≠ none := by
    rintro t (rfl | ht)
    · exact hp
    · exact hu.known t (.inr ht)
  have haway : Disjoint tw (insert p rest) := by
    rw [disjoint_insert_right]
    exact ⟨hpt, hap.mono_left (subset_insert p tw)⟩
  have hleft := hb.disjoint hrest haway
  rw [disjoint_insert_right, disjoint_union_left, mem_union, not_or] at hleft
  have hprest : p ∉ rest := disjoint_left.1 hap (mem_insert p tw)
  have hself : (Evaluation.awaiting p).Unfolds a'.cell fw' (insert p tw') := by
    have hm' := hm.congr fun t ht => others t fun hpt' => hleft.1.1 (hpt' ▸ ht)
    rcases self with hcell | ⟨r, rfl, hcell⟩
    · exact .working hcell hm' hleft.1.1
    · cases hm'
      rw [insert_empty_eq]
      exact .given hcell
  have hsame : ∀ t ∈ rest, a'.cell t = (s.agenda cx.task).cell t := by
    intro t ht
    rw [others t fun h => hprest (h ▸ ht)]
    exact hb.cell_eq hrest haway t (.inr ht)
  have hapart : Disjoint (insert p tw') rest := by
    rw [disjoint_insert_left]
    exact ⟨hprest, hleft.2.1⟩
  have hdrop := hd.congr fun t ht => others t fun h => hleft.1.2 (h ▸ ht)
  have hapart' : Disjoint (insert p tw' ∪ rest) td := by
    rw [disjoint_union_left, disjoint_insert_left]
    exact ⟨⟨hleft.1.2, hapd⟩, hleft.2.2.symm⟩
  refine ⟨n, ds, (before ++ ⟨g, C fw'⟩ :: after) ++ gs,
    ⟨_, (hput a'.cell fw' _ hself hsame hapart).append hdrop hapart', ?_⟩, ?_, hcalm⟩
  · intro t ht
    by_cases htp : t = p
    · exact .inl (.inl (.inl htp))
    · rw [others t htp] at ht
      by_cases hts : t ∈ tw ∨ (s.agenda cx.task).pieces.size ≤ t
      · rcases hb.kept t hts with hin | hnone
        · exact hin.imp (fun h => .inl (.inr h)) id
        · exact absurd hnone ht
      · rw [not_or] at hts
        rw [cell_congr (hb.frame t (Nat.lt_of_not_le hts.2) hts.1)] at ht
        rcases hall t ht with (h | h) | h
        · exact absurd h htp
        · exact absurd h hts.1
        · exact .inl (.inr h)
  · rw [append_assoc, cons_append]
    exact .of_steps before after (hsteps.map C hC)

end Laid

end Agenda

end Troupe
