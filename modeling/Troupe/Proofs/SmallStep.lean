import Troupe.Proofs.Unfold

/-!
Small steps on unfolded evaluations.

`Evaluation.Micro` is one small step on a tree and the core of a store: a job begins, a slot that is
bound is read, or a tree goes on with the answers of its parts. When one half of a sequence fails
the other half is dropped; what was dropped is listed beside the step, because its detached parts
are still there and will still be run.

* `Evaluation.Run.simulates`: a run of an evaluation takes small steps on what it unfolds to, and
  accounts for every ticket (`Agenda.Books`).
-/

namespace Troupe

open Agenda Array Set

variable {s s' : Store} {g : Goal} {e f f' : Evaluation g} {ts : Set Nat} {who : Waiter}
  {cx : Context} {ds fs ws : List Work} {n t ticket : Nat} {c c' : Core} {a : Agenda}

namespace Evaluation

/-- One small step. The list holds what the step drops. -/
inductive Micro (cx : Context) :
    {g : Goal} → Evaluation g → Core → Evaluation g → List Work → Core → Prop where
  | start {g : Goal} (job : Job g) (c : Core) :
      Micro cx (.start job) c (job.begin cx c.store).1.flat [] (job.begin cx c.store).2.core
  | read {slot : Nat} {v : Value} {c : Core} (bound : c.heap.slot? slot = some v) :
      Micro cx (.parked slot) c (.done v) [] c
  | resume {g h : Goal} (r : g.Result) (frame : Frame g h) (c : Core) :
      Micro cx (.one (.done r) frame) c (frame.resume r cx c.store).1.flat []
        (frame.resume r cx c.store).2.core
  | join {g h : Goal} (a b : g.Result) (join : Join g h) (c : Core) :
      Micro cx (.both (.done a) (.done b) join) c (join.resume a b cx c.store).1.flat []
        (join.resume a b cx c.store).2.core
  | merge (a b : Outcome) (c : Core) :
      Micro cx (.race (.done a) (.done b)) c (a.join b cx c.store).1.flat []
        (a.join b cx c.store).2.core
  | failLeft (right : Evaluation .outcome) (c : Core) :
      Micro cx (.race (.done .fail) right) c (.done .fail) [⟨_, right⟩] c
  | failRight (left : Evaluation .outcome) (c : Core) :
      Micro cx (.race left (.done .fail)) c (.done .fail) [⟨_, left⟩] c
  | one {g h : Goal} {f f' : Evaluation g} {ds : List Work} {c c' : Core} (frame : Frame g h)
      (inner : Micro cx f c f' ds c') : Micro cx (.one f frame) c (.one f' frame) ds c'
  | bothLeft {g h : Goal} {f f' : Evaluation g} {ds : List Work} {c c' : Core}
      (right : Evaluation g) (join : Join g h) (inner : Micro cx f c f' ds c') :
      Micro cx (.both f right join) c (.both f' right join) ds c'
  | bothRight {g h : Goal} {f f' : Evaluation g} {ds : List Work} {c c' : Core}
      (left : Evaluation g) (join : Join g h) (inner : Micro cx f c f' ds c') :
      Micro cx (.both left f join) c (.both left f' join) ds c'
  | raceLeft {f f' : Evaluation .outcome} {ds : List Work} {c c' : Core}
      (right : Evaluation .outcome) (inner : Micro cx f c f' ds c') :
      Micro cx (.race f right) c (.race f' right) ds c'
  | raceRight {f f' : Evaluation .outcome} {ds : List Work} {c c' : Core}
      (left : Evaluation .outcome) (inner : Micro cx f c f' ds c') :
      Micro cx (.race left f) c (.race left f') ds c'

/-- A number of small steps. Waiters may be entered in between. -/
inductive Steps (cx : Context) {g : Goal} :
    Nat → Evaluation g → Core → Evaluation g → List Work → Core → Prop where
  | refl (f : Evaluation g) (c : Core) : Steps cx 0 f c f [] c
  | park {n : Nat} {f f' : Evaluation g} {ds : List Work} {c c' : Core} (slot : Nat) (who : Waiter)
      (rest : Steps cx n f { c with heap := c.heap.park slot who } f' ds c') :
      Steps cx n f c f' ds c'
  | step {n : Nat} {f f1 f' : Evaluation g} {ds ds' : List Work} {c c1 c' : Core}
      (first : Micro cx f c f1 ds c1) (rest : Steps cx n f1 c1 f' ds' c') :
      Steps cx (n + 1) f c f' (ds ++ ds') c'

namespace Steps

lemma single (h : Micro cx f c f' ds c') : Steps cx 1 f c f' ds c' := by
  have h1 := Steps.step h (.refl f' c')
  rwa [List.append_nil] at h1

lemma trans {m : Nat} {f1 : Evaluation g} {ds' : List Work} {c1 : Core}
    (h1 : Steps cx n f c f1 ds c1) (h2 : Steps cx m f1 c1 f' ds' c') :
    Steps cx (m + n) f c f' (ds ++ ds') c' := by
  induction h1 with
  | refl f c => exact h2
  | park slot who _ ih => exact .park slot who (ih h2)
  | step first _ ih =>
    rw [List.append_assoc]
    exact .step first (ih h2)

/-- Steps inside of a tree are steps of the tree. -/
lemma map {h : Goal} (C : Evaluation g → Evaluation h)
    (hC : ∀ {f f' : Evaluation g} {ds : List Work} {c c' : Core},
      Micro cx f c f' ds c' → Micro cx (C f) c (C f') ds c') (hs : Steps cx n f c f' ds c') :
    Steps cx n (C f) c (C f') ds c' := by
  induction hs with
  | refl f c => exact .refl _ c
  | park slot who _ ih => exact .park slot who ih
  | step first _ ih => exact .step (hC first) ih

end Steps

/-- Unfolding several evaluations; each ticket is used once. -/
inductive UnfoldsAll (cell : Nat → Option Cell) : List Work → List Work → Set Nat → Prop where
  | nil : UnfoldsAll cell [] [] ∅
  | cons {g : Goal} {e f : Evaluation g} {ws fs : List Work} {ts ts' : Set Nat}
      (head : Unfolds cell e f ts) (tail : UnfoldsAll cell ws fs ts') (apart : Disjoint ts ts') :
      UnfoldsAll cell (⟨g, e⟩ :: ws) (⟨g, f⟩ :: fs) (ts ∪ ts')

namespace UnfoldsAll

variable {cell cell' : Nat → Option Cell}

lemma congr (h : UnfoldsAll cell ws fs ts) (same : ∀ t ∈ ts, cell' t = cell t) :
    UnfoldsAll cell' ws fs ts := by
  induction h with
  | nil => exact .nil
  | cons head _ apart ih =>
    exact .cons (head.congr fun t ht => same t (.inl ht)) (ih fun t ht => same t (.inr ht)) apart

lemma known (h : UnfoldsAll cell ws fs ts) : ∀ t ∈ ts, cell t ≠ none := by
  induction h with
  | nil => exact fun _ ht => ht.elim
  | cons head _ _ ih => exact fun t ht => ht.elim (head.known t) (ih t)

lemma append {ws' fs' : List Work} {ts' : Set Nat} (h : UnfoldsAll cell ws fs ts)
    (h' : UnfoldsAll cell ws' fs' ts') (apart : Disjoint ts ts') :
    UnfoldsAll cell (ws ++ ws') (fs ++ fs') (ts ∪ ts') := by
  induction h with
  | nil => rwa [empty_union]
  | cons head _ hapart ih =>
    rw [disjoint_union_left] at apart
    rw [union_assoc]
    refine .cons head (ih apart.2) ?_
    rw [disjoint_union_right]
    exact ⟨hapart, apart.1⟩

lemma single (h : Unfolds cell e f ts) : UnfoldsAll cell [⟨g, e⟩] [⟨g, f⟩] ts := by
  have h1 := UnfoldsAll.cons h .nil (disjoint_empty ts)
  rwa [union_empty] at h1

end UnfoldsAll

end Evaluation

namespace Store

/-- Whether there is an answer to read. -/
lemma readAnswer_fst (s : Store) (task ticket : Nat) (who : Waiter) :
    (s.readAnswer task ticket who).1 = match (s.agenda task).slip ticket with
      | some (_, .given a) => some a
      | _ => none := by
  unfold readAnswer piece? slip
  cases (s.agenda task).pieces[ticket]? with
  | none => rfl
  | some p =>
    obtain ⟨work, reply, queued, woken, linked⟩ := p
    cases reply <;> rfl

lemma size_of_readAnswer {task : Nat} {a : Option Answer}
    (read : s.readAnswer task ticket who = (a, s')) : s'.agendas.size = s.agendas.size := by
  unfold readAnswer at read
  split at read <;> cases read
  · exact size_modify
  · exact size_modify

end Store

namespace Agenda

/-- Beyond the tickets that were given out there is nothing. -/
lemma cell_of_ge (h : a.pieces.size ≤ t) : a.cell t = none := by
  simp [cell, slip, getElem?_eq_none h]

lemma lt_of_cell (h : a.cell t ≠ none) : t < a.pieces.size := by
  by_contra hge
  exact h (cell_of_ge (Nat.le_of_not_lt hge))

lemma slip_of_working {w : Work} (h : a.cell t = some (.working w)) :
    ∃ reader, a.slip t = some (some w, .pending reader) := by
  unfold cell at h
  split at h
  · rename_i reader hslip
    cases h
    exact ⟨reader, hslip⟩
  · cases h
  · cases h

lemma slip_of_given {x : Answer} (h : a.cell t = some (.given x)) :
    a.slip t = some (none, .given x) := by
  unfold cell at h
  split at h
  · cases h
  · rename_i hslip
    cases h
    exact hslip
  · cases h

lemma slip_read (a : Agenda) (t : Nat) (who : Waiter) :
    (a.read t who).slip t = (a.slip t).map fun (work, reply) =>
      (work, match reply with
        | .given _ => .taken
        | _ => .pending (some who)) := by
  simp only [slip, read, getElem?_modify, if_true, Option.map_map]
  rfl

/-- Nothing was begun, finished or told: at most answers were taken and readers registered. -/
structure Calm (a a' : Agenda) : Prop where
  works : a'.pieces.map (·.work) = a.pieces.map (·.work)
  ready : a'.ready = a.ready
  enlisted : a'.enlisted = a.enlisted
  woken : a'.woken = a.woken

namespace Calm

variable {a1 a2 : Agenda}

lemma refl (a : Agenda) : Calm a a := ⟨rfl, rfl, rfl, rfl⟩

lemma trans (h1 : Calm a a1) (h2 : Calm a1 a2) : Calm a a2 :=
  ⟨h2.works.trans h1.works, h2.ready.trans h1.ready, h2.enlisted.trans h1.enlisted,
    h2.woken.trans h1.woken⟩

lemma read (a : Agenda) (t : Nat) (who : Waiter) : Calm a (a.read t who) := by
  refine ⟨?_, rfl, rfl, rfl⟩
  ext i
  · simp [Agenda.read]
  · simp only [Agenda.read, getElem_map, getElem_modify]
    split <;> rfl

end Calm

lemma slip_read_of_ne (a : Agenda) {t' : Nat} (who : Waiter) (h : t ≠ t') :
    (a.read t who).slip t' = a.slip t' := by
  simp [slip, read, getElem?_modify, h]

/-- An account of tickets: from those in `ts` and the ones given out since, those in `ts'` are left,
and the others stand for nothing any more. All other pieces are as they were. -/
structure Books (a : Agenda) (ts : Set Nat) (a' : Agenda) (ts' : Set Nat) : Prop where
  count : a.pieces.size ≤ a'.pieces.size
  frame : ∀ t < a.pieces.size, t ∉ ts → a'.slip t = a.slip t
  source : ∀ t ∈ ts', t ∈ ts ∨ a.pieces.size ≤ t
  kept : ∀ t, t ∈ ts ∨ a.pieces.size ≤ t → t ∈ ts' ∨ a'.cell t = none

namespace Books

variable {a1 a2 : Agenda} {ts1 ts2 rest : Set Nat}

lemma refl (a : Agenda) (ts : Set Nat) : Books a ts a ts :=
  ⟨le_rfl, fun _ _ _ => rfl, fun _ ht => .inl ht, fun _ ht => ht.imp id cell_of_ge⟩

lemma trans (h1 : Books a ts a1 ts1) (h2 : Books a1 ts1 a2 ts2) : Books a ts a2 ts2 where
  count := h1.count.trans h2.count
  frame t ht hts := by
    have hts1 : t ∉ ts1 := fun h => (h1.source t h).elim hts (Nat.not_le_of_lt ht)
    rw [h2.frame t (lt_of_lt_of_le ht h1.count) hts1, h1.frame t ht hts]
  source t ht := by
    rcases h2.source t ht with h | h
    · exact h1.source t h
    · exact .inr (h1.count.trans h)
  kept t ht := by
    rcases h1.kept t ht with h | h
    · exact h2.kept t (.inl h)
    · by_cases hts1 : t ∈ ts1
      · exact h2.kept t (.inl hts1)
      · by_cases hlt : t < a1.pieces.size
        · exact .inr ((cell_congr (h2.frame t hlt hts1)).trans h)
        · exact h2.kept t (.inr (Nat.le_of_not_lt hlt))

/-- Tickets that are not concerned may be added on both sides. -/
lemma add (h : Books a ts a1 ts1) (rest : Set Nat) : Books a (ts ∪ rest) a1 (ts1 ∪ rest) where
  count := h.count
  frame t ht hts := h.frame t ht fun hin => hts (.inl hin)
  source t ht := by
    rcases ht with ht | ht
    · exact (h.source t ht).imp .inl id
    · exact .inl (.inr ht)
  kept t ht := by
    rcases ht with (ht | ht) | ht
    · exact (h.kept t (.inl ht)).imp .inl id
    · exact .inl (.inr ht)
    · exact (h.kept t (.inr ht)).imp .inl id

/-- Tickets that are not concerned stand for what they did. -/
lemma cell_eq (h : Books a ts a1 ts1) (known : ∀ t ∈ rest, a.cell t ≠ none)
    (apart : Disjoint ts rest) : ∀ t ∈ rest, a1.cell t = a.cell t :=
  fun t ht => cell_congr (h.frame t (lt_of_cell (known t ht)) (disjoint_right.1 apart ht))

/-- Tickets that are not concerned are apart from those that are left. -/
lemma disjoint (h : Books a ts a1 ts1) (known : ∀ t ∈ rest, a.cell t ≠ none)
    (apart : Disjoint ts rest) : Disjoint ts1 rest := by
  rw [disjoint_right]
  intro t ht hts1
  rcases h.source t hts1 with hts | hge
  · exact disjoint_left.1 apart hts ht
  · exact Nat.not_lt_of_le hge (lt_of_cell (known t ht))

end Books

end Agenda

namespace Evaluation

open Agenda (Books)

/-- The tree `f` with tickets `ts` gets from the store `s` to what `e` unfolds to in the store `s'`,
and every ticket is accounted for. Without a step nothing is begun or finished. -/
def Simulates (cx : Context) {g : Goal} (s : Store) (f : Evaluation g) (ts : Set Nat)
    (e : Evaluation g) (s' : Store) : Prop :=
  ∃ n f' ts' ds fs td, Steps cx n f s.core f' fs s'.core ∧
    e.Unfolds (s'.agenda cx.task).cell f' ts' ∧
    UnfoldsAll (s'.agenda cx.task).cell ds fs td ∧ Disjoint ts' td ∧
    Books (s.agenda cx.task) ts (s'.agenda cx.task) (ts' ∪ td) ∧
    (n = 0 → (s.agenda cx.task).Calm (s'.agenda cx.task))

namespace Simulates

variable {h : Goal} {s1 : Store}

lemma of_steps (steps : Steps cx n f s.core f' [] s'.core)
    (same : s'.agenda cx.task = s.agenda cx.task) (hu : e.Unfolds (s.agenda cx.task).cell f' ts) :
    Simulates cx s f ts e s' := by
  refine ⟨n, f', ts, [], [], ∅, steps, same ▸ hu, .nil, disjoint_empty _, ?_, fun _ => ?_⟩
  · rw [union_empty, same]
    exact .refl _ _
  · rw [same]
    exact .refl _

/-- One run after the other. What the first one drops is left alone by the second. -/
lemma seq {e' : Evaluation g} (first : Simulates cx s f ts e s1)
    (second : ∀ f1 ts1, e.Unfolds (s1.agenda cx.task).cell f1 ts1 →
      Simulates cx s1 f1 ts1 e' s') : Simulates cx s f ts e' s' := by
  obtain ⟨n, f1, ts1, ds1, fs1, td1, hsteps1, hu1, hd1, hap1, hb1, hcalm1⟩ := first
  obtain ⟨m, f', ts', ds2, fs2, td2, hsteps2, hu2, hd2, hap2, hb2, hcalm2⟩ := second f1 ts1 hu1
  have hapart := hb2.disjoint hd1.known hap1
  rw [disjoint_union_left] at hapart
  refine ⟨m + n, f', ts', ds1 ++ ds2, fs1 ++ fs2, td1 ∪ td2, hsteps1.trans hsteps2, hu2,
    (hd1.congr (hb2.cell_eq hd1.known hap1)).append hd2 hapart.2.symm, ?_, ?_,
    fun h => (hcalm1 (by omega)).trans (hcalm2 (by omega))⟩
  · rw [disjoint_union_right]
    exact ⟨hapart.1, hap2⟩
  · have hb := hb1.trans (hb2.add td1)
    rwa [union_assoc, union_comm td2] at hb

/-- A step of an evaluation, unfolded. -/
lemma of_step (hm : Micro cx f s.core f' [] c) (hsp : Sprouts cx.task s e s1 f' c) :
    Simulates cx s f ∅ e s1 := by
  refine ⟨1, f', _, [], [], ∅, ?_, hsp.unfolds, .nil, disjoint_empty _, ?_,
    fun h => by cases h⟩
  · rw [hsp.core]
    exact .single hm
  · rw [union_empty]
    refine ⟨hsp.count, fun t ht _ => hsp.slip t ht, fun t ht => .inr ht.1, ?_⟩
    rintro t (ht | ht)
    · exact ht.elim
    · by_cases hlt : t < (s1.agenda cx.task).pieces.size
      · exact .inl ⟨ht, hlt⟩
      · exact .inr (cell_of_ge (Nat.le_of_not_lt hlt))

lemma one {f : Evaluation g} {ts : Set Nat} {e : Evaluation g} (frame : Frame g h)
    (inner : Simulates cx s f ts e s') :
    Simulates cx s (.one f frame.flat) ts (.one e frame) s' := by
  obtain ⟨n, f', ts', ds, fs, td, hsteps, hu, hd, hap, hb, hcalm⟩ := inner
  exact ⟨n, .one f' frame.flat, ts', ds, fs, td, hsteps.map (.one · frame.flat) (.one _),
    .one frame hu, hd, hap, hb, hcalm⟩

/-- A part of a tree runs, and the tickets in `rest`, which the other part uses, are left alone. -/
lemma part {e' : Evaluation h} {rest : Set Nat} (inner : Simulates cx s f ts e s')
    (C : Evaluation g → Evaluation h)
    (steps : ∀ {f f' : Evaluation g} {ds : List Work} {c c' : Core},
      Micro cx f c f' ds c' → Micro cx (C f) c (C f') ds c')
    (known : ∀ t ∈ rest, (s.agenda cx.task).cell t ≠ none) (apart : Disjoint ts rest)
    (unfolds : ∀ {cell : Nat → Option Cell} {f' : Evaluation g} {ts' : Set Nat},
      (∀ t ∈ rest, cell t = (s.agenda cx.task).cell t) → e.Unfolds cell f' ts' →
        Disjoint ts' rest → e'.Unfolds cell (C f') (ts' ∪ rest)) :
    Simulates cx s (C f) (ts ∪ rest) e' s' := by
  obtain ⟨n, f', ts', ds, fs, td, hsteps, hu, hd, hap, hb, hcalm⟩ := inner
  have hapart := hb.disjoint known apart
  rw [disjoint_union_left] at hapart
  refine ⟨n, C f', ts' ∪ rest, ds, fs, td, hsteps.map C steps,
    unfolds (hb.cell_eq known apart) hu hapart.1, hd, ?_, ?_, hcalm⟩
  · rw [disjoint_union_left]
    exact ⟨hap, hapart.2.symm⟩
  · have hb' := hb.add rest
    rwa [union_assoc, union_comm td, ← union_assoc] at hb'

lemma bothLeft {fl fr left' right : Evaluation g} {tl tr : Set Nat} (join : Join g h)
    (inner : Simulates cx s fl tl left' s')
    (hr : right.Unfolds (s.agenda cx.task).cell fr tr) (apart : Disjoint tl tr) :
    Simulates cx s (.both fl fr join.flat) (tl ∪ tr) (.both left' right join) s' :=
  inner.part (.both · fr join.flat) (.bothLeft _ _) hr.known apart fun same hu hap =>
    .both join hu (hr.congr same) hap

lemma bothRight {fl fr left right' : Evaluation g} {tl tr : Set Nat} (join : Join g h)
    (inner : Simulates cx s fr tr right' s')
    (hl : left.Unfolds (s.agenda cx.task).cell fl tl) (apart : Disjoint tl tr) :
    Simulates cx s (.both fl fr join.flat) (tl ∪ tr) (.both left right' join) s' := by
  rw [union_comm]
  refine inner.part (.both fl · join.flat) (.bothRight _ _) hl.known apart.symm
    fun same hu hap => ?_
  rw [union_comm]
  exact .both join (hl.congr same) hu hap.symm

lemma raceLeft {fl fr left' right : Evaluation .outcome} {tl tr : Set Nat}
    (inner : Simulates cx s fl tl left' s')
    (hr : right.Unfolds (s.agenda cx.task).cell fr tr) (apart : Disjoint tl tr) :
    Simulates cx s (.race fl fr) (tl ∪ tr) (.race left' right) s' :=
  inner.part (.race · fr) (.raceLeft _) hr.known apart fun same hu hap =>
    .race hu (hr.congr same) hap

lemma raceRight {fl fr left right' : Evaluation .outcome} {tl tr : Set Nat}
    (inner : Simulates cx s fr tr right' s')
    (hl : left.Unfolds (s.agenda cx.task).cell fl tl) (apart : Disjoint tl tr) :
    Simulates cx s (.race fl fr) (tl ∪ tr) (.race left right') s' := by
  rw [union_comm]
  refine inner.part (.race fl ·) (.raceRight _) hl.known apart.symm fun same hu hap => ?_
  rw [union_comm]
  exact .race (hl.congr same) hu hap.symm

/-- One half has failed and the other one is dropped. -/
lemma fail {f fd dropped : Evaluation .outcome} (hd : dropped.Unfolds (s.agenda cx.task).cell fd ts)
    (step : Micro cx f s.core (.done .fail) [⟨_, fd⟩] s.core) :
    Simulates cx s f ts (.done .fail) s := by
  refine ⟨1, .done .fail, ∅, [⟨_, dropped⟩], [⟨_, fd⟩], ts, .single step, .done _, .single hd,
    empty_disjoint _, ?_, fun h => by cases h⟩
  rw [empty_union]
  exact .refl _ _

/-- Looking for the answer of a piece. The ticket is used up if there is one. -/
lemma of_read {ts' : Set Nat} {a : Option Answer} (hs : cx.task < s.agendas.size)
    (read : s.readAnswer cx.task ticket who = (a, s')) (mem : ticket ∈ ts) (sub : ts' ⊆ ts)
    (hu : e.Unfolds ((s.agenda cx.task).read ticket who).cell f ts')
    (gone : ∀ t ∈ ts, t ∈ ts' ∨ ((s.agenda cx.task).read ticket who).cell t = none) :
    Simulates cx s f ts e s' := by
  have ha' := s.agenda_readAnswer ticket who hs
  have hcore : (s.readAnswer cx.task ticket who).2.core = s.core := by
    unfold Store.readAnswer
    split <;> rfl
  rw [read] at ha' hcore
  refine ⟨0, f, ts', [], [], ∅, hcore ▸ .refl _ _, ha' ▸ hu, .nil, disjoint_empty _, ?_,
    fun _ => ha' ▸ .read _ _ _⟩
  rw [union_empty, ha']
  refine ⟨by simp [Agenda.read], fun t _ ht => ?_, fun t ht => .inl (sub ht), ?_⟩
  · exact Agenda.slip_read_of_ne _ _ fun h => ht (h ▸ mem)
  · rintro t (ht | ht)
    · exact gone t ht
    · exact .inr (Agenda.cell_of_ge (by simpa [Agenda.read] using ht))

lemma await {ticket : Nat} {who : Waiter} {f : Evaluation g} {ts : Set Nat}
    (hs : cx.task < s.agendas.size)
    (hu : (Evaluation.awaiting ticket).Unfolds (s.agenda cx.task).cell f ts)
    (pending : s.readAnswer cx.task ticket who = (none, s')) :
    Simulates cx s f ts (.awaiting ticket) s' := by
  have hnone := s.readAnswer_fst cx.task ticket who
  rw [pending] at hnone
  cases hu with
  | given known =>
    rw [slip_of_given known] at hnone
    cases hnone
  | working known inner fresh =>
    obtain ⟨reader, hslip⟩ := slip_of_working known
    refine .of_read hs pending (.inl rfl) subset_rfl
      ((Unfolds.working known inner fresh).congr fun t _ => ?_) fun t ht => .inl ht
    by_cases ht : ticket = t
    · subst ht
      rw [known, cell, slip_read, hslip]
      rfl
    · exact cell_congr (slip_read_of_ne _ _ ht)

/-- Reading the answer of a piece that has finished. -/
lemma answer {a : Answer} (hs : cx.task < s.agendas.size)
    (hu : (Evaluation.awaiting ticket).Unfolds (s.agenda cx.task).cell f ts)
    (given : s.readAnswer cx.task ticket who = (some a, s')) :
    Simulates cx s f ts (.done (a.get g)) s' := by
  have hsome := s.readAnswer_fst cx.task ticket who
  rw [given] at hsome
  cases hu with
  | working known inner fresh =>
    obtain ⟨reader, hslip⟩ := slip_of_working known
    rw [hslip] at hsome
    cases hsome
  | @given _ _ r known =>
    have hslip := slip_of_given known
    rw [hslip] at hsome
    cases hsome
    rw [Answer.get, dif_pos rfl]
    refine .of_read hs given rfl (empty_subset _) (.done r) ?_
    rintro t rfl
    refine .inr ?_
    rw [cell, slip_read, hslip]
    rfl

end Simulates

/-- Whatever `e` unfolds to gets from the store `s` to what `e'` unfolds to in the store `s'`. -/
def Follows (cx : Context) {g : Goal} (e : Evaluation g) (s : Store) (e' : Evaluation g)
    (s' : Store) : Prop :=
  cx.task < s.agendas.size → cx.task < s'.agendas.size ∧
    ∀ {f : Evaluation g} {ts : Set Nat}, e.Unfolds (s.agenda cx.task).cell f ts →
      Simulates cx s f ts e' s'

/-- What each unfolded tree does is closed under the steps of a run. -/
theorem Follows.closed (cx : Context) (who : Waiter) :
    Closed cx who fun e s _ e' s' => Follows cx e s e' s' where
  refl e s := fun hs => ⟨hs, .of_steps (.refl _ _) rfl⟩
  trans first second := by
    intro hs
    obtain ⟨hs1, h1⟩ := first hs
    obtain ⟨hs', h2⟩ := second hs1
    exact ⟨hs', fun hu => (h1 hu).seq fun _ _ hu1 => h2 hu1⟩
  start job s := by
    intro hs
    have hsp := job.begin_sprouts cx s hs
    refine ⟨by rwa [hsp.size], fun hu => ?_⟩
    cases hu
    exact .of_step (.start job.flat s.core) hsp
  read bound := by
    refine fun hs => ⟨hs, fun hu => ?_⟩
    cases hu
    exact .of_steps (.single (.read bound)) rfl (.done _)
  park unbound := by
    refine fun hs => ⟨hs, fun hu => ?_⟩
    cases hu
    exact .of_steps (.park _ who (.refl _ _)) rfl (.parked _)
  answer given := by
    refine fun hs => ⟨?_, fun hu => .answer hs hu given⟩
    rwa [Store.size_of_readAnswer given]
  await pending := by
    refine fun hs => ⟨?_, fun hu => .await hs hu pending⟩
    rwa [Store.size_of_readAnswer pending]
  resume frame r s := by
    intro hs
    have hsp := frame.resume_sprouts cx s hs r
    refine ⟨by rwa [hsp.size], fun hu => ?_⟩
    cases hu with
    | one _ inner =>
      cases inner
      exact .of_step (.resume r frame.flat s.core) hsp
  join join a b s := by
    intro hs
    have hsp := join.resume_sprouts cx s a b
    refine ⟨by rwa [hsp.size], fun hu => ?_⟩
    cases hu with
    | both _ hl hr _ =>
      cases hl
      cases hr
      rw [union_empty]
      exact .of_step (.join a b join.flat s.core) hsp
  merge a b s := by
    intro hs
    have hsp := a.join_sprouts cx s b
    refine ⟨by rwa [hsp.size], fun hu => ?_⟩
    cases hu with
    | race hl hr _ =>
      cases hl
      cases hr
      rw [union_empty]
      exact .of_step (.merge a b s.core) hsp
  failLeft right s := by
    refine fun hs => ⟨hs, fun hu => ?_⟩
    cases hu with
    | race hl hr _ =>
      cases hl
      rw [empty_union]
      exact .fail hr (.failLeft _ _)
  failRight left s := by
    refine fun hs => ⟨hs, fun hu => ?_⟩
    cases hu with
    | race hl hr _ =>
      cases hr
      rw [union_empty]
      exact .fail hl (.failRight _ _)
  one frame part := by
    refine fun hs => ⟨(part hs).1, fun hu => ?_⟩
    cases hu with
    | one _ inner => exact ((part hs).2 inner).one frame
  bothLeft right join left := by
    refine fun hs => ⟨(left hs).1, fun hu => ?_⟩
    cases hu with
    | both _ hl hr apart => exact .bothLeft join ((left hs).2 hl) hr apart
  bothRight left join right := by
    refine fun hs => ⟨(right hs).1, fun hu => ?_⟩
    cases hu with
    | both _ hl hr apart => exact .bothRight join ((right hs).2 hr) hl apart
  raceLeft right left := by
    refine fun hs => ⟨(left hs).1, fun hu => ?_⟩
    cases hu with
    | race hl hr apart => exact .raceLeft ((left hs).2 hl) hr apart
  raceRight left right := by
    refine fun hs => ⟨(right hs).1, fun hu => ?_⟩
    cases hu with
    | race hl hr apart => exact .raceRight ((right hs).2 hr) hl apart

/-- A run of an evaluation takes small steps on what it unfolds to. -/
theorem Run.simulates {e' : Evaluation g} {log : List Request} (h : Run cx who e s log e' s')
    (hs : cx.task < s.agendas.size) (hu : e.Unfolds (s.agenda cx.task).cell f ts) :
    Simulates cx s f ts e' s' :=
  (h.closed (Follows.closed cx who) hs).2 hu

end Evaluation

end Troupe
