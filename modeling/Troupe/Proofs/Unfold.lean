import Mathlib.Data.Set.BooleanAlgebra
import Mathlib.Order.CompletePartialOrder
import Mathlib.Order.Interval.Set.Basic
import Troupe.Proofs.Footprint

/-!
Evaluations with their detached parts put back in place.

Where an evaluation is cut depends on how deep it nests, and a detached part waits for its turn
among the others. Neither matters for what is computed. Here the parts are put back
(`Evaluation.Unfolds`) and depths are forgotten (`Evaluation.flat`); what is left is one tree and
the `Core` of the store, and a run takes small steps on them (`Evaluation.Micro`).

* `Job.begin_sprouts`, `Frame.resume_sprouts`, `Join.resume_sprouts`: a step of an evaluation is a
  small step on the unfolded tree; what it detaches belongs to it.
-/

namespace Troupe

open Agenda Evaluation Set Store

variable {s s' : Store} {g h : Goal} {e f : Evaluation g} {task : Nat}

/-! ### Forgetting depths -/

/-- A place at the top. -/
def Place.flat (here : Place) : Place := { here with depth := 0 }

/-- A job at the top. -/
def Job.flat {g : Goal} : Job g → Job g
  | .eval e here => .eval e here.flat
  | .apply f a _ => .apply f a 0
  | .exec stmt here => .exec stmt here.flat
  | .publish b caller => .publish b caller.flat
  | .deliver behavior message self exported here =>
    .deliver behavior message self exported here.flat
  | .fit p v here => .fit p v here.flat
  | .unify left right here => .unify left right here.flat
  | .unifyName right left here => .unifyName right left here.flat
  | .unifyPair right left here => .unifyPair right left here.flat
  | .resolve p here => .resolve p here.flat

/-- A frame at the top. -/
def Frame.flat {g h : Goal} : Frame g h → Frame g h
  | .choose arms here => .choose arms here.flat
  | .arm body layer rest subject here => .arm body layer rest subject here.flat
  | .branch yes layer no here => .branch yes layer no here.flat
  | .enter body layer => .enter body layer.flat
  | .nested body layer => .nested body layer.flat
  | .new env => .new env
  | .equals v => .equals v
  | .fit p here => .fit p here.flat
  | .resolved p here => .resolved p here.flat
  | .fitTail p v here => .fitTail p v here.flat
  | .unifyTail left right here => .unifyTail left right here.flat
  | .known => .known
  | .define p here => .define p here.flat
  | .defined v => .defined v
  | .equated => .equated
  | .delay message target here => .delay message target here.flat
  | .init id name env => .init id name env
  | .become => .become
  | .throw => .throw
  | .run here => .run here.flat
  | .perform self exported here => .perform self exported here.flat
  | .offer vars env => .offer vars env

/-- A join at the top. -/
def Join.flat {g h : Goal} : Join g h → Join g h
  | .apply _ => .apply 0
  | .pair => .pair
  | .send delay => .send delay
  | .meanings => .meanings

/-- An evaluation without its depths. -/
def Evaluation.flat : {g : Goal} → Evaluation g → Evaluation g
  | _, .done r => .done r
  | _, .start job => .start job.flat
  | _, .parked slot => .parked slot
  | _, .awaiting ticket => .awaiting ticket
  | _, .one part frame => .one part.flat frame.flat
  | _, .both left right join => .both left.flat right.flat join.flat
  | _, .race left right => .race left.flat right.flat

/-! ### The core of a store -/

/-- The store without its agendas. -/
structure Core where
  heap : Heap
  transactions : Array Transaction
  ids : IdSource

/-- The core of a store. -/
def Store.core (s : Store) : Core := ⟨s.heap, s.transactions, s.ids⟩

/-- A store with this core and no agendas. -/
def Core.store (c : Core) : Store :=
  { heap := c.heap, transactions := c.transactions, ids := c.ids }

/-! ### Unfolding -/

/-- What a ticket stands for: an evaluation that has not finished, or an answer that was not
read. -/
inductive Cell where
  | working (w : Work)
  | given (a : Answer)

namespace Agenda

/-- What is left to do of a piece, and its answer. -/
def slip (a : Agenda) (ticket : Nat) : Option (Option Work × Reply) :=
  a.pieces[ticket]?.map fun p => (p.work, p.reply)

/-- What a ticket stands for. -/
def cell (a : Agenda) (ticket : Nat) : Option Cell :=
  match a.slip ticket with
  | some (some w, .pending _) => some (.working w)
  | some (none, .given answer) => some (.given answer)
  | _ => none

lemma cell_congr {a a' : Agenda} {ticket : Nat} (h : a'.slip ticket = a.slip ticket) :
    a'.cell ticket = a.cell ticket := by
  rw [cell, cell, h]

/-- Telling changes flags and the ready queue; pieces and their answers are left alone. -/
lemma told_frame (task : Nat) (a : Agenda) (w : Waiter) :
    ∃ pieces ready armed woken, a.told task w = { a with pieces, ready, armed, woken } ∧
      pieces.size = a.pieces.size ∧ ∀ ticket, (a.told task w).slip ticket = a.slip ticket := by
  unfold told
  split
  · split <;> exact ⟨_, _, _, _, rfl, rfl, fun _ => rfl⟩
  · split
    · unfold tellPiece
      split
      · exact ⟨_, _, _, _, rfl, rfl, fun _ => rfl⟩
      · split
        · exact ⟨_, _, _, _, rfl, rfl, fun _ => rfl⟩
        · split <;>
          · refine ⟨_, _, _, _, rfl, Array.size_modify, fun ticket => ?_⟩
            simp only [slip, Array.getElem?_modify]
            split
            · rw [Option.map_map]
              rfl
            · rfl
    · exact ⟨_, _, _, _, rfl, rfl, fun _ => rfl⟩
  · exact ⟨_, _, _, _, rfl, rfl, fun _ => rfl⟩

@[simp] lemma slip_told (task : Nat) (a : Agenda) (w : Waiter) (ticket : Nat) :
    (a.told task w).slip ticket = a.slip ticket := by
  obtain ⟨_, _, _, _, _, _, hslip⟩ := a.told_frame task w
  exact hslip ticket

@[simp] lemma size_told (task : Nat) (a : Agenda) (w : Waiter) :
    (a.told task w).pieces.size = a.pieces.size := by
  obtain ⟨_, _, _, _, heq, hsize, _⟩ := a.told_frame task w
  rwa [heq]

@[simp] lemma slip_toldAll (task : Nat) (a : Agenda) (ws : List Waiter) (ticket : Nat) :
    (ws.foldl (told task) a).slip ticket = a.slip ticket := by
  induction ws generalizing a with
  | nil => rfl
  | cons w ws ih => rw [List.foldl_cons, ih, slip_told]

@[simp] lemma size_toldAll (task : Nat) (a : Agenda) (ws : List Waiter) :
    (ws.foldl (told task) a).pieces.size = a.pieces.size := by
  induction ws generalizing a with
  | nil => rfl
  | cons w ws ih => rw [List.foldl_cons, ih, size_told]

lemma slip_detach_of_lt (a : Agenda) (job : Job g) {ticket : Nat} (h : ticket < a.pieces.size) :
    (a.detach job).slip ticket = a.slip ticket := by
  simp [slip, detach, Array.getElem?_push, Nat.ne_of_lt h]

lemma cell_detach (a : Agenda) (job : Job g) :
    (a.detach job).cell a.pieces.size = some (.working ⟨g, .start job⟩) := by
  simp [cell, slip, detach]

end Agenda

namespace Evaluation

/-- Putting the pieces that `cell` knows back in place of their tickets, and forgetting depths,
gives the tree on the right. The set collects the tickets; each is used once. -/
inductive Unfolds (cell : Nat → Option Cell) :
    {g : Goal} → Evaluation g → Evaluation g → Set Nat → Prop where
  | done {g : Goal} (r : g.Result) : Unfolds cell (.done r) (.done r) ∅
  | start {g : Goal} (job : Job g) : Unfolds cell (.start job) (.start job.flat) ∅
  | parked (slot : Nat) : Unfolds cell (.parked slot) (.parked slot) ∅
  | working {g : Goal} {ticket : Nat} {e f : Evaluation g} {ts : Set Nat}
      (known : cell ticket = some (.working ⟨g, e⟩)) (inner : Unfolds cell e f ts)
      (fresh : ticket ∉ ts) : Unfolds cell (.awaiting ticket) f (insert ticket ts)
  | given {g : Goal} {ticket : Nat} {r : g.Result}
      (known : cell ticket = some (.given ⟨g, r⟩)) :
      Unfolds cell (.awaiting ticket) (.done r) {ticket}
  | one {g h : Goal} {part f : Evaluation g} {ts : Set Nat} (frame : Frame g h)
      (inner : Unfolds cell part f ts) : Unfolds cell (.one part frame) (.one f frame.flat) ts
  | both {g h : Goal} {left right fl fr : Evaluation g} {tl tr : Set Nat} (join : Join g h)
      (first : Unfolds cell left fl tl) (second : Unfolds cell right fr tr)
      (apart : Disjoint tl tr) :
      Unfolds cell (.both left right join) (.both fl fr join.flat) (tl ∪ tr)
  | race {left right fl fr : Evaluation .outcome} {tl tr : Set Nat}
      (first : Unfolds cell left fl tl) (second : Unfolds cell right fr tr)
      (apart : Disjoint tl tr) : Unfolds cell (.race left right) (.race fl fr) (tl ∪ tr)

/-- Only the tickets of an evaluation matter for it. -/
lemma Unfolds.congr {cell cell' : Nat → Option Cell} {ts : Set Nat} (h : Unfolds cell e f ts)
    (same : ∀ t ∈ ts, cell' t = cell t) : Unfolds cell' e f ts := by
  induction h with
  | done r => exact .done r
  | start job => exact .start job
  | parked slot => exact .parked slot
  | @working g ticket e f ts known _ fresh ih =>
    refine .working ?_ (ih fun t ht => same t (mem_insert_of_mem _ ht)) fresh
    rw [same _ (mem_insert ..), known]
  | @given g ticket r known =>
    refine .given ?_
    rw [same _ rfl, known]
  | one frame _ ih => exact .one frame (ih same)
  | both join _ _ apart ih1 ih2 =>
    exact .both join (ih1 fun t ht => same t (.inl ht)) (ih2 fun t ht => same t (.inr ht)) apart
  | race _ _ apart ih1 ih2 =>
    exact .race (ih1 fun t ht => same t (.inl ht)) (ih2 fun t ht => same t (.inr ht)) apart

/-- Tickets stand for something. -/
lemma Unfolds.known {cell : Nat → Option Cell} {ts : Set Nat} (h : Unfolds cell e f ts) :
    ∀ t ∈ ts, cell t ≠ none := by
  induction h with
  | done | start | parked => exact fun _ ht => ht.elim
  | working known _ _ ih =>
    rintro t (rfl | ht)
    · simp [known]
    · exact ih t ht
  | given known =>
    rintro t rfl
    simp [known]
  | one frame _ ih => exact ih
  | both join _ _ _ ih1 ih2 | race _ _ _ ih1 ih2 => exact fun t ht => ht.elim (ih1 t) (ih2 t)

/-- Nothing of the evaluation is detached. -/
inductive Whole : {g : Goal} → Evaluation g → Prop where
  | done {g : Goal} (r : g.Result) : Whole (.done r)
  | start {g : Goal} (job : Job g) : Whole (.start job)
  | parked (slot : Nat) : Whole (.parked slot)
  | one {g h : Goal} {part : Evaluation g} (frame : Frame g h) (inner : Whole part) :
      Whole (.one part frame)
  | both {g h : Goal} {left right : Evaluation g} (join : Join g h) (first : Whole left)
      (second : Whole right) : Whole (.both left right join)

/-- What is whole unfolds to itself. -/
lemma Whole.unfolds {cell : Nat → Option Cell} (h : e.Whole) : Unfolds cell e e.flat ∅ := by
  induction h with
  | done r => exact .done r
  | start job => exact .start job
  | parked slot => exact .parked slot
  | one frame _ ih => exact .one frame ih
  | both join _ _ ih1 ih2 =>
    have h := Unfolds.both join ih1 ih2 (disjoint_empty _)
    rwa [union_empty] at h

/-- The slots that are waited for satisfy `B`, and no sequence still holds a right half that has
failed. -/
def Fit (B : Nat → Prop) : {g : Goal} → Evaluation g → Prop
  | _, .parked slot => B slot
  | _, .one part _ => part.Fit B
  | _, .both left right _ => left.Fit B ∧ right.Fit B
  | _, .race left right => left.Fit B ∧ right.Fit B ∧ right ≠ .done .fail
  | _, _ => True

lemma ne_fail_of_waits {e : Evaluation .outcome} (h : e.Waits) : e ≠ .done .fail := by
  rintro rfl
  exact not_waits_done _ h

end Evaluation

/-! ### Steps detach what belongs to them -/

/-- The pieces of a task and their answers are the same. -/
structure Store.Keeps (task : Nat) (s s' : Store) : Prop where
  size : s'.agendas.size = s.agendas.size
  count : (s'.agenda task).pieces.size = (s.agenda task).pieces.size
  slip : ∀ t, (s'.agenda task).slip t = (s.agenda task).slip t

namespace Store

lemma Keeps.of_eq (same : s'.agendas = s.agendas) : s.Keeps task s' := by
  have ha : s'.agenda task = s.agenda task := by simp [agenda, same]
  exact ⟨by rw [same], by rw [ha], fun t => by rw [ha]⟩

lemma keeps_bind (s : Store) (name : String) (v : Value) (env : Env) (hs : task < s.agendas.size) :
    s.Keeps task (s.bind name v env).2 := by
  obtain ⟨ws, hws⟩ := agenda_bind (s := s) name v env hs
  refine ⟨size_wakeAll .., ?_, ?_⟩
  · rw [hws, size_toldAll]
  · intro t
    rw [hws, slip_toldAll]

/-- What is run one level deeper has not begun. -/
lemma nest_waits (s : Store) (cx : Context) (depth : Nat) (job : Nat → Job g) :
    (s.nest cx depth job).1.Waits := by
  unfold nest
  split <;> rfl

/-- Telling waiters leaves the core alone. -/
lemma core_wakeAll (s : Store) (ws : List Waiter) : (ws.foldl wake s).core = s.core := by
  simp [core]

/-- Binding a name changes the core by what it does to the heap. -/
lemma core_bind (s : Store) (name : String) (v : Value) (env : Env) :
    (s.bind name v env).2.core = { s.core with heap := (s.heap.bind name v env).2.2 } := by
  simp [core, bind]

/-- Offering variables changes the core only, and only by what is in it. -/
lemma core_offer (s : Store) (cx : Context) (env : Env) (vars : List String) :
    (s.offer cx env vars).core = (s.core.store.offer cx env vars).core ∧
      (s.offer cx env vars).agendas = s.agendas := by
  rw [offer_eq, offer_eq]
  exact ⟨rfl, rfl⟩

end Store

/-- A step leads from the store `s` to `e` and `s'`; unfolded, it leads to `f` and the core `c`. The
tickets of `e` are those that the step gave out. -/
structure Sprouts (task : Nat) {g : Goal} (s : Store) (e : Evaluation g) (s' : Store)
    (f : Evaluation g) (c : Core) : Prop where
  core : s'.core = c
  size : s'.agendas.size = s.agendas.size
  count : (s.agenda task).pieces.size ≤ (s'.agenda task).pieces.size
  slip : ∀ t < (s.agenda task).pieces.size, (s'.agenda task).slip t = (s.agenda task).slip t
  unfolds : e.Unfolds (s'.agenda task).cell f
    (Set.Ico (s.agenda task).pieces.size (s'.agenda task).pieces.size)

/-- A step that sprouts and leads to a well-formed evaluation. -/
structure Buds (B : Nat → Prop) (task : Nat) {g : Goal} (s : Store) (e : Evaluation g) (s' : Store)
    (f : Evaluation g) (c : Core) : Prop extends Sprouts task s e s' f c where
  fit : e.Fit B

namespace Sprouts

variable {s1 : Store} {e' f' : Evaluation h} {c c' : Core}

/-- A change that keeps pieces may come before a step. -/
lemma after (keeps : s.Keeps task s1) (h : Sprouts task s1 e s' f c) : Sprouts task s e s' f c := by
  obtain ⟨core, size, count, slip, unfolds⟩ := h
  rw [keeps.count] at count slip unfolds
  exact ⟨core, size.trans keeps.size, count, fun t ht => (slip t ht).trans (keeps.slip t), unfolds⟩

/-- Two steps, one after the other, are apart, and together they gave out all tickets. -/
lemma tickets (first : Sprouts task s e s1 f c) (second : Sprouts task s1 e' s' f' c') :
    Disjoint (Ico (s.agenda task).pieces.size (s1.agenda task).pieces.size)
        (Ico (s1.agenda task).pieces.size (s'.agenda task).pieces.size) ∧
      Ico (s.agenda task).pieces.size (s'.agenda task).pieces.size =
        Ico (s.agenda task).pieces.size (s1.agenda task).pieces.size ∪
          Ico (s1.agenda task).pieces.size (s'.agenda task).pieces.size := by
  have h1 := first.count
  have h2 := second.count
  constructor
  · rw [disjoint_left]
    rintro t ⟨_, h3⟩ ⟨h4, _⟩
    omega
  · ext t
    simp only [mem_Ico, mem_union]
    omega

/-- Two steps that make one evaluation. -/
lemma pair {k : Goal} {e2 f2 : Evaluation k} (first : Sprouts task s e s1 f c)
    (second : Sprouts task s1 e' s' f' c')
    (unfolds : ∀ {cell : Nat → Option Cell} {tl tr : Set Nat}, e.Unfolds cell f tl →
      e'.Unfolds cell f' tr → Disjoint tl tr → e2.Unfolds cell f2 (tl ∪ tr)) :
    Sprouts task s e2 s' f2 c' := by
  obtain ⟨apart, all⟩ := first.tickets second
  refine ⟨second.core, second.size.trans first.size, first.count.trans second.count,
    fun t ht => ?_, ?_⟩
  · rw [second.slip t (Nat.lt_of_lt_of_le ht first.count), first.slip t ht]
  · rw [all]
    exact unfolds (first.unfolds.congr fun t ht => cell_congr (second.slip t ht.2))
      second.unfolds apart

end Sprouts

namespace Buds

variable {B : Nat → Prop} {s1 : Store} {c c' : Core}

lemma whole (keeps : s.Keeps task s') (core : s'.core = c) (whole : e.Whole) (fit : e.Fit B)
    (flat : f = e.flat) : Buds B task s e s' f c := by
  refine ⟨⟨core, keeps.size, keeps.count.ge, fun t _ => keeps.slip t, ?_⟩, fit⟩
  rw [keeps.count, Ico_self, flat]
  exact whole.unfolds

lemma done {r : g.Result} (agendas : s'.agendas = s.agendas) (core : s'.core = c) :
    Buds B task s (.done r) s' (.done r) c :=
  whole (.of_eq agendas) core (.done r) trivial rfl

lemma start {job job' : Job g} (agendas : s'.agendas = s.agendas) (core : s'.core = c)
    (flat : job' = job.flat) : Buds B task s (.start job) s' (.start job') c :=
  whole (.of_eq agendas) core (.start job) trivial (by rw [flat, Evaluation.flat])

lemma startOne {job job' : Job g} {frame frame' : Frame g h} (agendas : s'.agendas = s.agendas)
    (core : s'.core = c) (flat : job' = job.flat) (flat' : frame' = frame.flat) :
    Buds B task s (.one (.start job) frame) s' (.one (.start job') frame') c :=
  whole (.of_eq agendas) core (.one frame (.start job)) trivial
    (by rw [flat, flat', Evaluation.flat, Evaluation.flat])

lemma after (keeps : s.Keeps task s1) (h : Buds B task s1 e s' f c) :
    Buds B task s e s' f c := ⟨h.toSprouts.after keeps, h.fit⟩

lemma nest (cx : Context) (depth : Nat) {job : Nat → Job g}
    (flat : ∀ d, (job d).flat = (job 0).flat) (hs : cx.task < s.agendas.size) (hc : s.core = c) :
    Buds B cx.task s (s.nest cx depth job).1 (s.nest cx depth job).2 (.start (job 0).flat) c := by
  unfold Store.nest
  split
  · exact start rfl hc (flat (depth + 1)).symm
  · have ha := s.agenda_detach (job 0) hs
    refine ⟨⟨hc, s.size_modifyAgenda _, ?_, ?_, ?_⟩, trivial⟩
    · rw [ha]
      simp [Agenda.detach]
    · intro t ht
      rw [ha]
      exact Agenda.slip_detach_of_lt _ _ ht
    · have hone := Evaluation.Unfolds.working ((s.agenda cx.task).cell_detach (job 0))
        (.start (job 0)) (notMem_empty _)
      have hset : Ico (s.agenda cx.task).pieces.size
          ((s.agenda cx.task).detach (job 0)).pieces.size =
            insert (s.agenda cx.task).pieces.size ∅ := by
        ext t
        simp [Agenda.detach]
        omega
      rwa [ha, hset]

lemma one {e f : Evaluation g} (frame : Frame g h) (inner : Buds B task s e s' f c) :
    Buds B task s (.one e frame) s' (.one f frame.flat) c :=
  ⟨⟨inner.core, inner.size, inner.count, inner.slip, .one frame inner.unfolds⟩, inner.fit⟩

lemma both {e e' f f' : Evaluation g} (join : Join g h) (first : Buds B task s e s1 f c)
    (second : Buds B task s1 e' s' f' c') :
    Buds B task s (.both e e' join) s' (.both f f' join.flat) c' :=
  ⟨first.toSprouts.pair second.toSprouts (.both join), first.fit, second.fit⟩

lemma nestExpr (e : Expr) (cx : Context) (here : Place) (hs : cx.task < s.agendas.size)
    (hc : s.core = c) :
    Buds B cx.task s (e.nest cx here s).1 (e.nest cx here s).2 (.start (.eval e here.flat)) c :=
  nest cx here.depth (fun _ => rfl) hs hc

lemma nestStmt (stmt : Stmt) (cx : Context) (here : Place) (hs : cx.task < s.agendas.size)
    (hc : s.core = c) :
    Buds B cx.task s (stmt.nest cx here s).1 (stmt.nest cx here s).2
      (.start (.exec stmt here.flat)) c :=
  nest cx here.depth (fun _ => rfl) hs hc

lemma nestBoth (e e' : Expr) (cx : Context) (here : Place) (join : Join .value h)
    (hs : cx.task < s.agendas.size) (hc : s.core = c) :
    Buds B cx.task s
      (.both (e.nest cx here s).1 (e'.nest cx here (e.nest cx here s).2).1 join)
      (e'.nest cx here (e.nest cx here s).2).2
      (.both (.start (.eval e here.flat)) (.start (.eval e' here.flat)) join.flat) c :=
  have first := nestExpr e cx here hs hc
  .both join first (nestExpr e' cx here (by rwa [first.size]) first.core)

lemma settle {cx : Context} (f : Transaction → Outcome × Transaction) {s0 : Store}
    (hc : s.core = s0.core) :
    Buds B task s (s.settle cx f).1 (s.settle cx f).2 (s0.settle cx f).1.flat
      (s0.settle cx f).2.core := by
  have ht : s.transactions = s0.transactions := congrArg Core.transactions hc
  have hh : s.heap = s0.heap := congrArg Core.heap hc
  have hi : s.ids = s0.ids := congrArg Core.ids hc
  refine whole (.of_eq rfl) ?_ (.done _) trivial ?_
  · simp [Store.settle, Store.core, Store.onTransaction, Store.transaction, ht, hh, hi]
  · simp [Store.settle, Store.onTransaction, Store.transaction, ht, Evaluation.flat]

end Buds

section Steps

variable {B : Nat → Prop} (cx : Context) (s : Store) (hs : cx.task < s.agendas.size)

include hs

lemma Expr.begin_buds (e : Expr) (here : Place)
    (found : ∀ name env slot, s.heap.lookup name env = .unbound slot → B slot) :
    Buds B cx.task s (e.begin cx here s).1 (e.begin cx here s).2
      (e.begin cx here.flat s.core.store).1.flat (e.begin cx here.flat s.core.store).2.core := by
  cases e with
  | ident name =>
    show Buds B cx.task s (here.env.find name s) s (here.env.find name s).flat s.core
    unfold Env.find
    split
    · exact .done rfl rfl
    · rename_i slot hslot
      exact .whole (.of_eq rfl) rfl (.parked _) (found name here.env slot hslot) rfl
  | apply a b | pair a b => exact .nestBoth a b cx here _ hs rfl
  | choose e _ | new e => exact .one _ (.nestExpr e cx here hs rfl)
  | cond left right yes no => exact .startOne rfl rfl rfl rfl
  | _ => exact .done rfl rfl

lemma Block.nest_buds (b : Block) (caller : Place) :
    Buds B cx.task s (b.nest cx caller s).2.1 (b.nest cx caller s).2.2
      (b.nest cx caller.flat s.core.store).2.1.flat
      (b.nest cx caller.flat s.core.store).2.2.core := by
  have hopen : s.Keeps cx.task (s.onHeap (·.newScope b.env caller.env b.vars)).2 := .of_eq rfl
  have hbody := Buds.after (B := B) hopen (.nestStmt b.body cx
    { caller with env := (s.heap.newScope b.env caller.env b.vars).1 } hs rfl)
  exact hbody

omit hs in
/-- An actor with a name is created, or the name is taken. -/
lemma Stmt.begin_create (name : String) (behavior : Expr) (here : Place) :
    (Stmt.create name behavior).begin cx here s =
      let s1 := (s.reserve.2.bind name (.actor s.reserve.1) here.env).2
      if (s.reserve.2.bind name (.actor s.reserve.1) here.env).1 then
        (.one (behavior.nest cx here s1).1 (.init s.reserve.1 ("@" ++ name) here.env),
          (behavior.nest cx here s1).2)
      else s1.throw cx (.pair (.symbol "conflict") (.symbol name)) := by
  unfold begin
  dsimp only
  cases s.reserve.2.bind name (.actor s.reserve.1) here.env with
  | mk ok s1 => cases ok <;> rfl

lemma Stmt.begin_buds (stmt : Stmt) (here : Place) :
    Buds B cx.task s (stmt.begin cx here s).1 (stmt.begin cx here s).2
      (stmt.begin cx here.flat s.core.store).1.flat
      (stmt.begin cx here.flat s.core.store).2.core := by
  cases stmt with
  | empty => exact .done rfl rfl
  | seq a b =>
    have first := Buds.nestStmt (B := B) a cx here hs rfl
    have second := Buds.nestStmt (B := B) b cx here (by rwa [first.size]) first.core
    have hwaits : (b.nest cx here (a.nest cx here s).2).1.Waits := nest_waits ..
    exact ⟨first.toSprouts.pair second.toSprouts .race, first.fit, second.fit,
      ne_fail_of_waits hwaits⟩
  | equate left right => exact .startOne rfl rfl rfl rfl
  | send message target => exact .nestBoth target message cx here _ hs rfl
  | create name behavior =>
    have hres : s.Keeps cx.task s.reserve.2 := .of_eq rfl
    have hbind := s.reserve.2.keeps_bind name (.actor s.reserve.1) here.env hs
    have hcore : (s.reserve.2.bind name (.actor s.reserve.1) here.env).2.core =
        (s.core.store.reserve.2.bind name (.actor s.reserve.1) here.env).2.core := by
      rw [core_bind, core_bind]
      rfl
    rw [begin_create, begin_create]
    cases hok : (s.reserve.2.bind name (.actor s.reserve.1) here.env).1 with
    | true =>
      have hok' : (s.core.store.reserve.2.bind name (.actor s.core.store.reserve.1)
        here.flat.env).1 = true := hok
      simp only [hok', if_true]
      have hinit := Buds.nestExpr (B := B) behavior cx here (by rwa [hbind.size]) hcore
      exact .after hres (.after hbind (.one _ hinit))
    | false =>
      have hok' : (s.core.store.reserve.2.bind name (.actor s.core.store.reserve.1)
        here.flat.env).1 = false := hok
      simp only [hok', Bool.false_eq_true, if_false]
      exact .after hres (.after hbind (.settle _ hcore))
  | define _ e | after e _ _ | become e | throw e | expr e =>
    exact .one _ (.nestExpr e cx here hs rfl)

lemma Pattern.withConstant_buds (p : Pattern) (here : Place) {frame frame' : Frame .value g}
    (flat : frame'.flat = frame.flat) (otherwise : g.Result) :
    Buds B cx.task s (p.withConstant cx here s frame otherwise).1
      (p.withConstant cx here s frame otherwise).2
      (p.withConstant cx here.flat s.core.store frame' otherwise).1.flat
      (p.withConstant cx here.flat s.core.store frame' otherwise).2.core := by
  cases p with
  | const v =>
    refine .whole (.of_eq rfl) rfl (.one frame (.done (g := .value) v)) trivial ?_
    exact congrArg (one (.done (g := .value) v)) flat
  | value e =>
    have h := Buds.one (B := B) frame (.nestExpr e cx here hs rfl)
    rw [← flat] at h
    exact h
  | self =>
    refine .whole (.of_eq rfl) rfl (.one frame (.done (g := .value) _)) trivial ?_
    exact congrArg (one (.done (g := .value) (.ofActor? here.env.self?))) flat
  | _ => exact .done rfl rfl

omit hs in
lemma Value.enter_buds (function argument : Value) (depth : Nat)
    {frame : Expr → Place → Frame .verdict .value}
    (flat : ∀ body layer, (frame body layer.flat).flat = (frame body layer).flat) :
    Buds B cx.task s (function.enter argument depth s frame).1
      (function.enter argument depth s frame).2
      (function.enter argument 0 s.core.store frame).1.flat
      (function.enter argument 0 s.core.store frame).2.core := by
  cases function with
  | closure ref =>
    have hread : s.core.store.heap.closures[ref]? = s.heap.closures[ref]? := rfl
    unfold enter
    dsimp only
    rw [hread]
    cases s.heap.closures[ref]? with
    | none => exact .done rfl rfl
    | some c => exact .startOne rfl rfl rfl (flat c.body ⟨(s.heap.newLayer c.env).1, depth⟩)
  | native f =>
    have hread : s.core.store.heap.natives[f.index]? = s.heap.natives[f.index]? := rfl
    unfold enter
    dsimp only
    rw [hread]
    cases s.heap.natives[f.index]? with
    | none | some => exact .done rfl rfl
  | _ => exact .done rfl rfl

omit hs in
lemma Arms.try_buds (arms : Arms) (subject : Value) (here : Place) :
    Buds B cx.task s (arms.try subject here s).1 (arms.try subject here s).2
      (arms.try subject here.flat s.core.store).1.flat
      (arms.try subject here.flat s.core.store).2.core := by
  cases arms with
  | nil => exact .done rfl rfl
  | cons p body rest => exact .startOne rfl rfl rfl rfl

/-- A step of an evaluation that begins is a small step, and what it detaches belongs to it. It
waits for slots that are found only. -/
theorem Job.begin_buds (job : Job g)
    (found : ∀ name env slot, s.heap.lookup name env = .unbound slot → B slot) :
    Buds B cx.task s (job.begin cx s).1 (job.begin cx s).2
      (job.flat.begin cx s.core.store).1.flat (job.flat.begin cx s.core.store).2.core := by
  cases job with
  | eval e here => exact e.begin_buds cx s hs here found
  | apply f a depth => exact f.enter_buds cx s a depth fun _ _ => rfl
  | exec stmt here => exact stmt.begin_buds cx s hs here
  | publish b caller => exact .one _ (b.nest_buds cx s hs caller)
  | deliver behavior message self exported here => exact .startOne rfl rfl rfl rfl
  | fit p v here =>
    cases p with
    | any => exact .done rfl rfl
    | ident name =>
      refine .whole (s.keeps_bind name v here.env hs) ?_ (.done _) trivial rfl
      exact (s.core_bind name v here.env).trans (s.core.store.core_bind name v here.env).symm
    | pair ph pt =>
      cases v with
      | pair h t => exact .startOne rfl rfl rfl rfl
      | _ => exact .done rfl rfl
    | _ => exact Pattern.withConstant_buds cx s hs _ here rfl _
  | unify left right here =>
    cases left with
    | any | ident | pair => exact .start rfl rfl rfl
    | _ => exact Pattern.withConstant_buds cx s hs _ here rfl _
  | unifyName right left here =>
    cases right with
    | any | ident => exact .done rfl rfl
    | pair ph pt => exact .startOne rfl rfl rfl rfl
    | _ => exact Pattern.withConstant_buds cx s hs _ here rfl _
  | unifyPair right left here =>
    cases right with
    | any | ident => exact .start rfl rfl rfl
    | pair rh rt =>
      cases left with
      | pair lh lt => exact .startOne rfl rfl rfl rfl
      | _ => exact .done rfl rfl
    | _ => exact Pattern.withConstant_buds cx s hs _ here rfl _
  | resolve p here =>
    cases p with
    | any | ident => exact .done rfl rfl
    | pair h t => exact .both _ (.start rfl rfl rfl) (.start rfl rfl rfl)
    | _ => exact Pattern.withConstant_buds cx s hs _ here rfl _

theorem Job.begin_sprouts (job : Job g) : Sprouts cx.task s (job.begin cx s).1 (job.begin cx s).2
      (job.flat.begin cx s.core.store).1.flat (job.flat.begin cx s.core.store).2.core :=
  (job.begin_buds (B := fun _ => True) cx s hs fun _ _ _ _ => trivial).toSprouts

/-- Going on with the answer of a part is a small step. -/
theorem Frame.resume_buds (frame : Frame g h) (r : g.Result) :
    Buds B cx.task s (frame.resume r cx s).1 (frame.resume r cx s).2
      (frame.flat.resume r cx s.core.store).1.flat
      (frame.flat.resume r cx s.core.store).2.core := by
  cases frame with
  | choose arms here => exact arms.try_buds cx s r here
  | arm body layer rest subject here =>
    cases r with
    | true => exact .start rfl rfl rfl
    | false => exact rest.try_buds cx s subject here
  | branch yes layer no here => cases r <;> exact .start rfl rfl rfl
  | enter | fitTail | unifyTail =>
    cases r with
    | true => exact .start rfl rfl rfl
    | false => exact .done rfl rfl
  | nested body layer =>
    cases r with
    | true => exact .nestExpr body cx layer hs rfl
    | false => exact .done rfl rfl
  | fit p here => exact .start rfl rfl rfl
  | resolved p here =>
    cases r with
    | some v => exact .start rfl rfl rfl
    | none => exact .done rfl rfl
  | define p here => exact .startOne rfl rfl rfl rfl
  | defined v =>
    cases r with
    | true => exact .done rfl rfl
    | false => exact .settle (·.throw (.pair (.symbol "mismatch") v)) rfl
  | equated =>
    cases r with
    | true => exact .done rfl rfl
    | false => exact .settle (·.throw (.symbol "conflict")) rfl
  | delay message target here =>
    unfold resume flat
    dsimp only
    cases r.natural? with
    | some ms => exact .nestBoth target message cx here _ hs rfl
    | none => exact .settle _ rfl
  | init | throw => exact .settle _ rfl
  | run here =>
    have hread : s.core.store.heap.block? r = s.heap.block? r := rfl
    unfold resume flat
    dsimp only
    rw [hread]
    cases s.heap.block? r with
    | some b => exact b.nest_buds cx s hs here
    | none => exact .done rfl rfl
  | perform self exported here =>
    have hread : s.core.store.heap.block? r = s.heap.block? r := rfl
    unfold resume flat
    dsimp only
    rw [hread]
    cases s.heap.block? r with
    | some b =>
      cases exported with
      | true => exact .start rfl rfl rfl
      | false =>
        have hactor : s.Keeps cx.task (s.onHeap (·.newActor self here.env)).2 := .of_eq rfl
        have hbody := b.nest_buds (B := B) cx (s.onHeap (·.newActor self here.env)).2 hs
          { here with env := (s.heap.newActor self here.env).1 }
        exact .after hactor hbody
    | none => exact .settle _ rfl
  | offer vars env =>
    obtain ⟨hcore, hagendas⟩ := s.core_offer cx env vars
    cases r with
    | fail => exact .done rfl rfl
    | ok | become => exact .done hagendas hcore
  | _ => exact .done rfl rfl

theorem Frame.resume_sprouts (frame : Frame g h) (r : g.Result) :
    Sprouts cx.task s (frame.resume r cx s).1 (frame.resume r cx s).2
      (frame.flat.resume r cx s.core.store).1.flat
      (frame.flat.resume r cx s.core.store).2.core :=
  (frame.resume_buds (B := fun _ => True) cx s hs r).toSprouts

omit hs in
/-- Going on with the answers of two parts is a small step. -/
theorem Join.resume_buds (join : Join g h) (a b : g.Result) :
    Buds B cx.task s (join.resume a b cx s).1 (join.resume a b cx s).2
      (join.flat.resume a b cx s.core.store).1.flat
      (join.flat.resume a b cx s.core.store).2.core := by
  cases join with
  | apply depth => exact Value.enter_buds cx s a b depth fun _ _ => rfl
  | pair => exact .done rfl rfl
  | send delay => exact .settle _ rfl
  | meanings => cases a <;> cases b <;> exact .done rfl rfl

omit hs in
theorem Join.resume_sprouts (join : Join g h) (a b : g.Result) :
    Sprouts cx.task s (join.resume a b cx s).1 (join.resume a b cx s).2
      (join.flat.resume a b cx s.core.store).1.flat
      (join.flat.resume a b cx s.core.store).2.core :=
  (join.resume_buds (B := fun _ => True) cx s a b).toSprouts

omit hs in
/-- The end of a sequence is a small step. -/
theorem Outcome.join_sprouts (a b : Outcome) :
    Sprouts cx.task s (a.join b cx s).1 (a.join b cx s).2 (a.join b cx s.core.store).1.flat
      (a.join b cx s.core.store).2.core := by
  suffices h : Buds (fun _ => True) cx.task s (a.join b cx s).1 (a.join b cx s).2
      (a.join b cx s.core.store).1.flat (a.join b cx s.core.store).2.core from h.toSprouts
  unfold join
  cases a.merge? b with
  | some o => exact .done rfl rfl
  | none => exact .settle _ rfl

end Steps

end Troupe
