import Mathlib.Logic.Relation
import Mathlib.Tactic.Common
import Troupe.Proofs.Run

/-!
What a run of an evaluation may touch.

Every run is a series of small changes of the store (`Store.Touch`): new frames and new code, a name
that is bound, a waiter that is entered, a request to the transaction, an address, an evaluation
that is detached, an answer that is read. Everything else stays as it is, whatever the program does.
What is asked of the transaction on the way is kept with the changes (`Store.Trail`).

* `Job.begin_trail`, `Frame.resume_trail`, `Join.resume_trail`, `Outcome.join_trail`: each step asks
  for its requests.
* `Evaluation.Run.trail`: a run is a series of such changes, and its log is all that it asks for.
* `Agenda.Stir`: what a run may do to the agenda of its task. `Store.Touches.agenda`,
  `Store.Touch.agenda_of_ne`.
-/

namespace Troupe

open List

variable {s s' : Store} {g h : Goal} {who : Waiter} {cx : Context} {log : List Request}

/-! ### What is added to a heap -/

/-- The names of blocks stand for slots that exist. -/
def Heap.Sound (h : Heap) : Prop :=
  ∀ i, ∀ entry ∈ h.scope i, entry.2 < h.slots.size

namespace Heap

variable {h : Heap}

/-- A slot that is waited for exists. -/
lemma Sound.lookup (hs : h.Sound) {name : String} {env : Env} {slot : Nat}
    (hl : h.lookup name env = .unbound slot) : slot < h.slots.size := by
  induction env with
  | empty => cases hl
  | dynamic layer base ih | global dict next ih =>
    unfold Heap.lookup at hl
    split at hl
    · cases hl
    · exact ih hl
  | block scope captured caller ih _ =>
    unfold Heap.lookup at hl
    split at hl
    · rename_i found hfound
      split at hl
      · cases hl
      · cases hl
        obtain ⟨l1, l2, heq, _⟩ := lookup_eq_some_iff.1 hfound
        exact hs scope (name, slot) (by rw [heq]; simp)
    · exact ih hl
  | actor stamp id next ih => exact ih hl

lemma Sound.newScope (hs : h.Sound) (captured caller : Env) (vars : List String) :
    (h.newScope captured caller vars).2.Sound := by
  intro i entry hentry
  have hsize : (h.newScope captured caller vars).2.slots.size = h.slots.size + vars.length := by
    simp [Heap.newScope]
  rw [hsize]
  simp only [scope, Heap.newScope, Array.getElem?_push] at hentry
  split at hentry
  · have hmem := mem_zipIdx hentry
    omega
  · exact Nat.lt_of_lt_of_le (hs i entry hentry) (Nat.le_add_right _ _)

/-- New frames and new code were added; dictionaries, the slots that were there, the names of
blocks, and the blocks and native functions themselves are the same. -/
structure Grows (h h' : Heap) : Prop where
  dicts : h'.dicts = h.dicts
  slots : ∃ n, h'.slots = h.slots ++ Array.replicate n (Slot.unbound [])
  sound : h.Sound → h'.Sound
  layers : ∃ added, h'.layers = h.layers ++ added
  scopes : ∃ added, h'.scopes = h.scopes ++ added
  blocks : ∃ added, h'.blocks = h.blocks ++ added
  natives : ∃ added, h'.natives = h.natives ++ added

lemma Grows.refl (h : Heap) : h.Grows h :=
  ⟨rfl, ⟨0, by simp⟩, id, ⟨#[], by simp⟩, ⟨#[], by simp⟩, ⟨#[], by simp⟩, ⟨#[], by simp⟩⟩

lemma grows_newLayer (h : Heap) (base : Env) : h.Grows (h.newLayer base).2 :=
  { Grows.refl h with layers := ⟨#[[]], by simp [newLayer]⟩ }

lemma grows_newScope (h : Heap) (captured caller : Env) (vars : List String) :
    h.Grows (h.newScope captured caller vars).2 :=
  { Grows.refl h with
    slots := ⟨vars.length, rfl⟩
    sound := fun hs => hs.newScope captured caller vars
    scopes := ⟨#[vars.zipIdx h.slots.size], by simp [newScope]⟩ }

lemma grows_newActor (h : Heap) (id : ActorId) (next : Env) : h.Grows (h.newActor id next).2 :=
  { Grows.refl h with }

lemma grows_newClosure (h : Heap) (c : Closure) : h.Grows (h.newClosure c).2 :=
  { Grows.refl h with }

lemma grows_newBlock (h : Heap) (b : Block) : h.Grows (h.newBlock b).2 :=
  { Grows.refl h with blocks := ⟨#[b], by simp [newBlock]⟩ }

lemma grows_newNative (h : Heap) (f : Native) : h.Grows (h.newNative f).2 :=
  { Grows.refl h with natives := ⟨#[f], by simp [newNative]⟩ }

/-- A native function leaves the heap alone, or makes another one. -/
lemma call_cases (h : Heap) (f : Native) (v : Value) :
    (h.call f v).2 = h ∨ ∃ f', (h.call f v).2 = (h.newNative f').2 := by
  induction f with
  | operation | identity | host => exact .inl rfl
  | mapBind =>
    unfold call mapBind
    split
    · split
      · exact .inr ⟨_, rfl⟩
      · exact .inl rfl
    · exact .inl rfl
  | map key value rest ih =>
    unfold call
    split
    · exact .inl rfl
    · exact ih

lemma grows_call (h : Heap) (f : Native) (v : Value) : h.Grows (h.call f v).2 := by
  rcases h.call_cases f v with heq | ⟨f', heq⟩
  · rw [heq]
    exact .refl h
  · rw [heq]
    exact grows_newNative ..

/-- Binding a name leaves the heap alone, adds it to a layer, or fills a slot. Then those who waited
for the slot are to be told. -/
lemma bind_cases (h : Heap) (name : String) (v : Value) (env : Env) :
    (h.bind name v env).2 = ([], h) ∨
      (∃ i, (h.bind name v env).2 = ([], { h with layers := h.layers.modify i ((name, v) :: ·) })) ∨
      ∃ i ws, h.slots[i]? = some (.unbound ws) ∧
        (h.bind name v env).2 = (ws, { h with slots := h.slots.setIfInBounds i (.bound v) }) := by
  induction env with
  | empty | global => exact .inl rfl
  | dynamic layer base _ =>
    unfold bind
    split
    · exact .inl rfl
    · exact .inr (.inl ⟨layer, rfl⟩)
  | block scope captured caller ih _ =>
    unfold bind
    split
    · unfold fill
      split
      · exact .inl rfl
      · rename_i ws hws
        exact .inr (.inr ⟨_, ws, hws, rfl⟩)
      · exact .inl rfl
    · exact ih
  | actor stamp id next ih => exact ih

lemma bind_frame (h : Heap) (name : String) (v : Value) (env : Env) :
    ∃ layers slots, (h.bind name v env).2.2 = { h with layers, slots } ∧
      layers.size = h.layers.size ∧ slots.size = h.slots.size := by
  rcases h.bind_cases name v env with heq | ⟨i, heq⟩ | ⟨i, ws, _, heq⟩
  · exact ⟨_, _, congrArg Prod.snd heq, rfl, rfl⟩
  · exact ⟨_, _, congrArg Prod.snd heq, Array.size_modify, rfl⟩
  · exact ⟨_, _, congrArg Prod.snd heq, rfl, Array.size_setIfInBounds⟩

lemma dicts_bind (h : Heap) (name : String) (v : Value) (env : Env) :
    (h.bind name v env).2.2.dicts = h.dicts := by
  obtain ⟨layers, slots, heq, _⟩ := h.bind_frame name v env
  rw [heq]

end Heap

namespace Store

/-- One change of the store that an evaluation of the context, run by `who`, may make. -/
inductive Touch (cx : Context) (who : Waiter) : Store → Store → Prop where
  | heap {s : Store} {h : Heap} (grows : s.heap.Grows h) : Touch cx who s { s with heap := h }
  | bind (s : Store) (name : String) (v : Value) (env : Env) :
      Touch cx who s (s.bind name v env).2
  | park {s : Store} {slot : Nat} (unbound : s.heap.slot? slot = none) :
      Touch cx who s { s with heap := s.heap.park slot who }
  | request (s : Store) (r : Request) :
      Touch cx who s (s.onTransaction cx.transaction r.apply).2
  | reserve (s : Store) : Touch cx who s s.reserve.2
  | detach {g : Goal} (s : Store) (job : Job g) : Touch cx who s (s.detach cx.task job).2
  | read (s : Store) (ticket : Nat) : Touch cx who s (s.readAnswer cx.task ticket who).2

/-- A series of changes. -/
abbrev Touches (cx : Context) (who : Waiter) : Store → Store → Prop :=
  Relation.ReflTransGen (Touch cx who)

/-- A series of changes of one kind, with all that is asked of the transaction on the way. -/
inductive Trail (cx : Context) (R : Store → Store → Prop) : Store → List Request →
    Store → Prop where
  | refl (s : Store) : Trail cx R s [] s
  | step {s s1 s' : Store} {log : List Request} (step : R s s1)
      (same : s1.transactions = s.transactions) (rest : Trail cx R s1 log s') : Trail cx R s log s'
  | ask {s s' : Store} {log : List Request} (r : Request)
      (asked : R s (s.onTransaction cx.transaction r.apply).2)
      (rest : Trail cx R (s.onTransaction cx.transaction r.apply).2 log s') :
      Trail cx R s (r :: log) s'

namespace Trail

variable {R R' : Store → Store → Prop} {s1 : Store} {log' : List Request}

lemma single (step : R s s') (same : s'.transactions = s.transactions) : Trail cx R s [] s' :=
  .step step same (.refl s')

lemma trans (h : Trail cx R s log s1) (h' : Trail cx R s1 log' s') : Trail cx R s
    (log ++ log') s' := by
  induction h with
  | refl s => exact h'
  | step step same _ ih => exact .step step same (ih h')
  | ask r asked _ ih => exact .ask r asked (ih h')

/-- Nothing is asked any more. -/
lemma mute (h : Trail cx R s log s1) (h' : Trail cx R s1 [] s') : Trail cx R s log s' :=
  log.append_nil ▸ h.trans h'

lemma mono (h : Trail cx R s log s') (sub : ∀ s s', R s s' → R' s s') : Trail cx R' s log s' := by
  induction h with
  | refl s => exact .refl s
  | step step same _ ih => exact .step (sub _ _ step) same ih
  | ask r asked _ ih => exact .ask r (sub _ _ asked) ih

lemma steps (h : Trail cx R s log s') : Relation.ReflTransGen R s s' := by
  induction h with
  | refl s => exact .refl
  | step step _ _ ih => exact .head step ih
  | ask r asked _ ih => exact .head asked ih

/-- The log is all that happens to transactions, and only to the one of the context. -/
lemma transactions (h : Trail cx R s log s') :
    s'.transactions = s.transactions.modify cx.transaction (·.replay log) := by
  induction h with
  | refl s => exact (modify_replay_nil ..).symm
  | step _ same _ ih => rw [ih, same]
  | ask r _ _ ih =>
    rw [ih, transactions_onTransaction]
    exact modify_replay_append _ _ [r] _

end Trail

/-- The changes of a run, with all that it asks of the transaction. -/
abbrev Traces (cx : Context) (who : Waiter) : Store → List Request → Store → Prop :=
  Trail cx (Touch cx who)

section Trails

lemma Traces.touches (h : Traces cx who s log s') : Touches cx who s s' := h.steps

lemma trail_heap {h : Heap} (grows : s.heap.Grows h) :
    Traces cx who s [] { s with heap := h } := .single (.heap grows) rfl

lemma trail_bind (s : Store) (name : String) (v : Value) (env : Env) :
    Traces cx who s [] (s.bind name v env).2 :=
  .single (.bind s name v env) (transactions_bind ..)

lemma trail_reserve (s : Store) : Traces cx who s [] s.reserve.2 := .single (.reserve s) rfl

lemma trail_read (s : Store) (ticket : Nat) :
    Traces cx who s [] (s.readAnswer cx.task ticket who).2 :=
  .single (.read s ticket) (transactions_readAnswer ..)

lemma trail_request (s : Store) (r : Request) :
    Traces cx who s [r] (s.onTransaction cx.transaction r.apply).2 :=
  .ask r (.request s r) (.refl _)

lemma trail_nest (s : Store) (depth : Nat) (job : Nat → Job g) :
    Traces cx who s [] (s.nest cx depth job).2 := by
  unfold nest
  split
  · exact .refl s
  · exact .single (.detach s _) rfl

lemma trail_throw (s : Store) (exception : Value) :
    Traces cx who s [.throw exception] (s.throw cx exception).2 := trail_request ..

lemma trail_nestExpr (e : Expr) (here : Place) (s : Store) :
    Traces cx who s [] (e.nest cx here s).2 := trail_nest ..

lemma trail_nestStmt (stmt : Stmt) (here : Place) (s : Store) :
    Traces cx who s [] (stmt.nest cx here s).2 := trail_nest ..

lemma trail_nestBlock (b : Block) (caller : Place) (s : Store) :
    Traces cx who s [] (b.nest cx caller s).2.2 :=
  (trail_heap (s.heap.grows_newScope b.env caller.env b.vars)).trans (trail_nestStmt b.body _ _)

lemma trail_withConstant (p : Pattern) (here : Place) (s : Store) (frame : Frame .value g)
    (otherwise : g.Result) : Traces cx who s [] (p.withConstant cx here s frame otherwise).2 := by
  cases p with
  | value e => exact trail_nestExpr ..
  | _ => exact .refl s

lemma trail_enter (function argument : Value) (depth : Nat) (s : Store)
    (frame : Expr → Place → Frame .verdict .value) :
    Traces cx who s [] (function.enter argument depth s frame).2 := by
  unfold Value.enter
  split
  · split
    · rename_i c _
      exact trail_heap (s.heap.grows_newLayer c.env)
    · exact .refl s
  · split
    · rename_i f _
      exact trail_heap (s.heap.grows_call f argument)
    · exact .refl s
  · exact .refl s

lemma trail_try (arms : Arms) (subject : Value) (here : Place) (s : Store) :
    Traces cx who s [] (arms.try subject here s).2 := by
  cases arms with
  | nil => exact .refl s
  | cons p body rest => exact trail_heap (s.heap.grows_newLayer here.env)

lemma trail_beginSend (message target : Expr) (delay : Option Millis) (here : Place) (s : Store) :
    Traces cx who s [] (Stmt.beginSend message target delay cx here s).2 :=
  (trail_nestExpr target here s).trans (trail_nestExpr ..)

lemma trail_offer (s : Store) (env : Env) (vars : List String) :
    Traces cx who s (vars.filterMap fun name => (s.heap.lookup? name env).map (.define name))
      (s.offer cx env vars) := by
  induction vars generalizing s with
  | nil => exact .refl s
  | cons name vars ih =>
    rw [offer, foldl_cons, filterMap_cons]
    cases s.heap.lookup? name env with
    | none => exact ih s
    | some v => exact (trail_request s (.define name v)).trans (ih _)

/-- Offering variables changes the transaction only. -/
lemma offer_eq (s : Store) (cx : Context) (env : Env) (vars : List String) :
    s.offer cx env vars = { s with
      transactions := s.transactions.modify cx.transaction (·.replay
        (vars.filterMap fun name => (s.heap.lookup? name env).map (.define name))) } := by
  induction vars generalizing s with
  | nil => exact congrArg (fun transactions => { s with transactions }) (modify_replay_nil ..).symm
  | cons name vars ih =>
    rw [offer, foldl_cons, filterMap_cons]
    cases s.heap.lookup? name env with
    | none => exact ih s
    | some v =>
      refine (ih (s.onTransaction cx.transaction (·.define name v)).2).trans ?_
      rw [transactions_onTransaction]
      exact congrArg (fun transactions => { s with transactions })
        (modify_replay_append _ _ [.define name v] _)

end Trails

end Store

open Store

section Steps

variable (cx : Context) (who : Waiter) (s : Store)

lemma Expr.begin_trail (e : Expr) (here : Place) : Traces cx who s [] (e.begin cx here s).2 := by
  cases e with
  | lambda param body => exact trail_heap (s.heap.grows_newClosure ⟨param, body, here.env⟩)
  | apply a _ | pair a _ => exact (trail_nestExpr a here s).trans (trail_nestExpr ..)
  | choose | new => exact trail_nestExpr ..
  | cond left right yes no => exact trail_heap (s.heap.grows_newLayer here.env)
  | block vars body => exact trail_heap (s.heap.grows_newBlock ⟨vars, body, here.env⟩)
  | _ => exact .refl s

lemma Stmt.begin_trail (stmt : Stmt) (here : Place) :
    Traces cx who s ((Job.exec stmt here).requests s) (stmt.begin cx here s).2 := by
  cases stmt with
  | empty | equate => exact .refl s
  | seq first second => exact (trail_nestStmt first here s).trans (trail_nestStmt ..)
  | send message target => exact trail_beginSend ..
  | create name behavior =>
    have hbound : Traces cx who s [] (s.reserve.2.bind name (.actor s.reserve.1) here.env).2 :=
      (trail_reserve s).trans (trail_bind ..)
    simp only [Job.requests, begin]
    cases hb : s.reserve.2.bind name (.actor s.reserve.1) here.env with
    | mk ok s1 =>
      rw [hb] at hbound
      cases ok with
      | true => exact hbound.trans (trail_nestExpr ..)
      | false => exact hbound.trans (trail_throw ..)
  | _ => exact trail_nestExpr ..

/-- Beginning an evaluation asks for its requests. -/
theorem Job.begin_trail (job : Job g) : Traces cx who s (job.requests s) (job.begin cx s).2 := by
  cases job with
  | eval e here => exact e.begin_trail ..
  | apply f a depth => exact trail_enter ..
  | exec stmt here => exact stmt.begin_trail ..
  | publish b caller => exact trail_nestBlock ..
  | deliver behavior message self exported here => exact .refl s
  | fit p v here =>
    cases p with
    | any => exact .refl s
    | ident name => exact trail_bind ..
    | pair ph pt => cases v <;> exact .refl s
    | _ => exact trail_withConstant ..
  | unify p _ here | unifyName p _ here | resolve p here =>
    cases p with
    | any | ident | pair => exact .refl s
    | _ => exact trail_withConstant ..
  | unifyPair right left here =>
    cases right with
    | any | ident => exact .refl s
    | pair ph pt => cases left <;> exact .refl s
    | _ => exact trail_withConstant ..

/-- Going on with the answer of a part asks for the requests of the frame. -/
theorem Frame.resume_trail (frame : Frame g h) (r : g.Result) :
    Traces cx who s (frame.requests r s) (frame.resume r cx s).2 := by
  cases frame with
  | choose arms here => exact trail_try ..
  | arm body layer rest subject here =>
    cases r with
    | true => exact .refl s
    | false => exact trail_try ..
  | nested body layer =>
    cases r with
    | true => exact trail_nestExpr ..
    | false => exact .refl s
  | new env => exact (trail_reserve s).trans (trail_request _ (.init ⟨s.reserve.1, "new", r, env⟩))
  | resolved p here => cases r <;> exact .refl s
  | defined | equated =>
    cases r with
    | true => exact .refl s
    | false => exact trail_throw ..
  | delay message target here =>
    simp only [resume, requests]
    cases r.natural? with
    | some ms => exact trail_beginSend ..
    | none => exact trail_throw ..
  | init id name env => exact trail_request s (.init ⟨id, name, r, env⟩)
  | throw => exact trail_throw ..
  | run here =>
    simp only [resume]
    split
    · exact trail_nestBlock ..
    · exact .refl s
  | perform self exported here =>
    simp only [resume, requests]
    cases s.heap.block? r with
    | some b =>
      have hactor : Traces cx who s [] (s.onHeap (·.newActor self here.env)).2 :=
        trail_heap (s.heap.grows_newActor self here.env)
      cases exported with
      | true => exact hactor
      | false => exact hactor.trans (trail_nestBlock ..)
    | none => exact trail_throw ..
  | offer vars env =>
    cases r with
    | fail => exact .refl s
    | _ => exact trail_offer ..
  | _ => exact .refl s

/-- Going on with the answers of two parts asks for the requests of the join. -/
theorem Join.resume_trail (join : Join g h) (a b : g.Result) :
    Traces cx who s (join.requests a b) (join.resume a b cx s).2 := by
  cases join with
  | apply depth => exact trail_enter ..
  | pair => exact .refl s
  | send delay => exact trail_request s (.send b a delay)
  | meanings => cases a <;> cases b <;> exact .refl s

/-- The end of a sequence asks for the requests of its outcomes. -/
theorem Outcome.join_trail (a b : Outcome) : Traces cx who s (a.requests b) (a.join b cx s).2 := by
  unfold join requests
  cases a.merge? b with
  | some o => exact .refl s
  | none => exact trail_throw ..

/-- The requests of each step are all that happens to transactions. -/
theorem Job.begin_transactions (job : Job g) : (job.begin cx s).2.transactions =
    s.transactions.modify cx.transaction (·.replay (job.requests s)) :=
  (job.begin_trail cx (.task cx.task) s).transactions

theorem Frame.resume_transactions (frame : Frame g h) (r : g.Result) :
    (frame.resume r cx s).2.transactions =
      s.transactions.modify cx.transaction (·.replay (frame.requests r s)) :=
  (frame.resume_trail cx (.task cx.task) s r).transactions

theorem Join.resume_transactions (join : Join g h) (a b : g.Result) :
    (join.resume a b cx s).2.transactions =
      s.transactions.modify cx.transaction (·.replay (join.requests a b)) :=
  (join.resume_trail cx (.task cx.task) s a b).transactions

theorem Outcome.join_transactions (a b : Outcome) : (a.join b cx s).2.transactions =
    s.transactions.modify cx.transaction (·.replay (a.requests b)) :=
  (a.join_trail cx (.task cx.task) s b).transactions

end Steps

/-- A run of an evaluation is a series of changes, and the log is what it asks for. -/
theorem Evaluation.Run.trail {e e' : Evaluation g} (h : Run cx who e s log e' s') :
    Traces cx who s log s' := by
  have hread : ∀ {s s' : Store} {ticket : Nat} {a : Option Answer},
      s.readAnswer cx.task ticket who = (a, s') → Traces cx who s [] s' := by
    intro s s' ticket a read
    have hs' : Traces cx who s [] (s.readAnswer cx.task ticket who).2 := trail_read s ticket
    rwa [read] at hs'
  refine h.closed (S := fun _ s log _ s' => Traces cx who s log s') ?_
  exact {
    refl := fun _ s => .refl s
    trans := .trans
    start := fun job s => job.begin_trail cx who s
    read := fun _ => .refl _
    park := fun unbound => .single (.park unbound) rfl
    answer := hread
    await := hread
    resume := fun frame r s => frame.resume_trail cx who s r
    join := fun join a b s => join.resume_trail cx who s a b
    merge := fun a b s => a.join_trail cx who s b
    failLeft := fun _ s => .refl s
    failRight := fun _ s => .refl s
    one := fun _ h => h
    bothLeft := fun _ _ h => h
    bothRight := fun _ _ h => h
    raceLeft := fun _ h => h
    raceRight := fun _ h => h }

/-- A run of an evaluation is a series of changes. -/
theorem Evaluation.Run.touches {e e' : Evaluation g} (h : Run cx who e s log e' s') :
    Touches cx who s s' :=
  h.trail.touches

/-! ### The agenda along a run -/

/-- One change that a run by `who` may make to the agenda of its task. -/
inductive Agenda.Stir (task : Nat) (who : Waiter) : Agenda → Agenda → Prop where
  | told (a : Agenda) (w : Waiter) : Stir task who a (a.told task w)
  | detach {g : Goal} (a : Agenda) (job : Job g) : Stir task who a (a.detach job)
  | read (a : Agenda) (ticket : Nat) : Stir task who a (a.read ticket who)

namespace Store

variable {task : Nat}

lemma Touch.size_agendas (h : Touch cx who s s') : s'.agendas.size = s.agendas.size := by
  cases h with
  | heap | park | request | reserve => rfl
  | bind _ name v env => exact size_wakeAll ..
  | detach _ job => exact size_modifyAgenda ..
  | read _ ticket =>
    rw [readAnswer_eq]
    exact size_modifyAgenda ..

lemma Touches.size_agendas (h : Touches cx who s s') : s'.agendas.size = s.agendas.size := by
  induction h with
  | refl => rfl
  | tail _ last ih => rw [last.size_agendas, ih]

lemma agenda_bind (name : String) (v : Value) (env : Env) (h : task < s.agendas.size) :
    ∃ ws : List Waiter,
      (s.bind name v env).2.agenda task = ws.foldl (Agenda.told task) (s.agenda task) :=
  ⟨_, agenda_wakeAll _ _ h⟩

lemma Touch.agenda (h : Touch cx who s s') (hs : cx.task < s.agendas.size) :
    Relation.ReflTransGen (Agenda.Stir cx.task who) (s.agenda cx.task) (s'.agenda cx.task) := by
  cases h with
  | heap | park | request | reserve => exact .refl
  | bind _ name v env =>
    obtain ⟨ws, hws⟩ := agenda_bind name v env hs
    rw [hws]
    clear hws
    generalize s.agenda cx.task = a
    induction ws generalizing a with
    | nil => exact .refl
    | cons w ws ih => exact .head (.told a w) (ih _)
  | detach _ job =>
    rw [agenda_detach _ _ hs]
    exact .single (.detach _ job)
  | read _ ticket =>
    rw [agenda_readAnswer _ _ _ hs]
    exact .single (.read _ ticket)

/-- What a run does to the agenda of its task. -/
theorem Touches.agenda (h : Touches cx who s s') (hs : cx.task < s.agendas.size) :
    Relation.ReflTransGen (Agenda.Stir cx.task who) (s.agenda cx.task) (s'.agenda cx.task) := by
  induction h with
  | refl => exact .refl
  | tail run last ih => exact ih.trans (last.agenda (by rwa [Touches.size_agendas run]))

lemma Touch.agenda_of_ne (h : Touch cx who s s') (hs : task < s.agendas.size)
    (hne : cx.task ≠ task) :
    ∃ ws : List Waiter, s'.agenda task = ws.foldl (Agenda.told task) (s.agenda task) := by
  cases h with
  | heap | park | request | reserve => exact ⟨[], rfl⟩
  | bind _ name v env => exact agenda_bind name v env hs
  | detach _ job => exact ⟨[], s.agenda_modifyAgenda_of_ne _ hne⟩
  | read _ ticket => exact ⟨[], by rw [readAnswer_eq, s.agenda_modifyAgenda_of_ne _ hne]; rfl⟩

/-- No dictionary changes. -/
theorem Touches.dicts (h : Touches cx who s s') : s'.heap.dicts = s.heap.dicts := by
  induction h with
  | refl => rfl
  | tail _ last ih =>
    rw [← ih]
    cases last with
    | heap grows => exact grows.dicts
    | bind _ name v env =>
      refine Eq.trans ?_ (Heap.dicts_bind _ name v env)
      exact congrArg Heap.dicts (heap_wakeAll ..)
    | park | request | reserve | detach => rfl
    | read _ ticket => rw [readAnswer_eq]; rfl

end Store

end Troupe
