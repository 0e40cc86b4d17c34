import Troupe.Actor
import Troupe.Proofs.Blocked
import Troupe.Proofs.Shelter

/-!
`SELF` names the actor that runs a block.

Names are looked up where a block was made, but `SELF` is taken from where it is run. So in a
delivery every statement has the actor of the delivery for `SELF`, and so has all code that stands
in it, at any depth, since that is evaluated on layers over the frame of the statement. Only the
functions of other environments keep their own `SELF`.

* `Item.Stems`: the code that stands in other code.
* `Task.Driven.runsAs`
-/

namespace Troupe

open List

variable {ids : IdSource} {cx : Context} {c c' : Core} {id : ActorId} {env : Env}

/-- `SELF` stands for the actor, as an expression and as a pattern. -/
def Env.Names (env : Env) (id : ActorId) : Prop :=
  ∀ (cx : Context) (depth : Nat) (s : Store),
    (Job.eval .self ⟨env, depth⟩).begin cx s = (.done (.actor id), s) ∧
      Pattern.self.constant? cx ⟨env, depth⟩ s = some (.done (.actor id), s)

lemma Env.names_of_self? (h : env.self? = some id) : env.Names id := by
  intro cx depth s
  simp [Job.begin, Expr.begin, Pattern.constant?, h, Value.ofActor?]

/-- The code of the functions on the heap. -/
def Heap.functions (h : Heap) : List Item :=
  h.closures.toList.map fun c => .opens [c.param] c.body c.env

namespace Item

/-- The environment in which code is evaluated. -/
def env? : Item → Option Env
  | .eval _ env | .exec _ env | .bind _ env | .resolve _ env | .choice _ env | .opens _ _ env =>
    some env
  | _ => none

/-- The code that stands in an item, with the environments in which it is evaluated. -/
inductive Stems (root : Item) : Item → Prop where
  | root : Stems root root
  | sub {i j : Item} (hi : Stems root i) (hj : j ∈ i.subs) : Stems root j
  | body {ps : List Pattern} {e : Expr} {env : Env} (layer : Nat)
      (hi : Stems root (.opens ps e env)) :
      Stems root (.eval e (.dynamic layer env))
  | param {ps : List Pattern} {e : Expr} {env : Env} {p : Pattern} (layer : Nat)
      (hi : Stems root (.opens ps e env)) (hp : p ∈ ps) : Stems root (.bind p (.dynamic layer env))

lemma env?_subs {i : Item} : ∀ j ∈ i.subs, env ∈ j.env? → env ∈ i.env? := by
  fun_cases Item.subs i
  case case27 => exact forall_mem_nil _
  all_goals simp only [forall_mem_cons]
  all_goals simp_all [Item.env?]

/-- All code that stands in an item has its `SELF`. -/
lemma Stems.self?_eq {root j : Item} (h : Stems root j) (henv : env ∈ j.env?) :
    ∃ base ∈ root.env?, env.self? = base.self? := by
  induction h generalizing env with
  | root => exact ⟨env, henv, rfl⟩
  | sub _ hj ih => exact ih (env?_subs _ hj henv)
  | body layer _ ih | param layer _ _ ih =>
    cases henv
    obtain ⟨base, hbase, heq⟩ := ih rfl
    exact ⟨base, hbase, heq⟩

/-- The code stands in that of an item, whose `SELF` it has, or it is that of a block that is run as
the actor. -/
def From (id : ActorId) (I : List Item) (j : Item) : Prop :=
  (∃ i ∈ I, Stems i j ∧ ∀ env ∈ j.env?, ∃ base ∈ i.env?, env.self? = base.self?) ∨
    ∃ stmt env, j = .exec stmt env ∧ env.Names id

/-- Statements are executed, and blocks run, as the actor. -/
def RunBy (id : ActorId) : Item → Prop
  | .exec _ env | .run env => env.self? = some id
  | .perform self _ => self = id
  | _ => True

variable {s : Store} {h : Heap} {I J N H L : List Item} {i j : Item}

lemma RunBy.subs (hi : i.RunBy id) : ∀ j ∈ i.subs, j.RunBy id := by
  fun_cases Item.subs i
  case case27 => exact forall_mem_nil _
  all_goals simp only [forall_mem_cons]
  all_goals simp_all [RunBy]

lemma Yields.runBy (hI : ∀ i ∈ I, i.RunBy id) (hj : Yields h I j) : j.RunBy id := by
  induction hj with
  | keep hi => exact hI _ hi
  | sub _ hj ih => exact ih.subs _ hj
  | _ => trivial

/-- What a step leaves is run by the actor if what it held was. -/
lemma Gain.runBy (hI : ∀ i ∈ I, i.RunBy id) (gain : Gain s I h ids N) : ∀ j ∈ N, j.RunBy id := by
  cases gain with
  | scope _ hi =>
    have hcaller : RunBy id (.run _) := hi.runBy hI
    exact forall_mem_cons.2 ⟨hcaller, forall_mem_singleton.2 trivial⟩
  | actor hi | enact _ hi =>
    have hself : RunBy id (.perform _ _) := hi.runBy hI
    exact forall_mem_singleton.2 (congrArg some hself)
  | _ => simp [RunBy]

lemma Turns.runBy (turns : Turns cx c H L c') (hH : ∀ i ∈ H, i.RunBy id) : ∀ j ∈ L, j.RunBy id := by
  obtain ⟨I, J, log, hI, ⟨N, gain, hJ⟩, _, hL⟩ := turns
  have hsome : ∀ i ∈ I, i.RunBy id := fun i hi => hH i (hI hi)
  intro j hj
  rcases mem_append.1 (hL hj) with hj | hj
  · exact hH j hj
  · exact (hJ j (mem_append_right _ hj)).elim (·.runBy hsome) (gain.runBy hsome j)

/-- Code that is there without a change stands in code that is held, or in a function. -/
lemma Yields.stems (hj : Yields h I j) (henv : env ∈ j.env?) :
    ∃ i ∈ I ++ h.functions, Stems i j := by
  induction hj with
  | keep hi => exact ⟨_, mem_append_left _ hi, .root⟩
  | sub _ hj ih =>
    obtain ⟨i, hi, hs⟩ := ih (env?_subs _ hj henv)
    exact ⟨i, hi, hs.sub hj⟩
  | @closure ref c _ found =>
    have hc : c ∈ h.closures.toList := Array.mem_toList_iff.2 (Array.mem_of_getElem? found)
    exact ⟨_, mem_append_right _ (mem_map_of_mem hc), .root⟩
  | _ => cases henv

lemma From.of_stems (h : ∃ i ∈ I, Stems i j) : j.From id I := by
  obtain ⟨i, hi, hs⟩ := h
  exact .inl ⟨i, hi, hs, fun env => hs.self?_eq⟩

/-- The functions that there are after a step. -/
lemma Gain.functions_stem (gain : Gain s I h ids N) :
    ∀ j ∈ h.functions, ∃ i ∈ I ++ s.heap.functions, Stems i j := by
  have old : ∀ j ∈ s.heap.functions, ∃ i ∈ I ++ s.heap.functions, Stems i j := fun j hj =>
    ⟨j, mem_append_right _ hj, .root⟩
  have kept : ∀ h', h = h' → h'.closures = s.heap.closures →
      ∀ j ∈ h.functions, ∃ i ∈ I ++ s.heap.functions, Stems i j := by
    intro h' heap same
    rwa [heap, Heap.functions, same]
  cases gain with
  | closure hi heap =>
    subst heap
    simp only [Heap.functions, Heap.newClosure, Array.toList_push, map_append]
    exact forall_mem_append.2 ⟨old, forall_mem_singleton.2 (hi.stems rfl)⟩
  | native _ _ _ heap => exact kept _ heap (s.heap.code_call ..).1
  | bind _ _ heap | create _ heap => exact kept _ heap (s.heap.code_bind ..).1
  | still heap | layer _ heap | block _ heap | new _ heap | scope _ _ heap | actor _ heap
  | enact _ _ heap =>
    exact kept _ heap rfl

/-- The code that comes with what a step makes. -/
lemma Gain.from (hI : ∀ i ∈ I, i.RunBy id) (gain : Gain s I h ids N) :
    ∀ j ∈ N, ∀ env ∈ j.env?, j.From id (I ++ s.heap.functions) := by
  have hrun := gain.runBy hI
  cases gain with
  | layer hi =>
    obtain ⟨i, hmem, hs⟩ := hi.stems rfl
    exact forall_mem_cons.2 ⟨fun _ _ => .of_stems ⟨i, hmem, hs.body _⟩,
      forall_mem_map.2 fun p hp _ _ => .of_stems ⟨i, hmem, hs.param _ hp⟩⟩
  | scope =>
    have hself := Env.names_of_self? (hrun _ mem_cons_self)
    exact forall_mem_cons.2 ⟨fun _ _ => .inr ⟨_, _, rfl, hself⟩, forall_mem_singleton.2 nofun⟩
  | enact =>
    have hself := Env.names_of_self? (hrun _ mem_cons_self)
    exact forall_mem_singleton.2 fun _ _ => .inr ⟨_, _, rfl, hself⟩
  | _ => simp [env?]

/-- Where the code, and the functions, come from that a small step leaves. -/
lemma Turns.from (turns : Turns cx c H L c') (hH : ∀ i ∈ H, i.RunBy id) :
    ∀ j ∈ L ++ c'.heap.functions, ∀ env ∈ j.env?, j.From id (H ++ c.heap.functions) := by
  obtain ⟨I, J, log, hI, ⟨N, gain, hJ⟩, _, hL⟩ := turns
  have wider : ∀ {j : Item}, j.From id (I ++ c.heap.functions) →
      j.From id (H ++ c.heap.functions) :=
    Or.imp_left fun ⟨i, hi, hs⟩ => ⟨i, mem_append.2 ((mem_append.1 hi).imp_left (hI ·)), hs⟩
  refine forall_mem_append.2 ⟨fun j hj env henv => ?_, fun j hj _ _ => ?_⟩
  · rcases mem_append.1 (hL hj) with hj | hj
    · exact .of_stems ⟨j, mem_append_left _ hj, .root⟩
    · rcases hJ j (mem_append_right _ hj) with hj | hj
      · exact wider (.of_stems (hj.stems henv))
      · exact wider (gain.from (fun i hi => hH i (hI hi)) j hj env henv)
  · exact wider (.of_stems (gain.functions_stem j hj))

end Item

/-- A run keeps that all blocks are run by the actor. -/
lemma Evaluation.Forest.runBy {n : Nat} {trees trees' : List Work}
    (forest : Forest cx n trees c trees' c') (h : ∀ i ∈ Work.items trees, i.RunBy id) :
    ∀ i ∈ Work.items trees', i.RunBy id :=
  (forest.keeps_items (S := fun _ => True) (Q := fun _ i => i.RunBy id)
    (fun _ _ _ => ⟨trivial, fun _ hi => hi⟩)
    (fun turns _ hH => ⟨trivial, turns.runBy hH⟩) trivial h).2

namespace Task

open Evaluation

/-- However the task is run on: `SELF` stands for the actor in all code of the statements that are
executed, and code that a step leaves to evaluate, or makes a function of, has the `SELF` of code
held before, or of a function made before, in which it stands, unless it is that of a block that
begins. -/
def RunsAs {g : Goal} (id : ActorId) (t : Task g) (s : Store) : Prop :=
  ∃ dropped trees, Standing True t.context t.main s dropped trees ∧
    ∀ {n : Nat} {trees' : List Work} {c : Core}, Forest t.context n trees s.core trees' c →
      (∀ stmt env j, .exec stmt env ∈ Work.items trees' → Item.Stems (.exec stmt env) j →
        ∀ env' ∈ j.env?, env'.Names id) ∧
      ∀ {before after ds : List Work} {k : Goal} {f f' : Evaluation k} {c' : Core},
        trees' = before ++ ⟨k, f⟩ :: after → Micro t.context f c f' ds c' →
        ∀ j ∈ f'.items ++ Work.items ds ++ c'.heap.functions, ∀ env ∈ j.env?,
          j.From id (f.items ++ c.heap.functions)

variable {P : Heap → Prop} {behavior message : Value} {exported : Bool} {here : Place} {old : Heap}
  {t : Task .outcome} {s : Store}

/-- Between the runs of a delivery all blocks it is about to run are run by its actor. -/
lemma Driven.runBy (driven : Driven P (.deliver behavior message id exported here) old t s) :
    ∃ dropped trees, Standing True t.context t.main s dropped trees ∧
      ∀ i ∈ Work.items trees, i.RunBy id := by
  refine driven.stands (I := fun trees _ => ∀ i ∈ Work.items trees, i.RunBy id) (fun _ => ?_)
    (fun _ _ hrun => hrun) fun hforest hrun => hforest.runBy hrun
  simp [Work.items, Evaluation.items, Job.flat, Job.items, Item.RunBy]

/-- `SELF` names the actor that a message is delivered to, in all blocks that are run for it. -/
theorem Driven.runsAs (driven : Driven P (.deliver behavior message id exported here) old t s) :
    t.RunsAs id s := by
  obtain ⟨dropped, trees, hst, hrun⟩ := driven.runBy
  refine ⟨dropped, trees, hst, fun {n trees' c} forest => ?_⟩
  have hrun' := forest.runBy hrun
  refine ⟨fun stmt env j hexec stems env' henv => ?_,
    fun {before after ds k f f' c'} htrees step => ?_⟩
  · obtain ⟨base, hbase, heq⟩ := stems.self?_eq henv
    cases hbase
    exact Env.names_of_self? (heq.trans (hrun' _ hexec))
  · refine step.turns.from fun i hi => hrun' i ?_
    simp [htrees, Work.items, hi]

end Task

/-- A block that sends its actor the value of a variable. -/
def Heap.sending : Heap :=
  { natives := #[.identity], blocks := #[⟨["x"], .send (.ident "x") .self, .empty⟩] }

/-- Its delivery to the actor at 7. -/
def Heap.sendingAt7 : Delivery × World :=
  Actor.start { behavior := .native ⟨0, "identity"⟩, env := .empty, logger := none }
  ⟨⟨7⟩, 0⟩ (.block 0)
    { store := { heap := sending }, fuel := 24 }

theorem Heap.sendingAt7_runsAs : ∃ t s, sendingAt7.1.task.advance 24
    sendingAt7.2.store = some (t, s) ∧ t.answer? = none ∧ t.RunsAs ⟨7⟩ s := by
  have hanswer : (sendingAt7.1.task.advance 24 sendingAt7.2.store).map
      (fun r => r.1.answer?.isNone) =
      some true := by decide +kernel
  obtain ⟨⟨t, s⟩, hrun, hnone⟩ := Option.map_eq_some_iff.1 hanswer
  rw [Option.isNone_iff_eq_none] at hnone
  have hopened : Task.Driven (fun _ => True)
      (.deliver (.native ⟨0, "identity"⟩) (.block 0) ⟨7⟩ false ⟨.empty, 0⟩) sending
      sendingAt7.1.task sendingAt7.2.store :=
    .opened (s := (Store.newTransaction { heap := sending }).2) rfl
      (fun i entry hentry => by simp [sending, Store.newTransaction, Heap.scope] at hentry)
      trivial ⟨7⟩ false _ 0
  exact ⟨t, s, hrun, hnone, Task.Driven.runsAs (hopened.polled hrun)⟩

end Troupe
