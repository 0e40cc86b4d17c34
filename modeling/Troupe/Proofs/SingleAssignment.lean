import Mathlib.Data.Fintype.Card
import Troupe.Memory
import Troupe.Proofs.Binders

/-!
Environments in memory are single-assignment.

A memory depicts a heap that has the bindings of a layer, as a list, under the number of the frame
of the layer. What is followed from a handle is then an environment (`Memory.Shows`), and every
operation in memory does what the operation of that name does on the heap: `Memory.Depicts.lookup`,
`Memory.Depicts.bind`, `Memory.Depicts.declare`, `Memory.Depicts.define`. In particular the walks
end.

A `Memory.Realm` is a memory with the environments that were made in it (its handles).

* `Memory.Realm.Step.mirrors`: each operation in memory is an operation on the heap that it depicts.
* `Memory.Realm.single_assignment`: what binding a name means in every realm that can be reached.
-/

namespace Troupe

open Array List Heap

/-- The frame with another head, if it is a layer. -/
def Node.turn (head : Handle) : Node → Node
  | .dynamic _ base => .dynamic head base
  | n => n

namespace Memory

variable {m m' : Memory} {e head base : Handle} {env : Env} {h h' : Heap} {n : Node}
  {x : String} {v : Value} {bindings : List (String × Value)}

section walk

variable {α : Type} {turn : Handle → Node → Option (Turn α)} {a : α} {steps : Nat}

lemma walkFor_succ_eq_some_iff : m.walkFor turn (steps + 1) e = some a ↔
    ∃ n, m.nodes[e]? = some n ∧ (turn e n = some (.stop a) ∨
      ∃ next, turn e n = some (.go next) ∧ m.walkFor turn steps next = some a) := by
  simp only [walkFor, Option.bind_eq_bind, Option.bind_eq_some_iff]
  refine exists_congr fun n => and_congr_right fun _ => ⟨?_, ?_⟩
  · rintro ⟨stop | go, hturn, hrest⟩
    · cases hrest
      exact .inl hturn
    · exact .inr ⟨_, hturn, hrest⟩
  · rintro (hstop | ⟨next, hgo, hrest⟩)
    · exact ⟨_, hstop, rfl⟩
    · exact ⟨_, hgo, hrest⟩

lemma walkFor_mono (walks : m.walkFor turn steps e = some a) {steps' : Nat}
    (hle : steps ≤ steps') : m.walkFor turn steps' e = some a := by
  induction steps generalizing e steps' with
  | zero => cases walks
  | succ steps ih =>
    obtain ⟨steps', rfl⟩ := Nat.exists_eq_add_one_of_ne_zero (Nat.ne_zero_of_lt hle)
    obtain ⟨n, here, hturn⟩ := walkFor_succ_eq_some_iff.1 walks
    refine walkFor_succ_eq_some_iff.2 ⟨n, here, hturn.imp_right ?_⟩
    rintro ⟨next, hgo, hrest⟩
    exact ⟨next, hgo, ih hrest (Nat.le_of_succ_le_succ hle)⟩

/-- The walk takes one step more than `steps`. -/
def Takes (m : Memory) (turn : Handle → Node → Option (Turn α)) (e : Handle) (steps : Nat) : Prop :=
  m.walkFor turn steps e = none ∧ ∃ a, m.walkFor turn (steps + 1) e = some a

lemma Takes.le (takes : m.Takes turn e steps) {steps' : Nat} (takes' : m.Takes turn e steps') :
    steps ≤ steps' := by
  by_contra hlt
  obtain ⟨a, walks⟩ := takes'.2
  cases takes.1.symm.trans (walkFor_mono walks (Nat.lt_of_not_le hlt))

lemma Takes.inside (takes : m.Takes turn e steps) : e < m.nodes.size := by
  obtain ⟨a, walks⟩ := takes.2
  obtain ⟨n, here, -⟩ := walkFor_succ_eq_some_iff.1 walks
  exact (Array.getElem?_eq_some_iff.1 here).1

/-- A walk leads to walks of all smaller numbers of steps. -/
lemma Takes.exists_of_le (takes : m.Takes turn e steps) {k : Nat} (hk : k ≤ steps) :
    ∃ e', m.Takes turn e' k := by
  induction steps generalizing e with
  | zero => exact ⟨e, Nat.le_zero.1 hk ▸ takes⟩
  | succ steps ih =>
    rcases Nat.le_succ_iff.1 hk with hk | rfl
    · obtain ⟨hnone, a, walks⟩ := takes
      obtain ⟨n, here, hstop | ⟨next, hgo, hrest⟩⟩ := walkFor_succ_eq_some_iff.1 walks
      · cases hnone.symm.trans (walkFor_succ_eq_some_iff.2 ⟨n, here, .inl hstop⟩)
      · refine ih ⟨Option.eq_none_iff_forall_ne_some.2 fun b hb => ?_, a, hrest⟩ hk
        cases hnone.symm.trans (walkFor_succ_eq_some_iff.2 ⟨n, here, .inr ⟨next, hgo, hb⟩⟩)
    · exact ⟨e, takes⟩

/-- A walk that ends visits no frame twice. -/
lemma Takes.lt_size (takes : m.Takes turn e steps) : steps < m.nodes.size := by
  choose frame hframe using fun k : Fin (steps + 1) =>
    takes.exists_of_le (Nat.le_of_lt_succ k.isLt)
  have hinjective : Function.Injective fun k =>
      (⟨frame k, (hframe k).inside⟩ : Fin m.nodes.size) := by
    intro k k' heq
    have hsame : frame k = frame k' := congrArg Fin.val heq
    exact Fin.ext (((hframe k).le (hsame ▸ hframe k')).antisymm
      ((hframe k').le (hsame ▸ hframe k)))
  have hcard := Fintype.card_le_of_injective _ hinjective
  rwa [Fintype.card_fin, Fintype.card_fin] at hcard

/-- That walks are given up after as many steps as there are frames cuts none of them short. -/
theorem walk_eq_some_iff :
    m.walk turn e = some a ↔ ∃ steps, m.walkFor turn steps e = some a := by
  refine ⟨fun walks => ⟨_, walks⟩, ?_⟩
  rintro ⟨steps, walks⟩
  induction steps with
  | zero => cases walks
  | succ steps ih =>
    cases hbefore : m.walkFor turn steps e with
    | none =>
      have htakes : m.Takes turn e steps := ⟨hbefore, a, walks⟩
      exact walkFor_mono walks htakes.lt_size
    | some b => exact ih (hbefore.trans ((walkFor_mono hbefore steps.le_succ).symm.trans walks))

lemma walk_stop (here : m.nodes[e]? = some n) (stops : turn e n = some (.stop a)) :
    m.walk turn e = some a :=
  walk_eq_some_iff.2 ⟨1, walkFor_succ_eq_some_iff.2 ⟨n, here, .inl stops⟩⟩

lemma walk_go {next : Handle} (here : m.nodes[e]? = some n) (goes : turn e n = some (.go next)) :
    m.walk turn e = m.walk turn next := by
  ext a
  rw [walk_eq_some_iff, walk_eq_some_iff]
  constructor
  · rintro ⟨_ | steps, walks⟩
    · cases walks
    · obtain ⟨n', here', hturn⟩ := walkFor_succ_eq_some_iff.1 walks
      cases here.symm.trans here'
      rcases hturn with hstop | ⟨next', hgo, hrest⟩
      · cases goes.symm.trans hstop
      · cases goes.symm.trans hgo
        exact ⟨steps, hrest⟩
  · rintro ⟨steps, walks⟩
    exact ⟨steps + 1, walkFor_succ_eq_some_iff.2 ⟨n, here, .inr ⟨next, goes, walks⟩⟩⟩

end walk

/-! ### Layers -/

/-- The bindings that the nodes from a frame to the base give. -/
inductive Chain (m : Memory) (base : Handle) : Handle → List (String × Value) → Prop where
  | nil (inside : base < m.nodes.size) : Chain m base base []
  | cons {e next : Handle} {x : String} {v : Value} {bindings : List (String × Value)}
      (here : m.nodes[e]? = some (.binding x v next)) (before : e ≠ base)
      (rest : Chain m base next bindings) : Chain m base e ((x, v) :: bindings)

/-- The frames of the first memory stand in the second one, if perhaps with other heads. -/
def Keeps (m m' : Memory) : Prop :=
  ∀ (e : Handle) (n : Node), m.nodes[e]? = some n → ∃ head, m'.nodes[e]? = some (n.turn head)

lemma Keeps.of_eq (nodes : m'.nodes = m.nodes) : m.Keeps m' := by
  intro e n hn
  rw [nodes, hn]
  cases n with
  | dynamic head base => exact ⟨head, rfl⟩
  | _ => exact ⟨0, rfl⟩

lemma Chain.mono (chain : m.Chain base e bindings) (keeps : m.Keeps m') :
    m'.Chain base e bindings := by
  induction chain with
  | nil inside =>
    obtain ⟨_, here⟩ := keeps _ _ (Array.getElem?_eq_getElem inside)
    exact .nil (Array.getElem?_eq_some_iff.1 here).1
  | cons here before _ ih =>
    obtain ⟨_, here'⟩ := keeps _ _ here
    exact .cons here' before ih

/-- A layer binds a name to what its chain gives. -/
lemma Chain.layerValue (chain : m.Chain base head bindings) (name : String) :
    m.layerValue name base head = some (bindings.lookup name) := by
  induction chain with
  | nil inside => exact walk_stop (Array.getElem?_eq_getElem inside) (by simp)
  | @cons e next x v bindings here before _ ih =>
    by_cases hx : x = name
    · subst hx
      rw [lookup_cons, beq_self_eq_true]
      exact walk_stop here (by simp [before])
    · rw [lookup_cons, beq_false_of_ne (Ne.symm hx), ← ih]
      exact walk_go here (by simp [before, hx])

/-- To look a name up from the head of a layer is to try its chain first, and then the base. -/
lemma Chain.lookup (chain : m.Chain base head bindings) (name : String) : m.lookup name head =
    match bindings.lookup name with
    | some v => some (.value v)
    | none => m.lookup name base := by
  induction chain with
  | nil => rw [lookup_nil]
  | @cons e next x v bindings here before _ ih =>
    by_cases hx : x = name
    · subst hx
      rw [lookup_cons, beq_self_eq_true]
      exact walk_stop here (by simp)
    · rw [lookup_cons, beq_false_of_ne (Ne.symm hx), ← ih]
      exact walk_go here (by simp [hx])

/-! ### What a memory depicts -/

/-- The memory depicts the heap. -/
structure Depicts (m : Memory) (h : Heap) : Prop where
  same : h = { m.heap with layers := h.layers }
  size : h.layers.size ≤ m.nodes.size
  chains : ∀ (e head base : Handle), m.nodes[e]? = some (.dynamic head base) →
    e < h.layers.size ∧ m.Chain base head (h.layer e)

/-- What is followed from a handle is an environment. -/
inductive Shows (m : Memory) : Handle → Env → Prop where
  | empty {e : Handle} (here : m.nodes[e]? = some .empty) : Shows m e .empty
  | dynamic {e head base : Handle} {env : Env} (here : m.nodes[e]? = some (.dynamic head base))
      (rest : Shows m base env) : Shows m e (.dynamic e env)
  | block {e next caller : Handle} {scope : Nat} {captured env : Env}
      (here : m.nodes[e]? = some (.block scope next caller)) (rest : Shows m next captured)
      (rest' : Shows m caller env) : Shows m e (.block scope captured env)
  | actor {e next : Handle} {id : ActorId} {env : Env} (here : m.nodes[e]? = some (.actor id next))
      (rest : Shows m next env) : Shows m e (.actor e id env)
  | global {e next : Handle} {dict : Nat} {env : Env}
      (here : m.nodes[e]? = some (.global dict next)) (rest : Shows m next env) :
      Shows m e (.global dict env)

lemma Shows.inside (shows : m.Shows e env) : e < m.nodes.size := by
  cases shows <;> exact (Array.getElem?_eq_some_iff.1 ‹_›).1

lemma Shows.mono (shows : m.Shows e env) (keeps : m.Keeps m') : m'.Shows e env := by
  induction shows with
  | empty here =>
    obtain ⟨_, here'⟩ := keeps _ _ here
    exact .empty here'
  | dynamic here _ ih =>
    obtain ⟨_, here'⟩ := keeps _ _ here
    exact .dynamic here' ih
  | block here _ _ ih ih' =>
    obtain ⟨_, here'⟩ := keeps _ _ here
    exact .block here' ih ih'
  | actor here _ ih =>
    obtain ⟨_, here'⟩ := keeps _ _ here
    exact .actor here' ih
  | global here _ ih =>
    obtain ⟨_, here'⟩ := keeps _ _ here
    exact .global here' ih

lemma Shows.selfId (shows : m.Shows e env) : m.selfId e = some env.self? := by
  induction shows with
  | empty here | actor here => exact walk_stop here rfl
  | dynamic here _ ih | block here _ _ _ ih | global here _ ih => exact (walk_go here rfl).trans ih

namespace Depicts

variable (d : m.Depicts h)
include d

lemma scope_eq (i : Nat) : m.heap.scope i = h.scope i := by rw [d.same]; rfl

lemma slot?_eq (i : Nat) : m.heap.slot? i = h.slot? i := by rw [d.same]; rfl

lemma dict_eq (i : Nat) : m.heap.dict i = h.dict i := by rw [d.same]; rfl

lemma holds (shows : m.Shows e env) : h.Holds env := by
  induction shows with
  | empty => trivial
  | dynamic here _ ih => exact ⟨(d.chains _ _ _ here).1, ih⟩
  | block _ _ _ ih _ | actor _ _ ih | global _ _ ih => exact ih

/-- Names are looked up in memory as in the heap. -/
theorem lookup (shows : m.Shows e env) (name : String) :
    m.lookup name e = some (h.lookup name env) := by
  induction shows with
  | empty here => exact walk_stop here rfl
  | dynamic here _ ih =>
    rw [Heap.lookup, Memory.lookup, walk_go here rfl]
    refine ((d.chains _ _ _ here).2.lookup name).trans ?_
    cases (h.layer _).lookup name with
    | some v => rfl
    | none => exact ih
  | @block e next caller scope captured env here _ _ ih _ =>
    rw [Heap.lookup]
    cases hfound : (h.scope scope).lookup name with
    | none => exact (walk_go here (by simp only [d.scope_eq, hfound])).trans ih
    | some slot =>
      cases hslot : h.slot? slot <;>
        exact walk_stop here (by simp only [d.scope_eq, hfound, d.slot?_eq, hslot])
  | actor here _ ih => exact (walk_go here rfl).trans ih
  | @global e next dict env here _ ih =>
    rw [Heap.lookup]
    cases hfound : (h.dict dict).lookup name with
    | some v => exact walk_stop here (by simp only [d.dict_eq, hfound])
    | none => exact (walk_go here (by simp only [d.dict_eq, hfound])).trans ih

/-- Variables and dictionaries change. -/
lemma reheap (heap : Heap) (same : h' = { heap with layers := h.layers }) :
    Depicts { m with heap } h' := by
  subst same
  exact ⟨rfl, d.size, fun e head base here =>
    (d.chains e head base here).imp_right (·.mono (.of_eq rfl))⟩

/-- A new frame. -/
lemma add (n : Node)
    (new : ∀ head base, n = .dynamic head base → head = base ∧ base < m.nodes.size) :
    m.Keeps (m.add n).2 ∧
      (m.add n).2.Depicts (h.moreLayers (m.nodes.size + 1 - h.layers.size)) := by
  have hquiet := h.quiet_moreLayers (m.nodes.size + 1 - h.layers.size)
  have hsize : (h.moreLayers (m.nodes.size + 1 - h.layers.size)).layers.size =
      m.nodes.size + 1 := by
    have := d.size
    simp only [moreLayers, size_append, size_replicate]
    omega
  have hkeeps : m.Keeps (m.add n).2 := by
    intro e n' hn
    rw [Memory.add, Array.getElem?_push, if_neg (Array.getElem?_eq_some_iff.1 hn).1.ne]
    exact Keeps.of_eq rfl e n' hn
  refine ⟨hkeeps, by rw [d.same]; rfl, by rw [hsize, Memory.add, size_push],
    fun e head base here => ?_⟩
  rw [Memory.add, getElem?_push] at here
  rw [hsize, hquiet.layer]
  split at here
  · rename_i he
    obtain ⟨rfl, hinside⟩ := new head base (Option.some.inj here)
    rw [he, layer, Array.getElem?_eq_none d.size]
    exact ⟨m.nodes.size.lt_succ_self,
      .nil (hinside.trans_le (m.nodes.size.le_succ.trans_eq (size_push _).symm))⟩
  · obtain ⟨hlt, hchain⟩ := d.chains e head base here
    exact ⟨hlt.trans_le (d.size.trans m.nodes.size.le_succ), hchain.mono hkeeps⟩

/-- A binding is put in front of a layer. -/
lemma prepend (here : m.nodes[e]? = some (.dynamic head base)) (inside : base < m.nodes.size)
    (name : String) (v : Value) : m.Keeps (m.prepend e head base name v) ∧
      (m.prepend e head base name v).Depicts (h.write name v (.layer e)) := by
  obtain ⟨hinside, hchain⟩ := d.chains e head base here
  have hlayer (i : Nat) : (h.write name v (.layer e)).layer i = _ := layer_write_layer e i hinside
  have hnodes : ∀ e', (m.prepend e head base name v).nodes[e']? =
      if e' = m.nodes.size then some (.binding name v head)
      else if e = e' then some (.dynamic m.nodes.size base) else m.nodes[e']? := by
    intro e'
    rw [Memory.prepend, getElem?_push, size_setIfInBounds,
      getElem?_setIfInBounds, if_pos (hinside.trans_le d.size)]
  have hkeeps : m.Keeps (m.prepend e head base name v) := by
    intro e' n hn
    rw [hnodes, if_neg (Array.getElem?_eq_some_iff.1 hn).1.ne]
    split
    · rename_i he
      rw [← he, here] at hn
      cases hn
      exact ⟨_, rfl⟩
    · exact Keeps.of_eq rfl e' n hn
  have hsize : (h.write name v (.layer e)).layers.size = h.layers.size := size_modify ..
  refine ⟨hkeeps, by rw [d.same]; rfl, ?_, fun e' head' base' here' => ?_⟩
  · rw [hsize, Memory.prepend, size_push, size_setIfInBounds]
    exact d.size.trans m.nodes.size.le_succ
  · rw [hnodes] at here'
    rw [hsize, hlayer]
    split at here'
    · cases here'
    · split at here' <;> rename_i he
      · cases here'
        rw [if_pos he, ← he]
        exact ⟨hinside, .cons ((hnodes _).trans (if_pos rfl)) inside.ne' (hchain.mono hkeeps)⟩
      · rw [if_neg he]
        exact (d.chains e' head' base' here').imp_right (·.mono hkeeps)

/-- Names are bound in memory as in the heap, and the answer is the handle itself. -/
theorem bind (shows : m.Shows e env) (name : String) (v : Value) :
    ∃ m', m.bind name v e = some (if (h.bind name v env).1 then some e else none,
        (h.bind name v env).2.1, m') ∧
      m.Keeps m' ∧ m'.Depicts (h.bind name v env).2.2 := by
  suffices hwalk : ∀ self, ∃ m', m.walk (m.bindTurn name v self) e =
      some (if (h.bind name v env).1 then some self else none, (h.bind name v env).2.1, m') ∧
      m.Keeps m' ∧ m'.Depicts (h.bind name v env).2.2 from hwalk e
  intro self
  induction shows with
  | empty here | global here => exact ⟨m, walk_stop here rfl, .of_eq rfl, d⟩
  | @dynamic e head base env here rest ih =>
    have hvalue := (d.chains e head base here).2.layerValue name
    rw [Heap.bind]
    cases hfound : (h.layer e).lookup name with
    | some w => exact ⟨m, walk_stop here (by simp [bindTurn, hvalue, hfound]), .of_eq rfl, d⟩
    | none =>
      exact ⟨_, walk_stop here (by simp [bindTurn, hvalue, hfound]),
        d.prepend here rest.inside name v⟩
  | @block e next caller scope captured env here _ _ ih _ =>
    rw [Heap.bind]
    cases hfound : (h.scope scope).lookup name with
    | some slot =>
      have hfill : h.fill slot v = ((m.heap.fill slot v).1, (m.heap.fill slot v).2.1,
          { (m.heap.fill slot v).2.2 with layers := h.layers }) := by
        rw [d.same, Heap.fill, Heap.fill]
        rcases m.heap.slots[slot]? with _ | _ | _ <;> rfl
      simp only [hfill]
      refine ⟨{ m with heap := (m.heap.fill slot v).2.2 }, walk_stop here ?_,
        .of_eq rfl, d.reheap _ rfl⟩
      simp only [bindTurn, d.scope_eq, hfound]
    | none =>
      rw [walk_go here (by simp only [bindTurn, d.scope_eq, hfound]; rfl)]
      exact ih
  | actor here _ ih =>
    rw [walk_go here rfl]
    exact ih

/-- Names are declared in memory as in the heap. -/
theorem declare (shows : m.Shows e env) (name : String) :
    ∃ m', m.declare name e = some ((h.declare name env).1, m') ∧ m.Keeps m' ∧
      m'.Depicts (h.declare name env).2 := by
  induction shows with
  | empty here => exact ⟨m, walk_stop here rfl, .of_eq rfl, d⟩
  | block here => exact ⟨_, walk_stop here rfl, .of_eq rfl, d.reheap _ (by rw [d.same]; rfl)⟩
  | dynamic here _ ih | actor here _ ih | global here _ ih =>
    rw [Memory.declare, walk_go here rfl]
    exact ih

/-- Names are defined in memory as in the heap. -/
theorem define (shows : m.Shows e env) (name : String) (v : Value) :
    ∃ m', m.define name v e = some ((h.define name v env).1, m') ∧ m.Keeps m' ∧
      m'.Depicts (h.define name v env).2 := by
  induction shows with
  | empty here => exact ⟨m, walk_stop here rfl, .of_eq rfl, d⟩
  | global here => exact ⟨_, walk_stop here rfl, .of_eq rfl, d.reheap _ (by rw [d.same]; rfl)⟩
  | dynamic here _ ih | block here _ _ ih _ | actor here _ ih =>
    rw [Memory.define, walk_go here rfl]
    exact ih

end Depicts

/-! ### Realms -/

/-- The value that a layer or a slot answers for a name. -/
def content? (m : Memory) (name : String) : Binder → Option Value
  | .layer e =>
    match m.nodes[e]? with
    | some (.dynamic head base) => (m.layerValue name base head).join
    | _ => none
  | .slot i => m.heap.slot? i

lemma Depicts.content? (d : m.Depicts h) (here : m.nodes[e]? = some (.dynamic head base))
    (x : String) : m.content? x (.layer e) = h.content? x (.layer e) := by
  rw [Memory.content?, here]
  exact congrArg Option.join ((d.chains e head base here).2.layerValue x)

/-- A memory and the environments that were made in it. -/
structure Realm where
  memory : Memory := {}
  handles : List Handle := []

namespace Realm

/-- The realm with one environment more. -/
def extend (r : Realm) (made : Handle × Memory) : Realm := ⟨made.2, made.1 :: r.handles⟩

/-- One operation on the environments of a realm. Looking up a name that has no value yet enters
whoever asks as a waiter. -/
inductive Step (r : Realm) : Realm → Prop where
  | empty : Step r (r.extend (r.memory.add .empty))
  | global {next : Handle} (known : next ∈ r.handles) :
      Step r (r.extend (r.memory.newGlobal next))
  | dynamic {b : Handle} (known : b ∈ r.handles) : Step r (r.extend (r.memory.newLayer b))
  | block {captured caller : Handle} (known : captured ∈ r.handles) (known' : caller ∈ r.handles)
      (vars : List String) : Step r (r.extend (r.memory.newScope captured caller vars))
  | actor {n : Handle} (known : n ∈ r.handles) (id : ActorId) :
      Step r (r.extend (r.memory.add (.actor id n)))
  | bind {e : Handle} (known : e ∈ r.handles) (name : String) (v : Value) {answer : Option Handle}
      {waiting : List Waiter} {m : Memory}
      (done : r.memory.bind name v e = some (answer, waiting, m)) :
      Step r ⟨m, answer.toList ++ r.handles⟩
  | declare {e : Handle} (known : e ∈ r.handles) (name : String) {ok : Bool} {m : Memory}
      (done : r.memory.declare name e = some (ok, m)) : Step r ⟨m, r.handles⟩
  | define {e : Handle} (known : e ∈ r.handles) (name : String) (v : Value) {ok : Bool} {m : Memory}
      (done : r.memory.define name v e = some (ok, m)) : Step r ⟨m, r.handles⟩
  | wait {e : Handle} (known : e ∈ r.handles) {name : String} {slot : Nat}
      (unbound : r.memory.lookup name e = some (.unbound slot)) (who : Waiter) :
      Step r ⟨{ r.memory with heap := r.memory.heap.park slot who }, r.handles⟩

/-- Any number of operations, one after the other. -/
abbrev Steps : Realm → Realm → Prop := Relation.ReflTransGen Step

/-- The memory depicts an orderly heap, and all handles show environments. -/
structure Mirrors (r : Realm) (h : Heap) : Prop where
  depicts : r.memory.Depicts h
  orderly : h.Orderly
  shows : ∀ e ∈ r.handles, ∃ env, r.memory.Shows e env

lemma mirrors_empty : Mirrors {} {} where
  depicts := ⟨rfl, le_rfl, by simp⟩
  orderly := ⟨fun i entry h => by simp [scope] at h, fun i => by simp [layer],
    fun i j x y k h => by simp [scope] at h⟩
  shows := nofun

variable {r r' : Realm}

/-- An operation of which the heap takes note. The handles show the environments that they did, and
a new handle shows one as well. -/
lemma Mirrors.next {handles : List Handle} (mirrors : r.Mirrors h) (keeps : r.memory.Keeps m)
    (depicts : m.Depicts h') (assigns : h.Assigns h')
    (known : ∀ e ∈ handles, e ∈ r.handles ∨ ∃ env, m.Shows e env) :
    Mirrors ⟨m, handles⟩ h' ∧ r.memory.Keeps m ∧ h.Assigns h' := by
  refine ⟨⟨depicts, assigns.orderly mirrors.orderly, fun e he => ?_⟩, keeps, assigns⟩
  rcases known e he with hold | hnew
  · obtain ⟨env, hshows⟩ := mirrors.shows e hold
    exact ⟨env, hshows.mono keeps⟩
  · exact hnew

/-- A new frame, of which the heap has taken note. -/
lemma Mirrors.add (mirrors : r.Mirrors h) (heap : Heap)
    (quiet : h.Quiet { heap with layers := h.layers })
    (n : Node) (new : ∀ head base, n = .dynamic head base → head = base ∧
      base < r.memory.nodes.size)
    (shows : ∀ m, r.memory.Keeps m → m.nodes[r.memory.nodes.size]? = some n →
      ∃ env, m.Shows r.memory.nodes.size env) :
    ∃ h', (r.extend (Memory.add { r.memory with heap } n)).Mirrors h' ∧
      r.memory.Keeps (Memory.add { r.memory with heap } n).2 ∧ h.Assigns h' := by
  obtain ⟨hkeeps, hdepicts⟩ := (mirrors.depicts.reheap heap rfl).add n new
  refine ⟨_, mirrors.next hkeeps hdepicts (.inl (quiet.trans (quiet_moreLayers ..))) fun e he => ?_⟩
  rcases mem_cons.1 he with rfl | hold
  · exact .inr (shows _ hkeeps getElem?_push_size)
  · exact .inl hold

/-- Each operation in memory is an operation on the heap that the memory depicts. -/
lemma Step.mirrors (step : r.Step r') (mirrors : r.Mirrors h) :
    ∃ h', r'.Mirrors h' ∧ r.memory.Keeps r'.memory ∧ h.Assigns h' := by
  have d := mirrors.depicts
  have hquiet : h.Quiet { r.memory.heap with layers := h.layers } :=
    .of_eq rfl (fun i => d.slot?_eq i) (by rw [d.same]) (by rw [d.same])
  cases step with
  | empty => exact mirrors.add _ hquiet .empty nofun fun m _ here => ⟨_, .empty here⟩
  | @global next known =>
    obtain ⟨env, hshows⟩ := mirrors.shows next known
    exact mirrors.add (r.memory.heap.newGlobal .empty).2
      (hquiet.trans (.of_eq rfl (fun _ => rfl) rfl rfl)) _ nofun fun m keeps here =>
        ⟨_, .global here (hshows.mono keeps)⟩
  | @dynamic base known =>
    obtain ⟨env, hshows⟩ := mirrors.shows base known
    refine mirrors.add _ hquiet _ (fun head base' heq => ?_) fun m keeps here =>
      ⟨_, .dynamic here (hshows.mono keeps)⟩
    cases heq
    exact ⟨rfl, hshows.inside⟩
  | @block captured caller known known' vars =>
    obtain ⟨env, hshows⟩ := mirrors.shows captured known
    obtain ⟨env', hshows'⟩ := mirrors.shows caller known'
    exact mirrors.add (r.memory.heap.newScope .empty .empty vars).2
      (hquiet.trans (quiet_newScope _ .empty .empty vars)) _ nofun fun m keeps here =>
        ⟨_, .block here (hshows.mono keeps) (hshows'.mono keeps)⟩
  | @actor next known id =>
    obtain ⟨env, hshows⟩ := mirrors.shows next known
    exact mirrors.add _ hquiet _ nofun fun m keeps here => ⟨_, .actor here (hshows.mono keeps)⟩
  | @bind e known name v answer waiting m done =>
    obtain ⟨env, hshows⟩ := mirrors.shows e known
    obtain ⟨m', hbind, hkeeps, hdepicts⟩ := d.bind hshows name v
    cases done.symm.trans hbind
    refine ⟨_, mirrors.next hkeeps hdepicts
      (assigns_bind mirrors.orderly (d.holds hshows) name v) fun e' he => .inl ?_⟩
    rcases mem_append.1 he with he | he
    · split at he
      · exact mem_singleton.1 he ▸ known
      · cases he
    · exact he
  | @declare e known name ok m done =>
    obtain ⟨env, hshows⟩ := mirrors.shows e known
    obtain ⟨m', hdeclare, hkeeps, hdepicts⟩ := d.declare hshows name
    cases done.symm.trans hdeclare
    exact ⟨_, mirrors.next hkeeps hdepicts (.inl (h.quiet_declare name env)) fun _ => .inl⟩
  | @define e known name v ok m done =>
    obtain ⟨env, hshows⟩ := mirrors.shows e known
    obtain ⟨m', hdefine, hkeeps, hdepicts⟩ := d.define hshows name v
    cases done.symm.trans hdefine
    exact ⟨_, mirrors.next hkeeps hdepicts (.inl (h.quiet_define name v env)) fun _ => .inl⟩
  | @wait e known name slot unbound who =>
    exact ⟨_, mirrors.next (.of_eq rfl)
      (d.reheap (r.memory.heap.park slot who) (by rw [d.same]; rfl))
      (.inl (h.quiet_park slot who)) fun _ => .inl⟩

lemma Steps.mirrors (steps : r.Steps r') (mirrors : r.Mirrors h) : ∃ h', r'.Mirrors h' := by
  induction steps with
  | refl => exact ⟨h, mirrors⟩
  | tail _ step ih =>
    obtain ⟨h1, mirrors1⟩ := ih
    obtain ⟨h', mirrors', -⟩ := step.mirrors mirrors1
    exact ⟨h', mirrors'⟩

/-- An operation changes no value that a layer or a slot has for a name. -/
lemma Step.content? {c : Binder} (step : r.Step r') (mirrors : r.Mirrors h)
    (hv : r.memory.content? x c = some v) : r'.memory.content? x c = some v := by
  obtain ⟨h', mirrors', hkeeps, hassigns⟩ := step.mirrors mirrors
  cases c with
  | slot i =>
    have hi : h.content? x (.slot i) = some v := (mirrors.depicts.slot?_eq i).symm.trans hv
    exact (mirrors'.depicts.slot?_eq i).trans (hassigns.content? hi)
  | layer e =>
    obtain ⟨head, base, here⟩ : ∃ head base, r.memory.nodes[e]? = some (.dynamic head base) := by
      rw [Memory.content?] at hv
      split at hv
      · exact ⟨_, _, ‹_›⟩
      · cases hv
    obtain ⟨head', here'⟩ := hkeeps e _ here
    rw [mirrors.depicts.content? here] at hv
    rw [mirrors'.depicts.content? here']
    exact hassigns.content? hv

/-- The value of a layer or a slot for a name never changes. -/
theorem Steps.content? {c : Binder} (steps : r.Steps r') (mirrors : r.Mirrors h)
    (hv : r.memory.content? x c = some v) : r'.memory.content? x c = some v := by
  induction steps with
  | refl => exact hv
  | tail before step ih =>
    obtain ⟨h1, mirrors1⟩ := Steps.mirrors before mirrors
    exact step.content? mirrors1 ih

/-- In every realm that can be reached: all walks from handles end; the chain of a layer, from its
head to its base, consists of bindings of different names; binding a name answers the handle itself,
the name is then looked up with its value and no other name is looked up differently, or it is
refused, and then nothing is; and whatever happens later, layers and slots keep the values that they
have. -/
theorem single_assignment (reached : Steps {} r) :
    (∀ e ∈ r.handles, ∀ x v, (r.memory.lookup x e).isSome ∧ (r.memory.bind x v e).isSome ∧
      (r.memory.declare x e).isSome ∧ (r.memory.define x v e).isSome ∧ (r.memory.selfId e).isSome) ∧
    (∀ (e head base : Handle), r.memory.nodes[e]? = some (.dynamic head base) →
      ∃ bindings, r.memory.Chain base head bindings ∧ (bindings.map Prod.fst).Nodup) ∧
    (∀ e ∈ r.handles, ∀ x v answer waiting m, r.memory.bind x v e = some (answer, waiting, m) →
      (∀ e', answer = some e' → e' = e ∧ m.lookup x e = some (.value v) ∧
        ∀ e' ∈ r.handles, ∀ y, y ≠ x → m.lookup y e' = r.memory.lookup y e') ∧
      (answer = none → ∀ e' ∈ r.handles, ∀ y, m.lookup y e' = r.memory.lookup y e')) ∧
    (∀ r', r.Steps r' → ∀ c x v, r.memory.content? x c = some v →
      r'.memory.content? x c = some v) := by
  obtain ⟨h, mirrors⟩ := Steps.mirrors reached mirrors_empty
  have d := mirrors.depicts
  refine ⟨?walks, ?chains, ?binds, fun r' later c x v => later.content? mirrors⟩
  case walks =>
    intro e known x v
    obtain ⟨env, hshows⟩ := mirrors.shows e known
    obtain ⟨_, hbind, _⟩ := d.bind hshows x v
    obtain ⟨_, hdeclare, _⟩ := d.declare hshows x
    obtain ⟨_, hdefine, _⟩ := d.define hshows x v
    rw [d.lookup hshows, hbind, hdeclare, hdefine, hshows.selfId]
    exact ⟨rfl, rfl, rfl, rfl, rfl⟩
  case chains =>
    intro e head base here
    exact ⟨_, (d.chains e head base here).2, mirrors.orderly.layers e⟩
  case binds =>
    intro e known x v answer waiting m done
    obtain ⟨env, hshows⟩ := mirrors.shows e known
    obtain ⟨m', hbind, hkeeps, d'⟩ := d.bind hshows x v
    cases done.symm.trans hbind
    have hholds := d.holds hshows
    cases hbound : (h.bind x v env).1 with
    | true =>
      obtain ⟨hvalue, hothers⟩ := lookup_bind mirrors.orderly hholds hbound
      refine ⟨fun e' he' => ⟨(Option.some.inj he').symm, ?_, fun e' known' y hne => ?_⟩, nofun⟩
      · rw [d'.lookup (hshows.mono hkeeps), hvalue]
      · obtain ⟨env', hshows'⟩ := mirrors.shows e' known'
        rw [d'.lookup (hshows'.mono hkeeps), d.lookup hshows', hothers env' y hne]
    | false =>
      refine ⟨nofun, fun _ e' known' y => ?_⟩
      obtain ⟨env', hshows'⟩ := mirrors.shows e' known'
      rw [d'.lookup (hshows'.mono hkeeps), d.lookup hshows',
        bind_of_refused mirrors.orderly hholds hbound]

/-- A layer that binds a name, and an actor on top of it. -/
def staffed : Realm where
  memory := { nodes := #[.empty, .dynamic 2 0, .binding "x" .nil 0, .actor ⟨7⟩ 1] }
  handles := [3, 1, 1, 0]

lemma steps_staffed : Steps {} staffed := by
  have hbind : Memory.bind { nodes := #[.empty, .dynamic 0 0] } "x" .nil 1 =
      some (some 1, [], { nodes := #[.empty, .dynamic 2 0, .binding "x" .nil 0] }) := by
    refine walk_stop (n := .dynamic 0 0) rfl ?_
    rfl
  refine (((Relation.ReflTransGen.single .empty).tail (.dynamic ?_)).tail
    (.bind ?_ "x" .nil hbind)).tail (.actor ?_ ⟨7⟩) <;> simp [extend, add, newLayer]

/-- A name is bound through the actor in the layer below it, where the other name keeps its
value. -/
theorem staffed_single_assignment :
    ∃ m, staffed.memory.bind "y" .undefined 3 = some (some 3, [], m) ∧
      m.lookup "y" 3 = some (.value .undefined) ∧ m.lookup "x" 1 = staffed.memory.lookup "x" 1 := by
  obtain ⟨-, -, hbinds, -⟩ := single_assignment steps_staffed
  have hbind : staffed.memory.bind "y" .undefined 3 =
      some (some 3, [], staffed.memory.prepend 1 2 0 "y" .undefined) := by
    refine (walk_go rfl rfl).trans (walk_stop (n := .dynamic 2 0) rfl ?_)
    have hchain : staffed.memory.Chain 0 2 [("x", .nil)] := .cons rfl (by decide) (.nil (by decide))
    rw [bindTurn, hchain.layerValue]
    rfl
  obtain ⟨hbound, -⟩ := hbinds 3 (by simp [staffed]) "y" .undefined _ _ _ hbind
  obtain ⟨-, hy, hothers⟩ := hbound 3 rfl
  exact ⟨_, hbind, hy, hothers 1 (by simp [staffed]) "x" (by decide)⟩

end Realm

end Memory

end Troupe
