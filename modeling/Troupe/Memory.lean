import Troupe.Heap

/-!
Environments in memory: frames that refer to each other.

A layer does not hold its bindings. It refers to the newest one, its head. Every binding is a frame
of its own that refers to the one before it, and the oldest refers to the base of the layer: only
that the base is reached tells that the layer is at its end. A layer is shared by all who have a
handle to it, and a new binding changes its head in place.

All operations are walks along references (`Memory.walk`). Nothing in a memory as such makes a walk
end, so an operation may have no result.

* `Memory.lookup`, `Memory.bind`, `Memory.declare`, `Memory.define`, `Memory.selfId`: the
  operations.
* `Memory.layerValue`: what a layer itself binds a name to.
-/

namespace Troupe

/-- Where a frame stands in memory. -/
abbrev Handle := Nat

/-- A frame. -/
inductive Node where
  | empty
  | binding (name : String) (v : Value) (next : Handle)
  /-- A layer, with its newest binding; that is the base as long as there is none. -/
  | dynamic (head base : Handle)
  | block (scope : Nat) (captured caller : Handle)
  | actor (id : ActorId) (next : Handle)
  | global (dict : Nat) (next : Handle)

/-- Frames, and a heap for the variables of blocks and the entries of dictionaries. -/
structure Memory where
  nodes : Array Node := #[]
  heap : Heap := {}

namespace Memory

open Heap (Found)

variable (m : Memory)

/-! ### New frames -/

/-- A new frame. -/
def add (n : Node) : Handle × Memory := (m.nodes.size, { m with nodes := m.nodes.push n })

/-- A layer without bindings. -/
def newLayer (base : Handle) : Handle × Memory := m.add (.dynamic base base)

/-- The variables of a block, none of them bound. -/
def newScope (captured caller : Handle) (vars : List String) : Handle × Memory :=
  { m with heap := (m.heap.newScope .empty .empty vars).2 }.add
    (.block m.heap.scopes.size captured caller)

/-- An empty dictionary. -/
def newGlobal (next : Handle) : Handle × Memory :=
  { m with heap := (m.heap.newGlobal .empty).2 }.add (.global m.heap.dicts.size next)

/-! ### Walks -/

/-- What a walk does at a frame. -/
inductive Turn (α : Type) where
  | stop (a : α)
  | go (next : Handle)

/-- Follows references from frame to frame, for so many steps, until one gives the answer. -/
def walkFor {α : Type} (turn : Handle → Node → Option (Turn α)) : Nat → Handle → Option α
  | 0, _ => none
  | steps + 1, e => do
    match ← turn e (← m.nodes[e]?) with
    | .stop a => return a
    | .go next => walkFor turn steps next

/-- Follows references from frame to frame until one gives the answer. A walk of more steps than
there are frames has come back to a frame, and never ends. -/
def walk {α : Type} (turn : Handle → Node → Option (Turn α)) : Handle → Option α :=
  m.walkFor turn m.nodes.size

/-- Looks a name up. -/
def lookup (name : String) : Handle → Option Found :=
  m.walk fun _ n =>
    some <| match n with
    | .empty => .stop (.value .undefined)
    | .binding x v next => if x == name then .stop (.value v) else .go next
    | .dynamic head _ => .go head
    | .block scope captured _ =>
      match (m.heap.scope scope).lookup name with
      | some slot =>
        match m.heap.slot? slot with
        | some v => .stop (.value v)
        | none => .stop (.unbound slot)
      | none => .go captured
    | .actor _ next => .go next
    | .global dict next =>
      match (m.heap.dict dict).lookup name with
      | some v => .stop (.value v)
      | none => .go next

/-- The value that a layer itself binds a name to: the bindings from a frame to the base. -/
def layerValue (name : String) (base : Handle) : Handle → Option (Option Value) :=
  m.walk fun e n =>
    some <| if e = base then .stop none
    else match n with
    | .binding x v next => if x == name then .stop (some v) else .go next
    | _ => .stop none

/-- Puts a new binding in front of a layer. -/
def prepend (layer head base : Handle) (name : String) (v : Value) : Memory :=
  { m with
    nodes :=
      (m.nodes.setIfInBounds layer (.dynamic m.nodes.size base)).push (.binding name v head) }

/-- One frame of binding a name; `self` is the handle through which it is bound. -/
def bindTurn (name : String) (v : Value) (self e : Handle) :
    Node → Option (Turn (Option Handle × List Waiter × Memory))
  | .empty | .global .. => some (.stop (none, [], m))
  | .dynamic head base => do
    match ← m.layerValue name base head with
    | some w => return .stop (if w == v then some self else none, [], m)
    | none => return .stop (some self, [], m.prepend e head base name v)
  | .block scope captured _ =>
    match (m.heap.scope scope).lookup name with
    | some slot =>
      let (bound, waiting, heap) := m.heap.fill slot v
      some (.stop (if bound then some self else none, waiting, { m with heap }))
    | none => some (.go captured)
  | .binding _ _ next | .actor _ next => some (.go next)

/-- Binds a name in the nearest layer or slot that takes it. The answer is the environment in which
it is bound to the value now, if there is one. -/
def bind (name : String) (v : Value) (self : Handle) :
    Option (Option Handle × List Waiter × Memory) :=
  m.walk (m.bindTurn name v self) self

/-- Adds a slot to the nearest block, if there is one. -/
def declare (name : String) : Handle → Option (Bool × Memory) :=
  m.walk fun _ n =>
    some <| match n with
    | .empty => .stop (false, m)
    | .dynamic _ base => .go base
    | .block scope _ _ =>
      .stop (true, { m with heap := (m.heap.declare name (.block scope .empty .empty)).2 })
    | .binding _ _ next | .actor _ next | .global _ next => .go next

/-- Sets a name in the nearest dictionary, if there is one. -/
def define (name : String) (v : Value) : Handle → Option (Bool × Memory) :=
  m.walk fun _ n =>
    some <| match n with
    | .empty => .stop (false, m)
    | .dynamic _ base => .go base
    | .global dict _ =>
      .stop (true, { m with heap := (m.heap.define name v (.global dict .empty)).2 })
    | .block _ captured _ => .go captured
    | .binding _ _ next | .actor _ next => .go next

/-- The actor that `SELF` is. -/
def selfId : Handle → Option (Option ActorId) :=
  m.walk fun _ n =>
    some <| match n with
    | .empty => .stop none
    | .dynamic _ base => .go base
    | .block _ _ caller => .go caller
    | .actor id _ => .stop (some id)
    | .binding _ _ next | .global _ next => .go next

end Memory

end Troupe
