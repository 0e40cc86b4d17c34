import Troupe.Env
import Troupe.Host
import Troupe.Operation
import Troupe.Term

/-!
The heap: what environments and values refer to by number.

Layers and slots are written once: binding a name again succeeds only with an equal value and
changes nothing. A slot that is not bound yet remembers who waits for it (`Waiter`), in the order in
which they came.

* `Heap.lookup` finds the value of a name or the slot to wait for; it walks the chain of frames.
* `Heap.bind` binds a name in the nearest layer or slot that takes it.
* `Heap.declare` adds a slot to the nearest block, `Heap.define` sets a name in the nearest
  dictionary.
* `Heap.call` applies a native function.
-/

namespace Troupe

/-- Who is to be told that something they wait for has come. -/
inductive Waiter where
  /-- The main evaluation of a task. -/
  | task (task : Nat)
  /-- A detached evaluation of a task. -/
  | piece (task ticket : Nat)
  /-- Someone outside, by name. -/
  | host (name : String)
deriving DecidableEq, Repr

/-- A variable of a running block. -/
inductive Slot where
  | unbound (waiting : List Waiter)
  | bound (v : Value)

/-- A function and the environment it was made in. -/
structure Closure where
  param : Pattern
  body : Expr
  env : Env

/-- A block and the environment it was made in. -/
structure Block where
  vars : List String
  body : Stmt
  env : Env
deriving Inhabited

/-- A native function. -/
inductive Native where
  | operation (o : Operation)
  /-- Adds a key to a map. -/
  | mapBind
  /-- A map: one key, and the map that answers for all others. -/
  | map (key value : Value) (rest : Native)
  /-- Answers its argument; the behavior of the top-level actor. -/
  | identity
  /-- A function of the host with the value that it holds. -/
  | host (f : HostFunction) (held : Value)

/-- The name of a native function. -/
def Native.name : Native → String
  | operation o => o.name
  | mapBind => "map_bind"
  | map .. => "map"
  | identity => "repl"
  | host f _ => f.name

/-- What environments and values refer to. -/
structure Heap where
  /-- The bindings of each layer, newest first. -/
  layers : Array (List (String × Value)) := #[]
  /-- The names of each block and the slots they stand for. -/
  scopes : Array (List (String × Nat)) := #[]
  slots : Array Slot := #[]
  dicts : Array (List (String × Value)) := #[]
  closures : Array Closure := #[]
  blocks : Array Block := #[]
  natives : Array Native := #[]
  /-- How many actor frames were made. -/
  stamps : Nat := 0

namespace Heap

/-! ### New frames -/

/-- A layer without bindings on top of `base`. -/
def newLayer (h : Heap) (base : Env) : Env × Heap :=
  (.dynamic h.layers.size base, { h with layers := h.layers.push [] })

/-- The variables of a block, none of them bound. -/
def newScope (h : Heap) (captured caller : Env) (vars : List String) : Env × Heap :=
  let first := h.slots.size
  (.block h.scopes.size captured caller,
    { h with
      scopes := h.scopes.push (vars.zipIdx first)
      slots := h.slots ++ Array.replicate vars.length (Slot.unbound []) })

/-- A frame that names the actor `SELF` is. -/
def newActor (h : Heap) (id : ActorId) (next : Env) : Env × Heap :=
  (.actor h.stamps id next, { h with stamps := h.stamps + 1 })

/-- An empty dictionary on top of `next`. -/
def newGlobal (h : Heap) (next : Env) : Env × Heap :=
  (.global h.dicts.size next, { h with dicts := h.dicts.push [] })

/-! ### New code -/

/-- A new function. -/
def newClosure (h : Heap) (c : Closure) : Value × Heap :=
  (.closure h.closures.size, { h with closures := h.closures.push c })

/-- A new block. -/
def newBlock (h : Heap) (b : Block) : Value × Heap :=
  (.block h.blocks.size, { h with blocks := h.blocks.push b })

/-- A new native function. -/
def newNative (h : Heap) (f : Native) : Value × Heap :=
  (.native ⟨h.natives.size, f.name⟩, { h with natives := h.natives.push f })

/-- The block that a value is. -/
def block? (h : Heap) : Value → Option Block
  | .block ref => h.blocks[ref]?
  | _ => none

/-! ### Reading -/

/-- The bindings of a layer. -/
def layer (h : Heap) (i : Nat) : List (String × Value) := (h.layers[i]?).getD []

/-- The names of a block. -/
def scope (h : Heap) (i : Nat) : List (String × Nat) := (h.scopes[i]?).getD []

/-- The entries of a dictionary. -/
def dict (h : Heap) (i : Nat) : List (String × Value) := (h.dicts[i]?).getD []

/-- The value of a slot, if it is bound. -/
def slot? (h : Heap) (i : Nat) : Option Value :=
  match h.slots[i]? with
  | some (.bound v) => some v
  | _ => none

/-- The answer to a look-up. -/
inductive Found where
  | value (v : Value)
  /-- The name is declared by a block and not bound yet. -/
  | unbound (slot : Nat)
deriving Repr

/-- Looks a name up, frame by frame. A name that no frame knows is `?`. -/
def lookup (h : Heap) (name : String) : Env → Found
  | .empty => .value .undefined
  | .dynamic layer base =>
    match (h.layer layer).lookup name with
    | some v => .value v
    | none => h.lookup name base
  | .block scope captured _ =>
    match (h.scope scope).lookup name with
    | some slot =>
      match h.slot? slot with
      | some v => .value v
      | none => .unbound slot
    | none => h.lookup name captured
  | .actor _ _ next => h.lookup name next
  | .global dict next =>
    match (h.dict dict).lookup name with
    | some v => .value v
    | none => h.lookup name next

/-- The value of a name, if it does not have to be waited for. -/
def lookup? (h : Heap) (name : String) (env : Env) : Option Value :=
  match h.lookup name env with
  | .value v => some v
  | .unbound _ => none

/-! ### Writing -/

/-- Binds a slot. Those who waited for it are to be told. -/
def fill (h : Heap) (slot : Nat) (v : Value) : Bool × List Waiter × Heap :=
  match h.slots[slot]? with
  | some (.bound w) => (w == v, [], h)
  | some (.unbound waiting) =>
    (true, waiting, { h with slots := h.slots.setIfInBounds slot (.bound v) })
  | none => (false, [], h)

/-- Binds a name in the nearest layer or slot that takes it, and answers whether it is bound to the
value now. Dictionaries take no bindings. -/
def bind (h : Heap) (name : String) (v : Value) : Env → Bool × List Waiter × Heap
  | .empty => (false, [], h)
  | .dynamic layer _ =>
    match (h.layer layer).lookup name with
    | some w => (w == v, [], h)
    | none => (true, [], { h with layers := h.layers.modify layer ((name, v) :: ·) })
  | .block scope captured _ =>
    match (h.scope scope).lookup name with
    | some slot => h.fill slot v
    | none => h.bind name v captured
  | .actor _ _ next => h.bind name v next
  | .global .. => (false, [], h)

/-- Lets someone wait for a slot, unless they do already. -/
def park (h : Heap) (slot : Nat) (who : Waiter) : Heap :=
  { h with
    slots := h.slots.modify slot fun
      | .unbound waiting => .unbound (if waiting.contains who then waiting else waiting ++ [who])
      | s => s }

/-- Adds a slot to the nearest block, if there is one. -/
def declare (h : Heap) (name : String) : Env → Bool × Heap
  | .empty => (false, h)
  | .dynamic _ base => h.declare name base
  | .block scope _ _ =>
    let slot := h.slots.size
    (true,
      { h with
        scopes := h.scopes.modify scope (· ++ [(name, slot)])
        slots := h.slots.push (.unbound []) })
  | .actor _ _ next => h.declare name next
  | .global _ next => h.declare name next

/-- Sets a name in the nearest dictionary, if there is one. -/
def define (h : Heap) (name : String) (v : Value) : Env → Bool × Heap
  | .empty => (false, h)
  | .dynamic _ base => h.define name v base
  | .block _ captured _ => h.define name v captured
  | .actor _ _ next => h.define name v next
  | .global dict _ =>
    (true, { h with dicts := h.dicts.modify dict fun d => (name, v) :: d.eraseP (·.1 == name) })

/-! ### Native functions -/

/-- A map with one more key, if the argument is a native function, a key and a value. -/
def mapBind (h : Heap) : Value → Value × Heap
  | .pair (.native f) (.pair key value) =>
    match h.natives[f.index]? with
    | some rest => h.newNative (.map key value rest)
    | none => (.undefined, h)
  | _ => (.undefined, h)

/-- Applies a native function. -/
def call (h : Heap) : Native → Value → Value × Heap
  | .operation o, v => (o.apply v, h)
  | .mapBind, v => h.mapBind v
  | .map key value rest, v => if v == key then (value, h) else h.call rest v
  | .identity, v => (v, h)
  | .host f held, v => (f.apply (.pair held v), h)

/-- The native functions that every session starts with. -/
def builtins : List Native := Operation.all.map .operation ++ [.mapBind]

/-- Defines a new instance of each native function. -/
def definePrelude (h : Heap) (env : Env) : Heap :=
  builtins.foldl (fun h f =>
    let (v, h) := h.newNative f
    (h.define f.name v env).2) h

/-- The versions of the parts of the program. -/
def versions : Value := Value.tuple [.symbol "humus-meta v0.1.0", .symbol "humus-core"]

end Heap

end Troupe
