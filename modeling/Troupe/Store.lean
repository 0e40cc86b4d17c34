import Troupe.Evaluation
import Troupe.Fifo

/-!
The store: the heap, the open transactions and, for every task, its agenda.

An agenda keeps the evaluations that were detached from a task (`Piece`). A detached evaluation
first waits on the trampoline, is then enlisted, and is run whenever it stands in the ready queue.
Its answer is kept until the evaluation that waits for it reads it.

* `Store.wake` tells a waiter. A task that is told outside of its own run asks for its actor to be
  resumed (`Store.wakeups`).
* `Store.bind` binds a name and tells those who waited for it.
* `Store.detach` cuts an evaluation loose.
* `Store.close` ends a task for good.
-/

namespace Troupe

/-- An answer of some kind. -/
structure Answer where
  goal : Goal
  result : goal.Result

/-- The answer, if it is of the kind that is asked for. -/
def Answer.get (a : Answer) (g : Goal) : g.Result :=
  if h : a.goal = g then h ▸ a.result else g.default

/-- An evaluation of some kind. -/
structure Work where
  goal : Goal
  evaluation : Evaluation goal

/-- The answer of a detached evaluation. -/
inductive Reply where
  /-- There is none yet; whoever asked last waits for it. -/
  | pending (reader : Option Waiter)
  | given (answer : Answer)
  /-- It has been read. -/
  | taken

/-- A detached evaluation. -/
structure Piece where
  /-- What is left to do; nothing, once it has finished. -/
  work : Option Work
  reply : Reply := .pending none
  /-- It stands in the ready queue, or never needs to again. -/
  queued : Bool := false
  /-- It was told something since its last run began. -/
  woken : Bool := false
  /-- When it was last enlisted or put back, counted in such events. -/
  linked : Nat := 0

/-- The state of a task apart from its main evaluation. -/
structure Agenda where
  /-- The actor that the task runs for. -/
  actor : ActorId
  /-- The task asks no one to be resumed. -/
  muted : Bool := false
  /-- The task was told something since its current round began. -/
  woken : Bool := false
  /-- The task is being run. -/
  running : Bool := false
  /-- The next piece that is told something tells the task, too. -/
  armed : Bool := false
  /-- The task is gone. -/
  closed : Bool := false
  /-- All pieces, by ticket. -/
  pieces : Array Piece := #[]
  /-- How many pieces have left the trampoline; they leave it in order. -/
  enlisted : Nat := 0
  /-- How many enlisted pieces have not finished. -/
  members : Nat := 0
  ready : Fifo Nat := {}
  links : Nat := 0

instance : Inhabited Agenda := ⟨{ actor := ⟨0⟩ }⟩

/-- Pieces that wait on the trampoline. -/
def Agenda.waiting (a : Agenda) : Nat := a.pieces.size - a.enlisted

/-- Heap, transactions and agendas. -/
structure Store where
  heap : Heap := {}
  transactions : Array Transaction := #[]
  agendas : Array Agenda := #[]
  ids : IdSource := {}
  /-- The actors that are to be resumed, in the order in which it was asked for. -/
  wakeups : Array ActorId := #[]
  /-- Those outside who were told something, in order. -/
  alerts : Array String := #[]

instance : Inhabited Store := ⟨{}⟩

namespace Store

/-! ### Agendas -/

/-- The agenda of a task. -/
def agenda (s : Store) (task : Nat) : Agenda := (s.agendas[task]?).getD default

/-- Changes the agenda of a task. -/
def modifyAgenda (s : Store) (task : Nat) (f : Agenda → Agenda) : Store :=
  { s with agendas := s.agendas.modify task f }

/-- Changes a piece of a task. -/
def modifyPiece (s : Store) (task ticket : Nat) (f : Piece → Piece) : Store :=
  s.modifyAgenda task fun a => { a with pieces := a.pieces.modify ticket f }

/-- A piece of a task. -/
def piece? (s : Store) (task ticket : Nat) : Option Piece := (s.agenda task).pieces[ticket]?

/-- Opens an agenda. -/
def newAgenda (s : Store) (actor : ActorId) (muted : Bool) : Nat × Store :=
  (s.agendas.size, { s with agendas := s.agendas.push { actor, muted } })

/-! ### Telling waiters -/

/-- Tells a task. While it runs it will go round once more; otherwise its actor is to be resumed. -/
def wakeTask (s : Store) (task : Nat) : Store :=
  let a := s.agenda task
  let silent := a.running || a.muted
  let actor := a.actor
  let s := s.modifyAgenda task fun a => { a with woken := true }
  if silent then s else { s with wakeups := s.wakeups.push actor }

/-- Tells a piece. It is put on the ready queue unless it is there, and then tells the task if the
task asked for that. Pieces that have finished, or whose task is gone, are past telling. -/
def wakePiece (s : Store) (task ticket : Nat) : Store :=
  if (s.agenda task).closed then s
  else
    match s.piece? task ticket with
    | none => s
    | some piece =>
      if piece.queued then s.modifyPiece task ticket fun p => { p with woken := true }
      else
        let armed := (s.agenda task).armed
        let s := s.modifyAgenda task fun a =>
          { a with
            pieces := a.pieces.modify ticket fun p => { p with woken := true, queued := true }
            ready := a.ready.push ticket
            armed := false }
        if armed then s.wakeTask task else s

/-- Tells a waiter. -/
def wake (s : Store) : Waiter → Store
  | .task task => s.wakeTask task
  | .piece task ticket => s.wakePiece task ticket
  | .host name => { s with alerts := s.alerts.push name }

/-! ### Names -/

/-- Binds a name and tells those who waited for it. -/
def bind (s : Store) (name : String) (v : Value) (env : Env) : Bool × Store :=
  let (ok, waiting, heap) := s.heap.bind name v env
  (ok, waiting.foldl wake { s with heap })

/-- Applies an operation of the heap. -/
def onHeap {α : Type} (s : Store) (f : Heap → α × Heap) : α × Store :=
  let (a, heap) := f s.heap
  (a, { s with heap })

/-! ### Transactions -/

/-- Opens a transaction. -/
def newTransaction (s : Store) : Nat × Store :=
  (s.transactions.size, { s with transactions := s.transactions.push .empty })

/-- The state of a transaction. -/
def transaction (s : Store) (i : Nat) : Transaction := (s.transactions[i]?).getD default

/-- Applies an operation of a transaction. It is taken out of the store meanwhile. -/
def onTransaction {α : Type} (s : Store) (i : Nat) (f : Transaction → α × Transaction) :
    α × Store :=
  let t := s.transaction i
  let s := { s with transactions := s.transactions.setIfInBounds i .empty }
  let (a, t) := f t
  (a, { s with transactions := s.transactions.setIfInBounds i t })

/-- The next address. -/
def reserve (s : Store) : ActorId × Store :=
  let (id, ids) := s.ids.next
  (id, { s with ids })

/-- A new actor under the next address. -/
def create (s : Store) (i : Nat) (behavior : Value) (env : Env) (name : String) : Value × Store :=
  let (id, s) := s.reserve
  let (_, s) := s.onTransaction i (·.init ⟨id, name, behavior, env⟩)
  (.actor id, s)

/-! ### Detached evaluations -/

/-- Cuts an evaluation loose: it waits on the trampoline, and the answer is waited for. -/
def detach {g : Goal} (s : Store) (task : Nat) (job : Job g) : Evaluation g × Store :=
  let ticket := (s.agenda task).pieces.size
  (.awaiting ticket, s.modifyAgenda task fun a =>
    { a with pieces := a.pieces.push { work := some ⟨g, .start job⟩ } })

/-- Reads the answer of a detached evaluation, or waits for it. -/
def readAnswer (s : Store) (task ticket : Nat) (who : Waiter) : Option Answer × Store :=
  match s.piece? task ticket with
  | some { reply := .given answer, .. } =>
    (some answer, s.modifyPiece task ticket fun p => { p with reply := .taken })
  | _ => (none, s.modifyPiece task ticket fun p => { p with reply := .pending (some who) })

/-- Starts a round of a task: nothing has been told yet, and the trampoline is emptied into the
ready queue. -/
def enlist (s : Store) (task : Nat) : Store :=
  s.modifyAgenda task fun a =>
    let tickets := List.range' a.enlisted a.waiting
    tickets.foldl (fun a ticket =>
      { a with
        pieces := a.pieces.modify ticket fun p => { p with queued := true, linked := a.links }
        links := a.links + 1
        ready := a.ready.push ticket })
      { a with
        woken := false
        members := a.members + a.waiting
        enlisted := a.pieces.size }

/-- Takes the oldest piece off the ready queue. -/
def nextReady (s : Store) (task : Nat) : Option Nat × Store :=
  match (s.agenda task).ready.pop? with
  | none => (none, s)
  | some (ticket, ready) => (some ticket, s.modifyAgenda task fun a => { a with ready })

/-- What a piece has left to do, if it has not finished; the piece is then about to run. -/
def takeWork (s : Store) (task ticket : Nat) : Option Work × Store :=
  match s.piece? task ticket with
  | some { work := some work, .. } =>
    (some work, s.modifyPiece task ticket fun p => { p with queued := false, woken := false })
  | _ => (none, s)

/-- Puts a piece back that has not finished, and answers whether it was told something meanwhile. -/
def putBack (s : Store) (task ticket : Nat) (work : Work) : Bool × Store :=
  let woken := match s.piece? task ticket with
    | some p => p.woken
    | none => false
  (woken, s.modifyAgenda task fun a =>
    { a with
      pieces := a.pieces.modify ticket fun p => { p with work := some work, linked := a.links }
      links := a.links + 1 })

/-- Gives the answer of a piece and tells whoever waits for it. -/
def finish (s : Store) (task ticket : Nat) (answer : Answer) : Store :=
  let reader := match s.piece? task ticket with
    | some { reply := .pending reader, .. } => reader
    | _ => none
  let s := s.modifyAgenda task fun a =>
    { a with
      members := a.members - 1
      pieces := a.pieces.modify ticket fun p =>
        { p with work := none, queued := true, reply := .given answer } }
  match reader with
  | some who => s.wake who
  | none => s

/-- Asks the next piece that is told something to tell the task, and counts the pieces. -/
def arm (s : Store) (task : Nat) : Nat × Store :=
  ((s.agenda task).members, s.modifyAgenda task fun a => { a with armed := true })

/-! ### The end of a task -/

/-- Drops a piece. A piece that waits for its answer, and is still there, is told that none
comes. -/
def dropPiece (task : Nat) (s : Store) (ticket : Nat) : Store :=
  let reader := match s.piece? task ticket with
    | some { reply := .pending (some (.piece _ reader)), .. } => some reader
    | _ => none
  let s := s.modifyPiece task ticket fun p => { p with work := none, queued := true }
  match reader with
  | some reader =>
    match s.piece? task reader with
    | some { work := some _, .. } => s.wakePiece task reader
    | _ => s
  | none => s

/-- Ends a task: its pieces are dropped, the one that was put back last first. Pieces on the
trampoline were never taken up. -/
def close (s : Store) (task : Nat) : Store :=
  let a := s.agenda task
  let left : List (Nat × Nat) := (List.range a.enlisted).filterMap fun ticket =>
    match a.pieces[ticket]? with
    | some p => if p.work.isSome then some (ticket, p.linked) else none
    | none => none
  let order := left.mergeSort fun x y => y.2 ≤ x.2
  let s := order.foldl (fun s x => dropPiece task s x.1) s
  s.modifyAgenda task fun a => { a with closed := true }

end Store

end Troupe
