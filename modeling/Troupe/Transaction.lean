import Troupe.Clock
import Troupe.Env
import Troupe.Value

/-!
Transactions: what a delivery does is gathered, and takes effect at its end or not at all.

The first exception is kept. From then on everything is refused, and nothing is left to take effect.
-/

namespace Troupe

/-- The result of a statement. -/
inductive Outcome where
  | ok
  /-- The transaction has failed. -/
  | fail
  /-- Done, with the behavior for the messages to come. -/
  | become (behavior : Value)
deriving DecidableEq, Inhabited, Repr

/-- A send that has been gathered. -/
structure PendingSend where
  message : Value
  target : ActorId
  delay : Option Millis

/-- A new actor that has been gathered. -/
structure StagedActor where
  id : ActorId
  name : String
  behavior : Value
  env : Env

/-- What a transaction has gathered, each kind in the order in which it was asked for. -/
structure Effects where
  sends : Array PendingSend := #[]
  created : Array StagedActor := #[]
  defines : Array (String × Value) := #[]

/-- Nothing was gathered. -/
def Effects.isEmpty (e : Effects) : Bool :=
  e.sends.isEmpty && e.created.isEmpty && e.defines.isEmpty

/-- A transaction. -/
inductive Transaction where
  | gathering (effects : Effects)
  | failed (exception : Value)

instance : Inhabited Transaction := ⟨.gathering {}⟩

namespace Transaction

/-- A transaction that has gathered nothing. -/
def empty : Transaction := .gathering {}

/-- The transaction has failed. -/
def isFailed : Transaction → Bool
  | gathering _ => false
  | failed _ => true

/-- Gathers something, unless the transaction has failed. -/
def gather (f : Effects → Effects) : Transaction → Outcome × Transaction
  | gathering effects => (.ok, gathering (f effects))
  | failed exception => (.fail, failed exception)

/-- Fails with an exception; only the first is kept. -/
def throw (t : Transaction) (exception : Value) : Outcome × Transaction :=
  match t with
  | gathering _ => (.fail, failed exception)
  | failed first => (.fail, failed first)

/-- Gathers a new actor. -/
def init (t : Transaction) (a : StagedActor) : Outcome × Transaction :=
  t.gather fun e => { e with created := e.created.push a }

/-- Gathers a definition. -/
def define (t : Transaction) (name : String) (v : Value) : Outcome × Transaction :=
  t.gather fun e => { e with defines := e.defines.push (name, v) }

/-- Gathers a send. A target that is no actor fails the transaction. -/
def send (t : Transaction) (message target : Value) (delay : Option Millis) :
    Outcome × Transaction :=
  match target with
  | .actor id => t.gather fun e => { e with sends := e.sends.push ⟨message, id, delay⟩ }
  | target => t.throw (.pair (.symbol "not-an-actor") target)

/-- Takes what was gathered; a failed transaction has nothing. -/
def commit : Transaction → Effects × Transaction
  | gathering effects => (effects, empty)
  | failed exception => ({}, failed exception)

/-- Drops what was gathered and answers the exception, if there was one. -/
def revert : Transaction → Option Value × Transaction
  | gathering _ => (none, empty)
  | failed exception => (some exception, failed exception)

end Transaction

/-- Two results of statements side by side; two behaviors do not go together (`none`). -/
def Outcome.merge? : Outcome → Outcome → Option Outcome
  | .fail, _ => some .fail
  | _, .fail => some .fail
  | .ok, b => some b
  | a, .ok => some a
  | .become _, .become _ => none

end Troupe
