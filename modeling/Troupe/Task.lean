import Troupe.Evaluation.Advance

/-!
Tasks: an evaluation that is run for an actor, with the evaluations that were detached from it.

`Task.advance` runs a task in rounds until its main evaluation has finished or nothing moves any
more. A round takes the trampoline over, sweeps through the ready queue and then runs the main
evaluation; another round follows if the task was told something, or something was detached,
meanwhile.
-/

namespace Troupe

/-- An evaluation that is run for an actor. -/
structure Task (g : Goal) where
  context : Context
  main : Evaluation g

namespace Task

/-- A new task. A muted task asks no one to be resumed. -/
def spawn {g : Goal} (s : Store) (actor : ActorId) (muted : Bool) (transaction : Nat) (now : Millis)
    (main : Evaluation g) : Task g × Store :=
  let (task, s) := s.newAgenda actor muted
  (⟨⟨task, transaction, now⟩, main⟩, s)

/-- The answer of a task that has finished. -/
def answer? {g : Goal} (t : Task g) : Option g.Result := t.main.answer?

/-- Runs pieces from the ready queue until one finishes (`true`) or none is left to run. After
`total` pieces, or two that were told something during their own run, the others have to wait for
the next round. -/
def sweep (cx : Context) (total : Nat) : Nat → Nat → Nat → Store → Option (Bool × Store)
  | 0, _, _, _ => none
  | fuel + 1, ran, yielded, s =>
    match s.nextReady cx.task with
    | (none, s) => some (false, s)
    | (some ticket, s) =>
      match s.takeWork cx.task ticket with
      | (none, s) => sweep cx total fuel ran yielded s
      | (some ⟨g, e⟩, s) =>
        match e.advance cx (.piece cx.task ticket) fuel s with
        | none => none
        | some (.done r, s) => some (true, s.finish cx.task ticket ⟨g, r⟩)
        | some (e, s) =>
          match s.putBack cx.task ticket ⟨g, e⟩ with
          | (woken, s) =>
            let yielded := if woken then yielded + 1 else yielded
            if 2 ≤ yielded ∨ ran + 1 = total then some (false, s.wakeTask cx.task)
            else sweep cx total fuel (ran + 1) yielded s

/-- Sweeps as long as pieces finish. -/
def sweepAll (cx : Context) : Nat → Store → Option Store
  | 0, _ => none
  | fuel + 1, s =>
    match s.arm cx.task with
    | (total, s) =>
      match sweep cx total fuel 0 0 s with
      | none => none
      | some (true, s) => sweepAll cx fuel s
      | some (false, s) => some s

/-- Runs rounds until the main evaluation has finished or nothing moves any more. -/
def rounds (cx : Context) {g : Goal} : Nat → Evaluation g → Store → Option (Evaluation g × Store)
  | 0, _, _ => none
  | fuel + 1, e, s =>
    match sweepAll cx fuel (s.enlist cx.task) with
    | none => none
    | some s =>
      match e.advance cx (.task cx.task) fuel s with
      | none => none
      | some (.done r, s) => some (.done r, s)
      | some (e, s) =>
        if (s.agenda cx.task).woken ∨ (s.agenda cx.task).waiting ≠ 0 then rounds cx fuel e s
        else some (e, s)

/-- Marks a task as being run, or not. -/
def running (cx : Context) (b : Bool) (s : Store) : Store :=
  s.modifyAgenda cx.task fun a => { a with running := b }

/-- Runs a task until it has finished or all of it waits. -/
def advance {g : Goal} (fuel : Nat) (t : Task g) (s : Store) : Option (Task g × Store) :=
  match rounds t.context fuel t.main (running t.context true s) with
  | none => none
  | some (main, s) => some ({ t with main }, running t.context false s)

end Task

end Troupe
