import Troupe.Evaluation.Begin

/-!
Running evaluations.

`Evaluation.advance` runs an evaluation until it has finished or every part of it waits. Parts side
by side are run left to right. Whoever runs it (`who`) is entered as waiter where a part waits.

Programs need not end, so the number of nested steps is bounded by `fuel`; `none` means that it ran
out.
-/

namespace Troupe

namespace Evaluation

/-- Runs an evaluation until it has finished or every part of it waits. -/
def advance (cx : Context) (who : Waiter) :
    Nat → {g : Goal} → Evaluation g → Store → Option (Evaluation g × Store)
  | 0, _, _, _ => none
  | _ + 1, _, .done r, s => some (.done r, s)
  | fuel + 1, _, .start job, s =>
    match job.begin cx s with
    | (e, s) => advance cx who fuel e s
  | _ + 1, _, .parked slot, s =>
    match s.heap.slot? slot with
    | some v => some (.done v, s)
    | none => some (.parked slot, { s with heap := s.heap.park slot who })
  | _ + 1, g, .awaiting ticket, s =>
    match s.readAnswer cx.task ticket who with
    | (some a, s) => some (.done (a.get g), s)
    | (none, s) => some (.awaiting ticket, s)
  | fuel + 1, _, .one part frame, s =>
    match advance cx who fuel part s with
    | none => none
    | some (.done r, s) =>
      match frame.resume r cx s with
      | (e, s) => advance cx who fuel e s
    | some (part, s) => some (.one part frame, s)
  | fuel + 1, _, .both left right join, s =>
    match advance cx who fuel left s with
    | none => none
    | some (left, s) =>
      match advance cx who fuel right s with
      | none => none
      | some (right, s) =>
        match left, right with
        | .done a, .done b =>
          match join.resume a b cx s with
          | (e, s) => advance cx who fuel e s
        | left, right => some (.both left right join, s)
  | fuel + 1, _, .race left right, s =>
    match advance cx who fuel left s with
    | none => none
    | some (.done .fail, s) => some (.done .fail, s)
    | some (.done a, s) =>
      match advance cx who fuel right s with
      | none => none
      | some (.done b, s) => some (a.join b cx s)
      | some (right, s) => some (.race (.done a) right, s)
    | some (left, s) =>
      match right with
      | .done b => some (.race left (.done b), s)
      | right =>
        match advance cx who fuel right s with
        | none => none
        | some (.done .fail, s) => some (.done .fail, s)
        | some (.done b, s) =>
          match advance cx who fuel left s with
          | none => none
          | some (.done a, s) => some (a.join b cx s)
          | some (left, s) => some (.race left (.done b), s)
        | some (right, s) => some (.race left right, s)

end Evaluation

end Troupe
