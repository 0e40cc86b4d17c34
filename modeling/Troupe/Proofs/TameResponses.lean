import Troupe.Proofs.Sessions

/-!
What responses do not do.

Actors take no wake-ups, and whoever they register is a program without messages under an address of
its own (`Script.Tame`). So wake-ups are added behind the others, and who is registered already
stays as it is (`Script.Tame.run`).

* `Performer.tame_respond`: the responses of all actors are tame.
-/

namespace Troupe

open List Scheduler

/-- Wake-ups were added behind the others. Who was registered stays as it is, and who is registered
newly is fresh. -/
structure Scheduler.Onward {M B : Type} (fresh : B → Prop) (s s' : Scheduler M B) : Prop where
  wakeups : s.wakeups.toList <+: s'.wakeups.toList
  kept : ∀ id e, s.find? id = some e → s'.find? id = some e
  joined : ∀ id e, s.find? id = none → s'.find? id = some e → fresh e.behavior

namespace Scheduler

variable {M B : Type} {fresh : B → Prop} {s s1 s' : Scheduler M B}

lemma Onward.of_eq (registry : s'.registry = s.registry)
    (wakeups : s.wakeups.toList <+: s'.wakeups.toList) : Onward fresh s s' := by
  have hfind : ∀ id, s'.find? id = s.find? id := fun id => by rw [find?, find?, registry]
  refine ⟨wakeups, fun id e he => (hfind id).trans he, fun id e hnone he => ?_⟩
  rw [hfind, hnone] at he
  cases he

lemma Onward.refl (s : Scheduler M B) : Onward fresh s s := .of_eq rfl prefix_rfl

lemma Onward.trans (h1 : Onward fresh s s1) (h2 : Onward fresh s1 s') : Onward fresh s s' := by
  refine ⟨h1.wakeups.trans h2.wakeups, fun id e he => h2.kept id e (h1.kept id e he),
    fun id e hnone he => ?_⟩
  cases hfind : s1.find? id with
  | none => exact h2.joined id e hfind he
  | some e1 =>
    have hsame := (h2.kept id e1 hfind).symm.trans he
    cases hsame
    exact h1.joined id e hnone hfind

/-- A free address is taken by a fresh behavior. -/
lemma Onward.register (s : Scheduler M B) {id : ActorId} {b : B} (name : String)
    (free : s.find? id = none) (hb : fresh b) : Onward fresh s (s.register id b name) := by
  refine ⟨prefix_rfl, fun id' e he => ?_, fun id' e hnone he => ?_⟩
  · rw [find?_register, if_neg]
    · exact he
    · rintro rfl
      rw [free] at he
      cases he
  · rw [find?_register] at he
    by_cases hid : id' = id
    · rw [if_pos hid] at he
      cases he
      exact hb
    · rw [if_neg hid, hnone] at he
      cases he

end Scheduler

/-! ### Tame scripts -/

namespace Script

variable {M B α β : Type}

/-- The script takes no wake-ups and registers fresh behaviors only, under reserved addresses. -/
def Tame (fresh : B → Prop) : Script M B α → Prop
  | done _ => True
  | send _ _ k => ∀ r, (k r).Tame fresh
  | sendAfter _ _ _ k => ∀ r, (k r).Tame fresh
  | create .. => False
  | createReserved _ b _ k => fresh b ∧ ∀ r, (k r).Tame fresh
  | reserve k => ∀ id, (k id).Tame fresh
  | issued k => ∀ n, (k n).Tame fresh
  | wake _ k => k.Tame fresh
  | takeWakeup _ => False
  | countWakeups k => ∀ n, (k n).Tame fresh

variable {fresh : B → Prop}

lemma Tame.bind {x : Script M B α} {f : α → Script M B β} (hx : x.Tame fresh)
    (hf : ∀ a, (f a).Tame fresh) : (x.bind f).Tame fresh := by
  induction x with
  | done a => exact hf a
  | wake id k ih => exact ih hx
  | takeWakeup | create => exact hx.elim
  | send m t k ih | sendAfter d m t k ih => exact fun r => ih r (hx r)
  | createReserved id b n k ih => exact ⟨hx.1, fun r => ih r (hx.2 r)⟩
  | reserve k ih => exact fun id => ih id (hx id)
  | issued k ih | countWakeups k ih => exact fun n => ih n (hx n)

/-- A request that is refused changes nothing. -/
lemma onward_settle {s : Scheduler M B} {granted : Except Fault (Scheduler M B)}
    (h : ∀ s', granted = .ok s' → Scheduler.Onward fresh s s') :
    Scheduler.Onward fresh s (settle s granted).2 := by
  cases granted with
  | ok s' => exact h s' rfl
  | error e => exact .refl s

/-- What a tame script does to a scheduler. -/
theorem Tame.run {x : Script M B α} (hx : x.Tame fresh) (s : Scheduler M B) :
    s.Onward fresh (x.run s).2 := by
  induction x generalizing s with
  | done a => exact .refl s
  | send m t k ih =>
    refine .trans (onward_settle fun s' hs' => ?_) (ih _ (hx _) _)
    obtain ⟨-, rfl⟩ := send_ok hs'
    exact .of_eq rfl prefix_rfl
  | sendAfter d m t k ih =>
    refine .trans (onward_settle fun s' hs' => ?_) (ih _ (hx _) _)
    obtain ⟨-, rfl⟩ := sendAfter_ok hs'
    exact .of_eq rfl prefix_rfl
  | create | takeWakeup => exact hx.elim
  | createReserved id b n k ih =>
    refine .trans (onward_settle fun s' hs' => ?_) (ih _ (hx.2 _) _)
    obtain ⟨hfree, rfl⟩ := createReserved_ok hs'
    refine .register s n ?_ hx.1
    exact Option.eq_none_iff_forall_ne_some.2 fun e he => hfree e (mem_of_find? he)
  | reserve k ih =>
    have hreserve : s.Onward fresh s.reserve.2 := .of_eq rfl prefix_rfl
    exact hreserve.trans (ih _ (hx _) _)
  | issued k ih | countWakeups k ih => exact ih _ (hx _) s
  | wake id k ih =>
    have hwake : s.Onward fresh (s.wake id) := by
      refine .of_eq rfl ?_
      rw [Scheduler.wake, Fifo.toList_push]
      exact prefix_append ..
    exact hwake.trans (ih hx _)

lemma tame_reserveAll (n : Nat) : (reserveAll n : Script M B Unit).Tame fresh := by
  induction n with
  | zero => trivial
  | succ n ih => exact fun _ => ih

lemma tame_wakeAll (ids : List ActorId) : (wakeAll ids : Script M B Unit).Tame fresh := by
  induction ids with
  | nil => trivial
  | cons id ids ih => exact ih

lemma tame_register (logger : Option ActorId) (staged : List StagedActor) :
    (register logger staged).Tame Performer.Fresh := by
  induction staged with
  | nil => trivial
  | cons a staged ih => exact ⟨⟨rfl, rfl⟩, fun _ => ih⟩

lemma tame_sendAll (sends : List PendingSend) : (sendAll sends : Script Value B Unit).Tame
    fresh := by
  induction sends with
  | nil => trivial
  | cons x sends ih =>
    obtain ⟨message, target, delay⟩ := x
    cases delay with
    | none | some => exact fun _ => ih

end Script

/-! ### Responses -/

open Script

lemma World.tame_passWakeups (w : World) : w.passWakeups.Tame Performer.Fresh :=
  (tame_wakeAll _).bind fun _ => trivial

lemma Delivery.tame_advance (d : Delivery) (w : World) : (d.advance w).Tame Performer.Fresh := by
  obtain ⟨store, output, traces, fuel, exhausted⟩ := w
  intro issued
  dsimp only
  split
  · trivial
  · refine (tame_reserveAll _).bind fun _ => (World.tame_passWakeups _).bind fun _ => ?_
    trivial

namespace Actor

lemma tame_settle (a : Actor) (self : ActorId) (d : Delivery) (outcome : Outcome) (w : World) :
    (a.settle self d outcome w).Tame Performer.Fresh := by
  have hreport : ∀ (a : Actor) (message result : Value), (a.report self message result).Tame
      Performer.Fresh := by
    intro a message result
    unfold report
    cases a.logger with
    | none => trivial
    | some logger => exact fun _ => trivial
  have hrest : ∀ x : Value × Actor × World, (do
      x.2.1.report self d.message x.1
      let w ← (closeTask d x.2.2).passWakeups
      return (x.2.1, w) : Response (Actor × World)).Tame Performer.Fresh := fun x =>
    (hreport ..).bind fun _ => (World.tame_passWakeups _).bind fun _ => trivial
  unfold settle
  dsimp only
  split
  · exact Tame.bind (x := a.revert d w) trivial hrest
  · refine Tame.bind (x := a.commit d outcome w) ?_ hrest
    refine Tame.bind ?_ fun _ => trivial
    exact (tame_register ..).bind fun _ => tame_sendAll _

lemma tame_serve (moment : Moment) (messages : List Value) (a : Actor) (w : World) :
    (serve moment messages a w).Tame Performer.Fresh := by
  induction messages generalizing a w with
  | nil => trivial
  | cons message messages ih =>
    refine Tame.bind (x := (a.start moment message w).1.advance (a.start moment message w).2)
      (Delivery.tame_advance _ _) fun r => ?_
    obtain ⟨d, w⟩ := r
    dsimp only
    cases d.task.answer? with
    | none => trivial
    | some outcome => exact (tame_settle ..).bind fun r => ih r.1 r.2

lemma tame_drain (a : Actor) (moment : Moment) (w : World) : (a.drain moment w).Tame
    Performer.Fresh := by
  unfold drain
  cases a.current with
  | none => exact tame_serve ..
  | some d =>
    refine (Delivery.tame_advance _ _).bind fun r => ?_
    obtain ⟨d, w⟩ := r
    dsimp only
    cases d.task.answer? with
    | none => trivial
    | some outcome => exact (tame_settle ..).bind fun r => tame_serve ..

end Actor

lemma Performer.tame_respond (p : Performer) (moment : Moment) (message : Option Value)
    (w : World) : (p.respond moment message w).Tame Performer.Fresh := by
  by_cases hp : ∃ a, p = .program a
  · obtain ⟨a, rfl⟩ := hp
    cases message <;> exact (Actor.tame_drain ..).bind fun _ => trivial
  · rw [not_exists] at hp
    obtain ⟨l, p', w', hserves, _⟩ := p.exists_serves hp moment message w
    rw [hserves.eq]
    exact (tame_sendAll l).bind fun _ => trivial

end Troupe
