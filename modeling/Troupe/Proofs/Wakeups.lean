import Troupe.Proofs.TameResponses
import Troupe.Proofs.WaitingDeliveries

/-!
No wake-up is lost.

Between two dispatches, an actor whose delivery waits for a slot that is bound by now is on the
queue of wake-ups, whoever bound the slot. Responses add wake-ups behind the others, and a dispatch
takes the first one: whoever is on the queue is resumed.

* `Session.queued_of_bound`
-/

namespace Troupe

namespace Configuration

/-- The first wake-up is taken, and the others stay in front. -/
lemma wakeups_dispatch {c : Ensemble} {id : ActorId} {rest : Fifo ActorId}
    (first : c.wakeups.pop? = some (id, rest)) : rest.toList <+: c.dispatch.2.wakeups.toList := by
  obtain ⟨s, w⟩ := c
  have hdispatch : (dispatch ⟨s, w⟩).2 = invoke ⟨{ s with wakeups := rest }, w⟩ id none := by
    unfold dispatch
    rw [show s.wakeups.pop? = some (id, rest) from first]
    rfl
  rw [hdispatch]
  cases hfound : ({ s with wakeups := rest } : Stage).find? id with
  | none =>
    rewrite [invoke_of_none none hfound]
    exact List.prefix_rfl
  | some e =>
    rw [invoke_of_some none hfound]
    exact ((e.behavior.tame_respond _ none w).run { s with wakeups := rest }).wakeups

/-- Whoever is on the queue of wake-ups is the first after as many dispatches as there are others in
front. -/
lemma first_of_queued {before after : List ActorId} {id : ActorId} :
    ∀ {c : Ensemble}, before ++ id :: after <+: c.wakeups.toList →
      ∃ rest, ((fun c => c.dispatch.2)^[before.length] c).wakeups.pop? = some (id, rest) := by
  have hpop : ∀ {q : Fifo ActorId} {x : ActorId} {ids : List ActorId}, x :: ids <+: q.toList →
      ∃ rest, q.pop? = some (x, rest) ∧ ids <+: rest.toList := by
    intro q x ids h
    cases hq : q.pop? with
    | none =>
      rw [Fifo.pop?_eq_none_iff.1 hq] at h
      exact absurd (List.prefix_nil.1 h) (List.cons_ne_nil _ _)
    | some r =>
      obtain ⟨y, rest⟩ := r
      rw [Fifo.toList_eq_cons_of_pop? hq, List.cons_prefix_cons] at h
      obtain ⟨rfl, h⟩ := h
      exact ⟨rest, rfl, h⟩
  induction before with
  | nil =>
    intro c h
    obtain ⟨rest, hrest, _⟩ := hpop h
    exact ⟨rest, hrest⟩
  | cons x before ih =>
    intro c h
    obtain ⟨rest, hrest, hids⟩ := hpop h
    exact ih (c := c.dispatch.2) (hids.trans (wakeups_dispatch hrest))

end Configuration

/-- Whether an evaluation itself waits for a slot. -/
instance Evaluation.decidableMemParks (slot : Nat) : {g : Goal} → (e : Evaluation g) →
    Decidable (slot ∈ e.parks)
  | _, .parked i => inferInstanceAs (Decidable (slot = i))
  | _, .one part _ => decidableMemParks slot part
  | _, .both left right _ =>
    have := decidableMemParks slot left
    have := decidableMemParks slot right
    inferInstanceAs (Decidable (slot ∈ left.parks ∨ slot ∈ right.parks))
  | _, .race left right =>
    have := decidableMemParks slot left
    have := decidableMemParks slot right
    inferInstanceAs (Decidable (slot ∈ left.parks ∨ slot ∈ right.parks))
  | _, .done _ => .isFalse id
  | _, .start _ => .isFalse id
  | _, .awaiting _ => .isFalse id

namespace Session

/-- No wake-up is lost: in every session between two dispatches, if a part of a delivery that waits
is parked on a slot that is bound, its actor is on the queue of wake-ups; dispatches take the
wake-ups in order, so one of them resumes the actor. -/
theorem queued_of_bound {tidy : Prop} {x : Session} {id : ActorId} {d : Delivery} {slot : Nat}
    (reached : x.Reached tidy) (waiting : x.config.Waiting id d)
    (parked : d.ParkedOn x.config.world.store slot)
    (bound : (x.config.world.store.heap.slot? slot).isSome = true) :
    id ∈ x.config.wakeups.toList ∧
      ∃ n rest, ((fun c => c.dispatch.2)^[n] x.config).wakeups.pop? = some (id, rest) := by
  have hqueued := (reached.watched.waits id d waiting).bound slot parked bound
  obtain ⟨before, after, hsplit⟩ := List.append_of_mem hqueued
  have hfront : before ++ id :: after <+: x.config.wakeups.toList := ⟨[], by simp [hsplit]⟩
  obtain ⟨rest, hfirst⟩ := Configuration.first_of_queued hfront
  exact ⟨hqueued, before.length, rest, hfirst⟩

/-- A session whose top-level actor is handed a block that waits for its variable. -/
def handed : Session :=
  let x := ofSettings {} 40
  x.host { x.config.toScheduler with queue := x.config.queue.push ⟨x.top, .block 0⟩ }
    (x.config.world.store.heap.newBlock
      ⟨[], .expr (.block ["x"] (.send (.ident "x") (.ident "println"))), x.global⟩).2

/-- The actor has run the block, and the host has bound the variable then. -/
def fulfilled : Session :=
  (Session.bind { handed with config := handed.config.dispatch.2 } "x" .nil
    (.block 1 .empty .empty)).2

theorem fulfilled_queued : ∃ d, fulfilled.config.Waiting ⟨6⟩ d ∧
    d.ParkedOn fulfilled.config.world.store 0 ∧ ⟨6⟩ ∈ fulfilled.config.wakeups.toList := by
  have hhanded : handed.Reached False :=
    .host (.ofSettings {} 40) (.block _ False.elim) rfl le_rfl fun _ h => h
  have hreached : fulfilled.Reached False := .bind (.dispatch hhanded (by decide +kernel)) ..
  have hwaits : ((fulfilled.config.find? ⟨6⟩).any fun e => e.behavior.program?.any fun a =>
      a.current.any fun d => decide (0 ∈ d.task.main.parks)) = true := by decide +kernel
  obtain ⟨⟨name, p⟩, hfound, hp⟩ := (Option.any_eq_true _ _).1 hwaits
  cases p with
  | program a =>
    rw [Performer.program?, Option.any_some] at hp
    obtain ⟨d, hd, hparks⟩ := (Option.any_eq_true _ _).1 hp
    have hwaiting : fulfilled.config.Waiting ⟨6⟩ d := ⟨name, a, Scheduler.mem_of_find? hfound, hd⟩
    have hparked : d.ParkedOn fulfilled.config.world.store 0 := .inl (of_decide_eq_true hparks)
    exact ⟨d, hwaiting, hparked, (queued_of_bound hreached hwaiting hparked (by decide +kernel)).1⟩
  | _ => cases hp

end Session

end Troupe
