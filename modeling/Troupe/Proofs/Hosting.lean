import Troupe.Proofs.Acts
import Troupe.Proofs.PartOwnership

/-!
What a host may hand over to a session.

A host holds parts: those that it has made, those that a session has shown to it or has answered,
and the addresses of registered actors. Whatever it hands over mentions parts that it holds only,
and code that declares what it binds (`Session.Hosted`). Then everything in the session keeps to its
side of the borders, whatever the host does and however often it dispatches.

* `Session.Hosted.bordered`: the borders hold in every such session.
* `Session.Runs.borders`: they hold at every point of a run.
-/

namespace Troupe

open Array Effects Heap List Nat Option Scheduler Set

variable {W known : Set Part} {e : Expr} {message : Option Value} {x : Session}
  {s : Stage} {a : Actor}

/-! ### What a host may do to the heap -/

/-- What a host may do to a heap: it makes frames and code, declares and defines names, and waits
for slots. New code declares what it binds, and what is written mentions parts in `S`. -/
inductive Heap.Writes (S : Set Part) (h : Heap) : Heap → Prop where
  | none : Writes S h h
  | layer (base : Env) : Writes S h (h.newLayer base).2
  | scope (captured caller : Env) (vars : List String) :
      Writes S h (h.newScope captured caller vars).2
  | actor (id : ActorId) (next : Env) : Writes S h (h.newActor id next).2
  | global (next : Env) : Writes S h (h.newGlobal next).2
  | closure (c : Closure) (code : c.param.Tidy ∧ c.body.Tidy) (parts : c.parts ⊆ S) :
      Writes S h (h.newClosure c).2
  | block (b : Block) (code : b.Tidy) (parts : b.parts ⊆ S) : Writes S h (h.newBlock b).2
  | native (f : Native) (parts : f.parts ⊆ S) : Writes S h (h.newNative f).2
  | declare (name : String) (env : Env) (parts : env.parts ⊆ S) : Writes S h (h.declare name env).2
  | define (name : String) (v : Value) (env : Env) (parts : env.parts ⊆ S) (value : v.parts ⊆ S) :
      Writes S h (h.define name v env).2
  | park (slot : Nat) (name : String) : Writes S h (h.park slot (.host name))

namespace Heap

variable {S : Set Part} {h h' : Heap}

lemma evolves_addVariable (h : Heap) (name : String) {i : Nat} (hi : .scope i ∈ S) :
    Evolves Sᶜ (h.fresh (h.addVariable i name)) h (h.addVariable i name) := by
  have hscopes : Alters (entries fun i => {Part.slot i}) (.scope · ∈ Sᶜ)
    (h.fresh (h.addVariable i name))
      h.scopes (h.scopes.modify i (· ++ [(name, h.slots.size)])) := by
    refine .modify (fun hn => hn hi) fun b => ?_
    rintro p ⟨x, hx, rfl⟩
    rcases List.mem_append.1 hx with hx | hx
    · exact .inl ⟨x, hx, rfl⟩
    · cases List.mem_singleton.1 hx
      exact .inr ⟨lt_of_lt_of_eq (lt_succ_self _) (size_push _).symm, lt_irrefl _⟩
  exact Changes.evolves { Changes.refl Sᶜ _ h with scopes := hscopes, slots := .push (by simp) }

namespace Writes

lemma edit (w : Writes S h h') : h.Edit True h' := by
  cases w with
  | none => exact .none
  | layer base => exact .layer base
  | scope captured caller vars => exact .scope captured caller vars
  | actor id next => exact .actor id next
  | global next => exact .global next
  | closure c code _ => exact .closure c fun _ => code
  | block b code _ => exact .block b fun _ => code
  | native f _ => exact .native f
  | declare name env _ => exact .declare name env
  | define name v env _ _ => exact .define name v env
  | park slot name => exact .park slot name

/-- What is written mentions parts in `S` and new ones, and is written into parts in `S`. -/
theorem evolves (w : Writes S h h') : Evolves Sᶜ (S ∪ h.fresh h') h h' := by
  cases w with
  | none => exact .refl ..
  | layer base => exact (h.changes_newLayer base).evolves
  | scope captured caller vars =>
    exact (h.changes_newScope captured caller vars).evolves.mono subset_rfl subset_union_right
  | actor id next => exact (h.changes_newActor id next).evolves
  | global next => exact (h.changes_newGlobal next).evolves
  | closure c _ parts => exact (h.changes_newClosure (parts.trans subset_union_left)).evolves
  | block b _ parts => exact (h.changes_newBlock (parts.trans subset_union_left)).evolves
  | native f parts => exact (h.changes_newNative (parts.trans subset_union_left)).evolves
  | declare name env parts =>
    rcases h.declare_cases name env with heq | ⟨i, hi, heq⟩
    · rw [heq]
      exact .refl ..
    · rw [heq]
      exact (h.evolves_addVariable name (parts hi)).mono subset_rfl subset_union_right
  | define name v env parts value =>
    exact h.evolves_define name parts (value.trans subset_union_left)
  | park slot name => exact evolves_park _ _ h slot (.host name)

/-- Only blocks in `S` get more variables. -/
lemma scopes (w : Writes S h h') {i : Nat} (hi : h.Has (.scope i)) (hS : .scope i ∉ S) :
    h'.scope i = h.scope i := by
  cases w with
  | scope captured caller vars => exact (h.changes_newScope captured caller vars).scope_eq hi
  | declare name env parts =>
    rcases h.declare_cases name env with heq | ⟨j, hj, heq⟩
    · rw [heq]
    · rw [heq]
      exact (h.scope_addVariable j name i).resolve_right fun ⟨hi, _⟩ => hS (hi ▸ parts hj)
  | define name v env parts value =>
    rw [define_frame]
    rfl
  | _ => rfl

end Writes

end Heap

/-! ### What a host may do to a session -/

/-- The parts that an actor mentions, with the messages that it has not taken yet. -/
def Actor.parts (a : Actor) (backlog : List Value) : Set Part :=
  a.behavior.parts ∪ a.env.parts ∪ {p | ∃ m ∈ backlog, p ∈ m.parts}

lemma Actor.Within.parts {logger : ActorId} {backlog : List Value} (h : a.Within W logger backlog) :
    a.parts backlog ⊆ W := by
  refine union_subset (union_subset h.behavior h.env) ?_
  rintro p ⟨m, hm, hp⟩
  exact h.backlog m hm hp

namespace Session

/-- The parts that a session shows: in its global environment, its actors, its messages and the
traces that the logger has kept. -/
def shown (x : Session) : Set Part :=
  x.global.parts ∪ {p | ∃ id name a, (id, ⟨name, .program a⟩) ∈ x.config.registry ∧
    p ∈ a.parts a.backlog} ∪
    {p | ∃ e, x.config.Carries e ∧ p ∈ e.message.parts} ∪
    {p | ∃ v ∈ x.config.world.traces, p ∈ v.parts}

/-- The parts that a host can hand over: those that it knows and the addresses of registered
actors. -/
def holds (x : Session) (known : Set Part) : Set Part :=
  known ∪ {p | ∃ id, p = .actor id ∧ x.config.contains id = true}

/-- The sessions that a host reaches from a new one, with the parts that it knows by then, as long
as no task runs out of fuel. Blocks declare what they bind, and the addresses that the host hands
over, or writes into code, are registered at that moment. -/
inductive Hosted : Session → Set Part → Prop where
  | ofSettings (settings : Settings) (fuel : Nat) : Hosted (ofSettings settings fuel) ∅
  /-- The host looks at what it is shown, and takes along what has no address in it of an actor that
  is not registered. -/
  | look {x : Session} {known : Set Part} (before : Hosted x known) {S : Set Part}
      (seen : S ⊆ x.shown)
      (registered : ∀ id, .actor id ∈ x.config.world.store.heap.reach S →
        x.config.contains id = true) :
      Hosted x (known ∪ x.config.world.store.heap.reach S)
  /-- The host does something to the scheduler, short of registering actors, and to the heap: sends,
  definitions, the passing of time. -/
  | host {x : Session} {known : Set Part} (before : Hosted x known) {s : Stage}
      {heap : Heap} (writes : x.config.world.store.heap.Writes (x.holds known) heap)
      (registry : s.registry = x.config.registry) (ids : x.config.ids.issued ≤ s.ids.issued)
      (mail : ∀ e, s.Carries e → x.config.Carries e ∨
        x.config.contains e.target = true ∧ e.message.parts ⊆ x.holds known) :
      Hosted (x.host s heap) (known ∪ x.config.world.store.heap.fresh heap)
  | bind {x : Session} {known : Set Part} (before : Hosted x known) (name : String)
      (v : Value) (env : Env)
      (parts : v.parts ∪ env.parts ⊆ x.holds known) : Hosted (x.bind name v env).2 known
  /-- Actors report to the logger of the session, or to no one. -/
  | enroll {x : Session} {known : Set Part} (before : Hosted x known) (behavior : Value)
      (logger : Option ActorId) (name : String) (parts : behavior.parts ⊆ x.holds known)
      (reports : ∀ id, logger = some id → id = x.logger) :
      Hosted (x.enroll behavior logger name).2 known
  | evaluate {x : Session} {known : Set Part} (before : Hosted x known) (e : Expr) (code : e.Tidy)
      (parts : e.parts ⊆ x.holds known) (alive : (x.evaluate e).2.config.world.exhausted = false) :
      Hosted (x.evaluate e).2 (known ∪ {p | ∃ v, (x.evaluate e).1 = .ok v ∧ p ∈ v.parts})
  | dispatch {x : Session} {known : Set Part} (before : Hosted x known)
      (alive : x.config.dispatch.2.world.exhausted = false) :
      Hosted { x with config := x.config.dispatch.2 } known

lemma Hosted.reachable (h : x.Hosted known) : x.Reachable := by
  induction h with
  | ofSettings settings fuel => exact .start (.ofSettings settings fuel)
  | look _ _ _ ih => exact ih
  | host _ _ registry ids _ ih => exact .host ih _ registry ids
  | bind _ name v env _ ih => exact .bind ih name v env
  | enroll _ behavior logger name _ _ ih => exact .register (p := .program _) ih ⟨rfl, rfl⟩ name
  | evaluate _ e _ _ alive ih => exact .evaluate ih e alive
  | dispatch _ alive ih => exact .dispatch ih alive

/-- Everything in the session keeps to its side of the borders, and what the host knows is part of
the world. -/
def Bordered (x : Session) (known : Set Part) : Prop :=
  ∃ W G P, Borders x.logger x.config.Waiting x.config.toScheduler x.config.world W G P ∧
    x.global.parts ⊆ W ∧ known ⊆ W

namespace Bordered

variable {G : Set Part} {P : ActorId → Set Part}

lemma of_borders (W G : Set Part)
    (hb : ∃ P, Borders x.logger x.config.Waiting x.config.toScheduler x.config.world W G P)
    (hglobal : x.global.parts ⊆ W) (hknown : known ⊆ W) : x.Bordered known := by
  obtain ⟨P, hb⟩ := hb
  exact ⟨W, G, P, hb, hglobal, hknown⟩

/-- What a host can hand over is part of the world. -/
lemma holds_subset (h : Borders x.logger x.config.Waiting x.config.toScheduler x.config.world W G P)
    (hknown : known ⊆ W) : x.holds known ⊆ W := by
  rintro p (hp | ⟨id, rfl, hid⟩)
  · exact hknown hp
  · exact (h.registered id).2 hid

/-- What a session shows is part of the world, or of the grave. -/
lemma shown_subset (h : Borders x.logger x.config.Waiting x.config.toScheduler x.config.world W G P)
    (hglobal : x.global.parts ⊆ W) : x.shown ⊆ W ∪ G := by
  rintro p (((hp | ⟨id, name, a, ha, hp⟩) | ⟨e, he, hp⟩) | ⟨v, hv, hp⟩)
  · exact .inl (hglobal hp)
  · exact .inl ((h.programs id name a ha).parts hp)
  · rcases (h.mail e he).2 with hm | ⟨_, hm⟩
    · exact .inl (hm hp)
    · exact hm hp
  · exact h.traces v hv hp

lemma look (h : x.Bordered known) {S : Set Part} (seen : S ⊆ x.shown)
    (registered : ∀ id, .actor id ∈ x.config.world.store.heap.reach S →
      x.config.contains id = true) : x.Bordered (known ∪ x.config.world.store.heap.reach S) := by
  obtain ⟨W, G, P, hb, hglobal, hknown⟩ := h
  set heap := x.config.world.store.heap
  have hS : S ⊆ W ∪ G := seen.trans (shown_subset hb hglobal)
  have hreach : heap.reach S ⊆ W ∪ G := hb.grave.reach_subset hS
  have hunion : W ∪ heap.reach S ∪ G = W ∪ G := by
    rw [union_right_comm, union_eq_self_of_subset_right hreach]
  refine of_borders (W ∪ heap.reach S) G ?_ (hglobal.trans subset_union_left)
    (union_subset_union_left _ hknown)
  exact hb.change (W ∪ heap.reach S) G (fun _ _ hd => hd) (fun _ _ _ => .refl _) (.refl _) hb.code
    (fun R _ hR hW => hR.union (hb.world.union (hb.grave.reach hS)))
    (hunion ▸ hb.grave) subset_union_left hunion.ge (fun p hp => .inl (hunion.le hp))
    (fun _ _ _ => rfl)
    (fun id => ⟨fun hid => hid.elim (hb.registered id).1 (registered id), fun hid =>
      .inl ((hb.registered id).2 hid)⟩)
    (fun e he => .inl he) (fun id name a ha => .inl ⟨name, ha⟩) hb.reports fun v hv => .inl hv

lemma host (h : x.Bordered known) {s : Stage} {heap : Heap}
    (writes : x.config.world.store.heap.Writes (x.holds known) heap)
    (registry : s.registry = x.config.registry) (mail : ∀ e, s.Carries e → x.config.Carries e ∨
      x.config.contains e.target = true ∧ e.message.parts ⊆ x.holds known) :
    (x.host s heap).Bordered (known ∪ x.config.world.store.heap.fresh heap) := by
  obtain ⟨W, G, P, hb, hglobal, hknown⟩ := h
  set F := x.config.world.store.heap.fresh heap with hF
  have hholds := holds_subset hb hknown
  have hregistry : (x.host s heap).config.registry = x.config.registry := registry
  have hcontains := contains_congr hregistry
  -- what is closed and holds the world grows by what is new
  have hgrow : ∀ {R : Set Part}, x.config.world.store.heap.Closed R → W ⊆ R →
      heap.Closed (R ∪ F) := by
    intro R hR hW
    refine hR.grow writes.evolves (union_subset_union_left _ (hholds.trans hW)) fun p hp => .inl hp
  refine of_borders (W ∪ F) G ?_ (hglobal.trans subset_union_left)
    (union_subset_union_left _ hknown)
  obtain ⟨name, hreports⟩ := hb.reports
  refine hb.change (W ∪ F) G ?_ (fun _ _ _ => .of_eq rfl rfl) writes.edit.anchors ?_
    (fun R _ hR hW => ?_)
    ?_ subset_union_left (union_subset_union_left _ subset_union_left) ?_
    (fun i hi hn => writes.scopes hi fun hS => hn (hholds hS)) (fun id => ?_)
    (fun e he => ?_) (fun id name a ha => .inl ⟨name, registry ▸ ha⟩) ⟨name, ?_⟩ fun v hv => .inl hv
  · rintro id d ⟨name, a, ha, hd⟩
    exact ⟨name, a, registry ▸ ha, hd⟩
  · exact writes.edit.code trivial hb.code
  · rw [← union_assoc, union_eq_self_of_subset_right hW]
    exact hgrow hR hW
  · rw [union_right_comm]
    exact hgrow hb.grave subset_union_left
  · rintro p ((hp | hp) | hp)
    · exact .inl (.inl hp)
    · exact .inr (.inr (.inl hp.2))
    · exact .inl (.inr hp)
  · rw [hcontains]
    refine ⟨fun hid => (hb.registered id).1 (hid.resolve_right fun hid =>
        hid.2 trivial), fun hid => ?_⟩
    exact .inl ((hb.registered id).2 hid)
  · refine (mail e he).imp_right fun ⟨htarget, hparts⟩ => ⟨(hcontains _).trans htarget, .inl ?_⟩
    exact (hparts.trans hholds).trans subset_union_left
  · exact (find?_congr hregistry).trans hreports

lemma bind (h : x.Bordered known) (name : String) {v : Value} {env : Env}
    (parts : v.parts ∪ env.parts ⊆ x.holds known) : (x.bind name v env).2.Bordered known := by
  obtain ⟨W, G, P, hb, hglobal, hknown⟩ := h
  have hparts := parts.trans (holds_subset hb hknown)
  have hothers := (x.binds name v env).others
  rw [bind_eq] at hothers ⊢
  set store := x.config.world.store
  have hheap : (store.bind name v env).2.heap = (store.heap.bind name v env).2.2 :=
    Store.heap_wakeAll ..
  have hevolves : store.heap.Evolves Wᶜ W (store.bind name v env).2.heap := by
    rw [hheap]
    exact hb.world.evolves_bind (subset_union_right.trans hparts) name
      (subset_union_left.trans hparts)
  refine of_borders W G ?_ hglobal hknown
  refine hb.change W G (fun _ _ hd => hd) (fun _ d _ => hothers d.task.context)
    (hheap ▸ store.heap.anchors_bind name v env) ?_ (fun R _ hR hW => ?_)
    (hb.grave.stay hevolves subset_union_left) subset_rfl subset_rfl (fun p hp => .inl hp)
    (fun i _ _ => ?_)
    hb.registered (fun e he => .inl he) (fun id name a ha => .inl ⟨name, ha⟩) hb.reports
    fun v hv => .inl hv
  · obtain ⟨hclosures, hblocks⟩ := store.heap.code_bind name v env
    rw [← hheap] at hclosures hblocks
    exact hb.code.of_eq hclosures hblocks
  · rw [union_eq_self_of_subset_right hW]
    exact hR.stay hevolves hW
  · rw [scope, hheap, (store.heap.bind_shape name v env).2]
    rfl

lemma enroll (h : x.Bordered known) (regular : x.Regular) {behavior : Value}
    {logger : Option ActorId} (name : String) (parts : behavior.parts ⊆ x.holds known)
    (reports : ∀ id, logger = some id → id = x.logger) :
    (x.enroll behavior logger name).2.Bordered known := by
  obtain ⟨W, G, P, hb, hglobal, hknown⟩ := h
  obtain ⟨own, hregular⟩ := regular
  have hparts := parts.trans (holds_subset hb hknown)
  set new : ActorId := ⟨x.config.ids.issued + 1⟩ with hnew
  set a0 : Actor := { behavior, env := x.global, logger } with ha0
  have hfind : ∀ id, (x.enroll behavior logger name).2.config.find? id =
      if id = new then some ⟨name, .program a0⟩ else x.config.find? id := fun id =>
    lookup_enter new id _ x.config.registry
  have hcontains : ∀ id, (x.enroll behavior logger name).2.config.contains id = true ↔
      x.config.contains id = true ∨ id = new := by
    intro id
    rw [Scheduler.contains, Scheduler.contains, hfind]
    by_cases hid : id = new <;> simp [hid]
  have hmem : ∀ y ∈ (x.enroll behavior logger name).2.config.registry,
      y ∈ x.config.registry ∨ y = (new, ⟨name, .program a0⟩) := fun y => mem_enter
  have hsub : W ⊆ insert (.actor new) W := subset_insert ..
  have hclosed : ∀ {R : Set Part}, x.config.world.store.heap.Closed R → W ⊆ R →
      x.config.world.store.heap.Closed (R ∪ insert (.actor new) W) := by
    intro R hR hW
    rw [union_insert, union_eq_self_of_subset_right hW, ← union_singleton]
    exact hR.actors fun p hp => ⟨new, hp⟩
  obtain ⟨name', hreports⟩ := hb.reports
  refine of_borders (insert (.actor new) W) G ?_ (hglobal.trans hsub) (hknown.trans hsub)
  refine hb.change (insert (.actor new) W) G ?_ (fun _ _ _ => .refl _) (.refl _) hb.code
    (fun R _ hR hW => hclosed hR hW) ?_ hsub (union_subset_union_left _ hsub) ?_ (fun _ _ _ => rfl)
    (fun id => ?_) (fun e he => ?_) (fun id name1 a ha => ?_) ⟨name', ?_⟩ fun v hv => .inl hv
  · rintro id d ⟨name1, a, ha, hd⟩
    rcases hmem _ ha with ha | ha
    · exact ⟨name1, a, ha, hd⟩
    · obtain ⟨-, -, rfl⟩ : id = new ∧ name1 = name ∧ a = a0 := by simpa using ha
      cases hd
  · rw [insert_union, ← union_singleton]
    exact hb.grave.actors fun p hp => ⟨new, hp⟩
  · rintro p ((rfl | hp) | hp)
    · exact .inr (.inr (.inr ⟨new, rfl⟩))
    · exact .inl (.inl hp)
    · exact .inl (.inr hp)
  · rw [hcontains, ← hb.registered, mem_insert_iff, Part.actor.injEq, or_comm]
  · exact .inl he
  · rcases hmem _ ha with ha | ha
    · exact .inl ⟨name1, ha⟩
    · obtain ⟨-, -, rfl⟩ : id = new ∧ name1 = name ∧ a = a0 := by simpa using ha
      exact .inr ⟨hparts.trans hsub, hglobal.trans hsub, fun m hm => absurd hm not_mem_nil, reports⟩
  · have hne : x.logger ≠ new := by
      intro heq
      have hle := (hregular.registered _ _ (mem_of_find? hreports)).1
      rw [heq] at hle
      exact absurd hle (not_succ_le_self _)
    exact (hfind x.logger).trans ((if_neg hne).trans hreports)

/-- The task that evaluates an expression leaves everything alone that is known to anyone. -/
lemma fenced_evaluation (h : Borders x.logger x.config.Waiting x.config.toScheduler
    x.config.world W G P) (hglobal : x.global.parts ⊆ W) (code : e.Tidy) (parts : e.parts ⊆ W) :
    (x.evaluation e).1.Fenced (W ∪ G ∪ {p | ∃ id, p ∈ P id}) W (x.config.contains · = true)
      (x.evaluation e).2 := by
  refine Task.fenced_spawn (s := { x.config.world.store with ids := x.config.ids }) h.code
    (fun p hp => ?_)
    h.world (fun id hid => (h.registered id).1 hid) _ _ _
    (by simp [Job.items, Item.parts, Item.scene?, parts, hglobal])
    (forall_mem_singleton.2 fun _ => code)
  rcases hp with hp | ⟨id, hp⟩
  · exact (h.grave p hp).1
  · -- it is known to anyone but its owner
    have hother : (⟨id.raw + 1⟩ : ActorId) ≠ id := fun heq =>
      absurd (congrArg ActorId.raw heq) (succ_ne_self _)
    exact h.room ⟨id.raw + 1⟩ p (.inr ⟨id, hother.symm, hp⟩)

/-- An evaluation from outside has taken place. What it has made is left to the world, or to the
grave. -/
lemma evaluated (h : Borders x.logger x.config.Waiting x.config.toScheduler x.config.world W G P)
    (regular : x.Regular) {task : Task .value} {after store : Store} {effects : Effects}
    (hev : x.Evaluates e task after effects store)
    (hf : task.Fenced (W ∪ G ∪ {p | ∃ id, p ∈ P id}) (W ∪ (x.evaluation e).2.fresh after)
      (x.config.contains · = true) after)
    (leaves : Evaluation.Leaves (W ∪ G ∪ {p | ∃ id, p ∈ P id}) W (x.evaluation e).2 after)
    {W' G' : Set Part} (grows : W ⊆ W') (shared : W' ∪ G' = W ∪ G ∪ (x.evaluation e).2.fresh after)
    (world : after.heap.Closed W') (asked : effects.parts ⊆ W') (addresses : ∀ id, .actor id ∈ W' →
      x.config.contains id = true ∨ ∃ a ∈ effects.created.toList, id = a.id) :
    ∃ P', Borders (x.evaluate e).2.logger (x.evaluate e).2.config.Waiting
      (x.evaluate e).2.config.toScheduler (x.evaluate e).2.config.world W' G' P' := by
  obtain ⟨own, hregular⟩ := regular
  obtain ⟨log, hpoll⟩ := Task.poll_of_advance hev.run
  have hkeep : ∀ {R : Set Part}, R ⊆ W ∪ G ∪ {p | ∃ id, p ∈ P id} →
      x.config.world.store.heap.Closed R →
      after.heap.Closed R := fun hsub hR => Closed.keep hR leaves.evolves hsub
  have hanchors : x.config.world.store.heap.Anchors after.heap :=
    (Store.Moves.retains hpoll.course.steps).toAnchors
  have hwaiting : ∀ id d, (x.evaluate e).2.config.Waiting id d → x.config.Waiting id d := by
    rintro id d ⟨name, a, ha, hd⟩
    rcases hev.registered ha with ha | ⟨hidle, _⟩
    · exact ⟨name, a, ha, hd⟩
    · rw [hidle a rfl] at hd
      cases hd
  have hother : ∀ id d, (x.evaluate e).2.config.Waiting id d →
      x.config.world.store.Elsewhere d.task.context store := by
    intro id d hd
    obtain ⟨htask, htx⟩ := (hregular.good id d (hwaiting id d hd)).inside
    exact hev.elsewhere htask htx
  have hcontains : ∀ id, (x.evaluate e).2.config.contains id = true ↔
      x.config.contains id = true ∨ ∃ a ∈ effects.created.toList, id = a.id := by
    intro id
    rw [hev.result]
    exact contains_flush id
  obtain ⟨name, hreports⟩ := h.reports
  rw [hev.result] at hwaiting hother hcontains ⊢
  refine h.change W' G' hwaiting hother (hev.heap ▸ hanchors) (hev.heap ▸ hf.code)
    (fun R hR hclosed _ => ?_) ?_ grows (subset_union_left.trans shared.ge) (fun p hp => ?_)
    (fun i hi _ => ?_) (fun id => ?_) (fun e' he => ?_) (fun id name a ha => ?_) ⟨name, ?_⟩
    fun v hv => .inl hv
  · exact hev.heap ▸ (hkeep hR hclosed).union world
  · have hunion : W' ∪ G' = W ∪ G ∪ (W ∪ (x.evaluation e).2.fresh after) := by
      rw [shared, ← union_assoc, union_eq_self_of_subset_right (subset_union_left : W ⊆ W ∪ G)]
    rw [hunion]
    exact hev.heap ▸ (hkeep subset_union_left h.grave).union hf.closed
  · rcases shared.le hp with hp | hp | ⟨id, rfl, _⟩
    · exact .inl hp
    · exact .inr (.inr (.inl hp.2))
    · exact .inr (.inr (.inr ⟨id, rfl⟩))
  · exact hev.heap ▸ leaves.scopes i hi
  · refine Iff.trans ⟨addresses id, ?_⟩ (hcontains id).symm
    rintro (hid | ⟨a, ha, rfl⟩)
    · exact grows ((h.registered id).2 hid)
    · exact asked (parts_created (mem_toList_iff.1 ha) (mem_insert ..))
  · refine (carries_flush he).imp_right ?_
    rintro ⟨y, hy, htarget, rfl⟩
    have hsend := (parts_send (mem_toList_iff.1 hy)).trans asked
    exact ⟨htarget, .inl ((Set.subset_insert ..).trans hsend)⟩
  · rcases mem_flush ha with ha | ⟨b, hb, heq⟩
    · exact .inl ⟨name, ha⟩
    · cases heq
      have hb' := (Set.subset_insert ..).trans ((parts_created (mem_toList_iff.1 hb)).trans asked)
      exact .inr ⟨subset_union_left.trans hb', subset_union_right.trans hb',
        fun m hm => absurd hm not_mem_nil, fun id hid => (some.inj hid).symm⟩
  · exact find?_flush hreports

lemma evaluate (h : x.Bordered known) (regular : x.Regular) (code : e.Tidy)
    (parts : e.parts ⊆ x.holds known) (alive : (x.evaluate e).2.config.world.exhausted = false) :
    (x.evaluate e).2.Bordered (known ∪ {p | ∃ v, (x.evaluate e).1 = .ok v ∧ p ∈ v.parts}) := by
  obtain ⟨W, G, P, hb, hglobal, hknown⟩ := h
  obtain ⟨task, after, effects, store, hev⟩ := x.evaluates e alive
  obtain ⟨hf, hleaves⟩ :=
    (fenced_evaluation hb hglobal code (parts.trans (holds_subset hb hknown))).run hev.run
  have hglobal' : (x.evaluate e).2.global = x.global := by rw [hev.result]
  rcases hev.answer with ⟨_, heffects, herror⟩ | ⟨v, hanswer, heffects, hok⟩
  · refine of_borders W (G ∪ (x.evaluation e).2.fresh after)
      (evaluated hb regular hev hf hleaves subset_rfl
      (union_assoc ..).symm ?_ ?_ fun id hid => .inl ((hb.registered id).1 hid))
      (hglobal' ▸ hglobal)
      (union_subset hknown ?_)
    · exact Closed.keep hb.world hleaves.evolves (subset_union_left.trans subset_union_left)
    · rw [heffects, parts_empty]
      exact empty_subset W
    · rintro p ⟨v, hv, _⟩
      rw [herror] at hv
      cases hv
  · have hsound := hf.sound (by simp)
    have htransaction := hf.transaction
    have hstaged := fun id (hid : Part.actor id ∈ _) => hf.staged hanswer hsound hid
    cases hgathered : after.transaction task.context.transaction with
    | failed y =>
      rw [hgathered] at hsound
      cases hsound
    | gathering e' =>
      rw [hgathered] at heffects htransaction hstaged
      rw [show effects = e' from heffects] at hev
      refine of_borders _ G (evaluated hb regular hev hf hleaves subset_union_left
        (union_right_comm ..) hf.closed htransaction fun id hid => (hstaged id hid).imp_right ?_)
        (hglobal' ▸ hglobal.trans subset_union_left)
        (union_subset (hknown.trans subset_union_left) ?_)
      · exact mem_staged
      · rintro p ⟨v', hv', hp⟩
        rw [hok] at hv'
        cases hv'
        exact hf.parts_answer hanswer (.value _) (mem_cons_self ..) hp

end Bordered

end Session

/-! ### A new session -/

namespace Heap

variable {R : Set Part} {h : Heap}

lemma Closed.define (hR : h.Closed R) (name : String) {v : Value} {env : Env} (henv : env.parts ⊆ R)
    (hv : v.parts ⊆ R) : (h.define name v env).2.Closed R :=
  hR.stay (h.evolves_define name henv hv) subset_rfl

lemma Closed.newNative (hR : h.Closed R) {f : Native} (hf : f.parts ⊆ R) :
    (h.newNative f).2.Closed (R ∪ {.native h.natives.size}) := by
  refine hR.grow ((h.changes_newNative (K := ∅) hf).evolves) subset_union_left fun p hp => .inl ?_
  exact mem_singleton_iff.1 hp ▸ h.fresh_newNative f

lemma Closed.definePrelude (hR : h.Closed R) {env : Env} (henv : env.parts ⊆ R) :
    ∃ R', R ⊆ R' ∧ (∀ id, .actor id ∈ R' → .actor id ∈ R) ∧ (h.definePrelude env).Closed R' := by
  have hparts : ∀ f ∈ builtins, f.parts = ∅ := by
    intro f hf
    rcases mem_append.1 hf with hf | hf
    · obtain ⟨o, _, rfl⟩ := mem_map.1 hf
      rfl
    · rw [mem_singleton.1 hf]
      rfl
  unfold Heap.definePrelude
  generalize builtins = l at hparts
  induction l generalizing h R with
  | nil => exact ⟨R, subset_rfl, fun _ hid => hid, hR⟩
  | cons f l ih =>
    have hnative := hR.newNative (hparts f (mem_cons_self ..) ▸ empty_subset R)
    have hvalue : (h.newNative f).1.parts ⊆ R ∪ {.native h.natives.size} := subset_union_right
    have hdefine := hnative.define f.name (henv.trans subset_union_left) hvalue
    obtain ⟨R', hsub, hids, hclosed⟩ := ih hdefine (henv.trans subset_union_left) fun f hf =>
      hparts f (mem_cons_of_mem _ hf)
    refine ⟨R', subset_union_left.trans hsub, fun id hid => ?_, hclosed⟩
    exact (hids id hid).resolve_right fun heq => by cases heq

end Heap

namespace Session.Bordered

/-- In a new session, everything is part of the world. -/
lemma ofSettings (settings : Settings) (fuel : Nat) : (ofSettings settings fuel).Bordered ∅ := by
  set x := Session.ofSettings settings fuel with hx
  set A : Set Part := {p | ∃ id, p = .actor id ∧ x.config.contains id = true} with hA
  have hactor : ∀ id, Part.actor id ∈ A ↔ x.config.contains id = true := by
    intro id
    refine ⟨?_, fun hid => ⟨id, rfl, hid⟩⟩
    rintro ⟨_, ⟨⟩, hid⟩
    exact hid
  -- the dictionary, then what is defined in it, then the behavior of the top-level actor
  have hglobal : (({} : Heap).newGlobal .empty).2.Closed ({.dict 0} ∪ A) := by
    refine Closed.actors (fun p hp => ?_) fun p ⟨id, hp, _⟩ => ⟨id, hp⟩
    rw [mem_singleton_iff.1 hp]
    exact ⟨zero_lt_one, fun q ⟨y, hy, _⟩ => absurd hy not_mem_nil⟩
  have henv : (Env.global 0 .empty).parts ⊆ {.dict 0} ∪ A := by
    rintro p (rfl | hp)
    · exact .inl rfl
    · exact hp.elim
  obtain ⟨R, hsub, hids, hprelude⟩ := hglobal.definePrelude henv
  have hservices : ∀ y ∈ [("versions", versions), ("println", .actor ⟨2⟩), ("sink", .actor ⟨3⟩),
      ("timer", .actor ⟨4⟩), ("random", .actor ⟨5⟩)], y.2.parts ⊆ R := by
    have hin : ∀ id, x.config.contains id = true → (Value.actor id).parts ⊆ R := fun id hid =>
      singleton_subset_iff.2 (hsub (.inr ((hactor id).2 hid)))
    simp only [forall_mem_cons]
    exact ⟨by simp [versions, Value.tuple, Value.parts], hin _ rfl, hin _ rfl, hin _ rfl, hin _ rfl,
      fun y hy => absurd hy not_mem_nil⟩
  have hdefined := hprelude.stay (evolves_defines (henv.trans hsub) hservices _) subset_rfl
  set W : Set Part := R ∪ {.native (x.config.world.store.heap.natives.size - 1)} with hW
  have hclosed : x.config.world.store.heap.Closed W :=
    hdefined.newNative (empty_subset R)
  have hfine : x.config.world.store.heap.Fine True :=
    (Reached.ofSettings settings fuel).watched.fine
  have hdict : x.global.parts ⊆ W := (henv.trans hsub).trans subset_union_left
  -- the only program is the top-level actor
  have hprograms : ∀ id name a, (id, (⟨name, .program a⟩ : Entry Performer)) ∈ x.config.registry →
      a.current = none ∧ a.Within W x.logger a.backlog := by
    intro id name a ha
    have hservice : ∀ {id' : ActorId} {e : Entry Performer}, (∀ b, e.behavior ≠ .program b) →
        (id, (⟨name, .program a⟩ : Entry Performer)) ≠ (id', e) := by
      rintro id' e hno heq
      cases heq
      exact hno a rfl
    have htop := mem_of_ne_of_mem (hservice (by simp)) (mem_of_ne_of_mem (hservice (by simp))
      (mem_of_ne_of_mem (hservice (by simp)) (mem_of_ne_of_mem (hservice (by simp))
        (mem_of_ne_of_mem (hservice (by simp)) ha))))
    cases mem_singleton.1 htop
    exact ⟨rfl, subset_union_right, hdict, fun m hm => absurd hm not_mem_nil,
      fun id hid => (some.inj hid).symm⟩
  refine ⟨W, ∅, fun _ => ∅, ⟨hfine.code trivial, hclosed, ?_, fun id => ?_, ?_, ?_, ⟨"logger", rfl⟩,
    fun v hv => absurd hv (not_mem_empty v), fun _ _ => rfl, ?_⟩, hdict, empty_subset _⟩
  · rwa [union_empty]
  · refine ⟨fun hid => ?_, fun hid => .inl (hsub (.inr ((hactor id).2 hid)))⟩
    have hR := hids id (hid.resolve_right fun heq => by cases heq)
    exact (hactor id).1 (hR.resolve_left fun heq => by cases heq)
  · rintro e (he | ⟨t, ht, _⟩)
    · exact absurd he not_mem_nil
    · exact absurd ht not_mem_nil
  · exact fun id name a ha => (hprograms id name a ha).2
  · rintro id d ⟨name, a, ha, hd⟩
    rw [(hprograms id name a ha).1] at hd
    cases hd

end Session.Bordered

/-! ### Dispatching -/

namespace Borders

variable {logger id : ActorId} {own : ActorId → Option Nat} {w : World} {G : Set Part}
  {P : ActorId → Set Part}

/-- A service responds. Reports of exceptions are kept by the logger. -/
lemma serve {p p' : Performer} {name : String} {moment : Moment} {w' : World} {l : List PendingSend}
    (h : Borders logger s.Waiting s w W G P) (found : s.find? id = some ⟨name, p⟩)
    (hp : ∀ a, p ≠ .program a) (serves : p.Serves moment message w l p' w')
    (parcel : ∀ m, message = some m → m.parts ⊆ W ∨ id = logger ∧ m.parts ⊆ W ∪ G) :
    ∃ P', Borders logger ((l.foldl post s).setBehavior id p').Waiting
      ((l.foldl post s).setBehavior id p') w' W G P' := by
  obtain ⟨hregistry, _⟩ := postAll_frame l s
  obtain ⟨name', hreports⟩ := h.reports
  have hlogger : id = logger → p = .logger := by
    rintro rfl
    rw [hreports] at found
    cases found
    rfl
  have hmail : ∀ y ∈ l, y.message.parts ⊆ W := by
    intro y hy
    obtain ⟨m, hm, hparts⟩ := serves.parts y hy
    refine ((subset_insert ..).trans hparts).trans ((parcel m hm).resolve_right fun hid => ?_)
    rw [(serves.logger (hlogger hid.1)).2] at hy
    exact absurd hy not_mem_nil
  obtain ⟨P1, hserved⟩ : ∃ P', Borders logger ((l.foldl post s).Beside id none)
      (l.foldl post s) w' W G P' := by
    refine h.reschedule ?_ serves.store (contains_congr hregistry) (fun e he => ?_)
      (fun id name a ha => .inl ⟨name, hregistry ▸ ha⟩) ⟨name', ?_⟩ fun v hv => ?_
    · rintro id' d (⟨_, hd⟩ | ⟨_, name, a, ha, hd⟩)
      · cases hd
      · exact ⟨name, a, hregistry ▸ ha, hd⟩
    · refine (carries_postAll he).imp_right ?_
      rintro ⟨y, hy, htarget, rfl⟩
      exact ⟨htarget, hmail y hy⟩
    · exact (find?_congr hregistry).trans hreports
    · refine (serves.traces v hv).imp_right fun htold => ?_
      exact (parcel v htold.2).elim (·.trans subset_union_left) (·.2)
  exact hserved.leave (fun a ha => absurd ha (serves.service a)) fun hid =>
    (serves.logger (hlogger hid)).1

lemma begin {name : String} (h : Borders logger s.Waiting s w W G P)
    (found : s.find? id = some ⟨name, .program a⟩)
    (parcel : ∀ m, message = some m → m.parts ⊆ W ∨ id = logger ∧ m.parts ⊆ W ∪ G) :
    id ≠ logger ∧ s.contains id = true ∧
      ({ a with backlog := a.backlog ++ message.toList } : Actor).Within W logger
        (a.backlog ++ message.toList) ∧
      ∃ P', Borders logger (s.Beside id a.current) s w W G P' := by
  have hlogger : id ≠ logger := by
    rintro rfl
    obtain ⟨_, hreports⟩ := h.reports
    rw [hreports] at found
    cases found
  have hwithin := h.programs id name a (mem_of_find? found)
  refine ⟨hlogger, by rw [Scheduler.contains, found]; rfl,
    ⟨hwithin.behavior, hwithin.env, fun m hm => ?_, hwithin.logger⟩,
    h.enter found rfl fun e he => he⟩
  rcases mem_append.1 hm with hm | hm
  · exact hwithin.backlog m hm
  · exact (parcel m (mem_toList.1 hm)).resolve_right fun hid => hlogger hid.1

lemma invoked {c : Ensemble} (h : Borders logger s.Waiting s w W G P)
    (regular : Regular own s.Waiting s w)
    (parcel : ∀ m, message = some m → m.parts ⊆ W ∨ id = logger ∧ m.parts ⊆ W ∪ G)
    (invoked : Configuration.Invoked s w id message c) :
    ∃ W' G' P', W ⊆ W' ∧ Borders logger c.Waiting c.toScheduler c.world W' G' P' := by
  cases invoked with
  | missing gone => exact ⟨W, G, P, subset_rfl, h⟩
  | service found other serves _ =>
    obtain ⟨P', hb⟩ := h.serve found other serves parcel
    exact ⟨W, G, P', subset_rfl, hb⟩
  | @program name a a' s' w' current backlog found point _ _ =>
    obtain ⟨hlogger, hhere, hactor, P1, hstart⟩ := h.begin found parcel
    have hregular := regular.enter found
    obtain ⟨W', G', P', hW, ha', hpoint⟩ := point.borders hregular hstart hhere hactor
    obtain ⟨P'', hleave⟩ := hpoint.leave (p := .program { a' with current, backlog })
      (fun a ha => by cases ha; exact ⟨rfl, ha'.behavior, ha'.env, ha'.backlog, ha'.logger⟩)
      fun hid => absurd hid hlogger
    exact ⟨W', G', P'', hW, hleave⟩

end Borders

namespace Session

lemma Bordered.takes {id : ActorId} (h : x.Bordered known) (takes : x.config.Takes s id message) :
    ∃ W G P, Borders x.logger s.Waiting s x.config.world W G P ∧ x.global.parts ⊆ W ∧ known ⊆ W ∧
      ∀ m, message = some m → m.parts ⊆ W ∨ id = x.logger ∧ m.parts ⊆ W ∪ G := by
  obtain ⟨W, G, P, hb, hglobal, hknown⟩ := h
  obtain ⟨name, hreports⟩ := hb.reports
  obtain ⟨P', hb'⟩ : ∃ P', Borders x.logger s.Waiting s x.config.world W G P' :=
    hb.reschedule (fun id d hd => hd.congr takes.registry) rfl (contains_congr takes.registry)
      (fun e he => .inl (takes.mail e he)) (fun id name a ha => .inl ⟨name, takes.registry ▸ ha⟩)
      ⟨name, (find?_congr takes.registry).trans hreports⟩ fun v hv => .inl hv
  exact ⟨W, G, P', hb', hglobal, hknown, fun m hm =>
    (hb.mail _ (takes.parcel m hm)).2.imp_right (And.imp_left And.left)⟩

lemma Bordered.dispatch (h : x.Bordered known) (regular : x.Regular)
    (alive : x.config.dispatch.2.world.exhausted = false) :
    Bordered { x with config := x.config.dispatch.2 } known := by
  rcases x.config.dispatch_cases alive with heq | ⟨s, id, message, takes, invoked⟩
  · rwa [heq]
  · obtain ⟨own, hregular⟩ := regular
    obtain ⟨W, G, P, hb, hglobal, hknown, hparcel⟩ := h.takes takes
    obtain ⟨W', G', P', hW, hb'⟩ := hb.invoked
      (hregular.schedule takes.registry (congrArg IdSource.issued takes.ids).ge) hparcel invoked
    exact ⟨W', G', P', hb', hglobal.trans hW, hknown.trans hW⟩

/-- Everything keeps to its side of the borders in every session of a host that hands over what it
holds. -/
theorem Hosted.bordered (h : x.Hosted known) : x.Bordered known := by
  induction h with
  | ofSettings settings fuel => exact .ofSettings settings fuel
  | look _ seen registered ih => exact ih.look seen registered
  | host _ writes registry _ mail ih => exact ih.host writes registry mail
  | bind _ name v env parts ih => exact ih.bind name parts
  | enroll before behavior logger name parts reports ih =>
    exact ih.enroll before.reachable.regular name parts reports
  | evaluate before e code parts alive ih =>
    exact ih.evaluate before.reachable.regular code parts alive
  | dispatch before alive ih => exact ih.dispatch before.reachable.regular alive

lemma Hosted.send {x' : Session} (h : x.Hosted known) {message : Value} {target : ActorId}
    (parts : message.parts ⊆ x.holds known) (sent : x.send message target = .ok x') :
    x'.Hosted known := by
  obtain ⟨s, hs, rfl⟩ := exists_of_send sent
  obtain ⟨hc, rfl⟩ := send_ok hs
  have hfresh : known ∪ x.config.world.store.heap.fresh x.config.world.store.heap = known :=
    union_eq_self_of_subset_right fun p hp => absurd hp.1 hp.2
  rw [← hfresh]
  refine Hosted.host h .none rfl le_rfl fun e he => ?_
  rcases he with he | he
  · rcases mem_append.1 (Fifo.toList_push x.config.queue ⟨target, message⟩ ▸ he) with he | he
    · exact .inl (.inl he)
    · rw [mem_singleton.1 he]
      exact .inr ⟨hc, parts⟩
  · exact .inl (.inr he)

lemma Hosted.execute {x' : Session} (h : x.Hosted known) {stmt : Stmt} (code : stmt.Tidy)
    (parts : stmt.parts ⊆ x.holds known) (handed : x.execute stmt = .ok x') :
    ∃ known', known ⊆ known' ∧ x'.Hosted known' := by
  obtain ⟨W, G, P, hb, hglobal, _⟩ := h.bordered
  -- the block is closed by the global environment, which the host has to know
  set heap := x.config.world.store.heap
  have hlook := h.look (fun p hp => .inl (.inl (.inl hp)))
    fun id hid => (hb.registered id).1 (hb.world.reach_subset hglobal hid)
  have hholds : x.holds known ⊆ x.holds (known ∪ heap.reach x.global.parts) :=
    union_subset_union_left _ subset_union_left
  have hwrite := hlook.host (.block ⟨stmt.declared, stmt, x.global⟩
    ⟨List.Subset.refl _, code⟩ (Set.union_subset (parts.trans hholds)
      ((heap.subset_reach _).trans (subset_union_right.trans subset_union_left))))
    rfl le_rfl fun e he => .inl he
  refine ⟨_, subset_union_left.trans subset_union_left, hwrite.send ?_ handed⟩
  exact singleton_subset_iff.2 (.inl (.inr (heap.fresh_newBlock _)))

/-- Everything keeps to its side of the borders at every point of a run. -/
theorem Runs.borders {w : World} {m : Moment} {current : Option Delivery} {backlog : List Value}
    (h : x.Runs s w m a current backlog) (hosted : x.Hosted known) :
    ∃ W G P, x.global.parts ⊆ W ∧ known ⊆ W ∧ a.Within W x.logger backlog ∧
      Borders x.logger (s.Beside m.self current) s w W G P := by
  obtain ⟨own, hregular⟩ := hosted.reachable.regular
  obtain ⟨s0, message, name, b, takes, found, point⟩ := h.begun
  obtain ⟨W, G, P, hb, hglobal, hknown, hparcel⟩ := hosted.bordered.takes takes
  obtain ⟨_, hhere, hactor, P1, hstart⟩ := hb.begin found hparcel
  have henter :=
    (hregular.schedule takes.registry (congrArg IdSource.issued takes.ids).ge).enter found
  obtain ⟨W', G', P', hW, ha, hpoint⟩ := point.borders henter hstart hhere hactor
  exact ⟨W', G', P', hglobal.trans hW, hknown.trans hW, ha, hpoint⟩

end Session

end Troupe
