import Troupe.Proofs.Items
import Troupe.Proofs.Outside

/-!
Old frames are sheltered from evaluations.

Names are bound outward from the innermost frame, and layers are shared with closures, so what an
evaluation binds could reach frames that others can see. It does not: patterns are matched on a
layer of their own, and the patterns of a statement bind variables of the block that they stand in,
if the block declares them (`Expr.Tidy`).

`Item.Guarded` states this for all that a tree holds, relative to a heap `old`: whatever the item
is going to bind is bound in frames that `old` does not have. With `tidy`, statements are covered.

* `Item.Turns.shelters`: a step of a guarded tree spares the frames of `old`, and what it leaves is
  guarded.
* `Evaluation.Forest.spares`: so do small steps on all trees of a task.
-/

namespace Troupe

open Array List Nat Pattern

variable {trees : List Work} {h h' old : Heap} {g : Goal} {name : String} {b : Block} {tidy : Prop}
  {env : Env}

/-! ### Blocks that declare what they bind -/

mutual

/-- Each block in the pattern declares the names that its statements bind. -/
def Pattern.Tidy : Pattern → Prop
  | .value e => e.Tidy
  | .pair h t => h.Tidy ∧ t.Tidy
  | .any | .ident _ | .const _ | .self => True

/-- Each block in the expression declares the names that its statements bind. -/
def Expr.Tidy : Expr → Prop
  | .lambda param body => param.Tidy ∧ body.Tidy
  | .apply function argument => function.Tidy ∧ argument.Tidy
  | .pair head tail => head.Tidy ∧ tail.Tidy
  | .choose subject arms => subject.Tidy ∧ arms.Tidy
  | .cond left right yes no => left.Tidy ∧ right.Tidy ∧ yes.Tidy ∧ no.Tidy
  | .block vars body => body.declared ⊆ vars ∧ body.Tidy
  | .new behavior => behavior.Tidy
  | .const _ | .ident _ | .now | .self => True

/-- Each block in the arms declares the names that its statements bind. -/
def Arms.Tidy : Arms → Prop
  | .nil => True
  | .cons p body rest => p.Tidy ∧ body.Tidy ∧ rest.Tidy

/-- Each block in the statement declares the names that its statements bind. -/
def Stmt.Tidy : Stmt → Prop
  | .empty => True
  | .seq first second => first.Tidy ∧ second.Tidy
  | .define p e => p.Tidy ∧ e.Tidy
  | .equate left right => left.Tidy ∧ right.Tidy
  | .send message target => message.Tidy ∧ target.Tidy
  | .after delay message target => delay.Tidy ∧ message.Tidy ∧ target.Tidy
  | .create _ behavior => behavior.Tidy
  | .become behavior => behavior.Tidy
  | .throw exception => exception.Tidy
  | .expr e => e.Tidy

end

/-- The block, and each block in it, declares what its statements bind. -/
def Block.Tidy (b : Block) : Prop := b.body.declared ⊆ b.vars ∧ b.body.Tidy

/-- All code in the heap is tidy. -/
structure Heap.Tidy (h : Heap) : Prop where
  closures : ∀ c ∈ h.closures, c.param.Tidy ∧ c.body.Tidy
  blocks : ∀ b ∈ h.blocks, b.Tidy

lemma mem_collect {seen : List String} {x : String} :
    name ∈ collect seen x ↔ name ∈ seen ∨ name = x := by
  unfold collect
  split
  · rename_i hin
    refine ⟨.inl, ?_⟩
    rintro (h | rfl)
    · exact h
    · exact contains_iff_mem.1 hin
  · simp

namespace Pattern

lemma mem_collectFrom : ∀ (p : Pattern) (seen : List String) {name : String},
    name ∈ p.collectFrom seen ↔ name ∈ seen ∨ name ∈ p.declared
  | .ident x, seen, name => by
    simp only [declared, collectFrom, mem_collect]
    simp
  | .pair h t, seen, name => by
    simp only [declared, collectFrom]
    rw [mem_collectFrom t, mem_collectFrom h, mem_collectFrom t (h.collectFrom []), or_assoc]
    rfl
  | .any, seen, name => by simp [declared, collectFrom]
  | .const v, seen, name => by simp [declared, collectFrom]
  | .value e, seen, name => by simp [declared, collectFrom]
  | .self, seen, name => by simp [declared, collectFrom]

lemma mem_declared_pair {h t : Pattern} :
    name ∈ (pair h t).declared ↔ name ∈ h.declared ∨ name ∈ t.declared :=
  mem_collectFrom t _

end Pattern

namespace Stmt

lemma mem_collectFrom : ∀ (stmt : Stmt) (seen : List String) {name : String},
    name ∈ stmt.collectFrom seen ↔ name ∈ seen ∨ name ∈ stmt.declared
  | .seq a b, seen, name => by
    simp only [declared, collectFrom]
    rw [mem_collectFrom b, mem_collectFrom a, mem_collectFrom b (a.collectFrom []), or_assoc]
    rfl
  | .define p e, seen, name => by
    exact p.mem_collectFrom seen
  | .equate l r, seen, name => by
    simp only [declared, collectFrom]
    rw [r.mem_collectFrom, l.mem_collectFrom, r.mem_collectFrom (l.collectFrom []), or_assoc]
    rfl
  | .create x e, seen, name => by
    simp only [declared, collectFrom, mem_collect]
    simp
  | .empty, seen, name => by simp [declared, collectFrom]
  | .send m t, seen, name => by simp [declared, collectFrom]
  | .after d m t, seen, name => by simp [declared, collectFrom]
  | .become e, seen, name => by simp [declared, collectFrom]
  | .throw e, seen, name => by simp [declared, collectFrom]
  | .expr e, seen, name => by simp [declared, collectFrom]

lemma declared_define (p : Pattern) (e : Expr) : (define p e).declared = p.declared := rfl

lemma declared_create (name : String) (e : Expr) :
    (create name e).declared = (ident name).declared := rfl

lemma mem_declared_seq {a b : Stmt} :
    name ∈ (seq a b).declared ↔ name ∈ a.declared ∨ name ∈ b.declared :=
  mem_collectFrom b _

lemma mem_declared_equate {l r : Pattern} {e : String} :
    e ∈ (equate l r).declared ↔ e ∈ l.declared ∨ e ∈ r.declared :=
  r.mem_collectFrom _

end Stmt

/-! ### Frames that are spared -/

/-- The frames that `old` has are bound in the same way in `h` and in `h'`, and so are all
dictionaries. -/
structure Heap.Spares (old h h' : Heap) : Prop where
  layers : ∀ i < old.layers.size, h'.layer i = h.layer i
  scopes : ∀ i < old.scopes.size, h'.scope i = h.scope i
  slots : ∀ i < old.slots.size, h'.slot? i = h.slot? i
  dicts : h'.dicts = h.dicts

/-- Binding the name reaches a frame that `old` does not have. -/
def Heap.Takes (h old : Heap) (name : String) : Env → Prop
  | .dynamic layer _ => old.layers.size ≤ layer
  | .block scope _ _ => ∃ slot, (h.scope scope).lookup name = some slot ∧ old.slots.size ≤ slot
  | _ => False

namespace Heap

variable {h1 : Heap}

namespace Spares

lemma refl (old h : Heap) : Spares old h h :=
  ⟨fun _ _ => rfl, fun _ _ => rfl, fun _ _ => rfl, rfl⟩

lemma trans (h12 : Spares old h h1) (h23 : Spares old h1 h') : Spares old h h' where
  layers i hi := (h23.layers i hi).trans (h12.layers i hi)
  scopes i hi := (h23.scopes i hi).trans (h12.scopes i hi)
  slots i hi := (h23.slots i hi).trans (h12.slots i hi)
  dicts := h23.dicts.trans h12.dicts

/-- New frames are not old. -/
lemma of_grows (room : old.Anchors h) (grows : h.Grows h') : Spares old h h' := by
  obtain ⟨_, hlayers⟩ := grows.layers
  obtain ⟨_, hscopes⟩ := grows.scopes
  obtain ⟨n, hslots⟩ := grows.slots
  refine ⟨fun i hi => ?_, fun i hi => ?_, fun i hi => ?_, grows.dicts⟩
  · rw [layer, layer, hlayers, Array.getElem?_append_left (Nat.lt_of_lt_of_le hi room.layers)]
  · rw [scope, scope, hscopes, Array.getElem?_append_left (Nat.lt_of_lt_of_le hi room.scopes)]
  · rw [slot?, slot?, hslots, Array.getElem?_append_left (Nat.lt_of_lt_of_le hi room.slots)]

lemma park (slot : Nat) (who : Waiter) : Spares old h (h.park slot who) := by
  exact ⟨fun _ _ => rfl, fun _ _ => rfl, fun i _ => h.slot?_park slot who i, rfl⟩

/-- Binding a name that a new frame takes. -/
lemma bind {name : String} {env : Env} (takes : h.Takes old name env) (v : Value) :
    Spares old h (h.bind name v env).2.2 := by
  cases env with
  | dynamic l base =>
    have htakes : old.layers.size ≤ l := takes
    unfold Heap.bind
    split
    · exact .refl old h
    · refine ⟨fun i hi => ?_, fun _ _ => rfl, fun _ _ => rfl, rfl⟩
      have hne : l ≠ i := Nat.ne_of_gt (Nat.lt_of_lt_of_le hi htakes)
      simp [layer, Array.getElem?_modify, hne]
  | block sc captured caller =>
    obtain ⟨slot, hslot, hnew⟩ := takes
    simp only [Heap.bind, hslot]
    unfold fill
    split
    · exact .refl old h
    · refine ⟨fun _ _ => rfl, fun _ _ => rfl, fun i hi => ?_, rfl⟩
      have hne : slot ≠ i := Nat.ne_of_gt (Nat.lt_of_lt_of_le hi hnew)
      simp [slot?, hne]
    · exact .refl old h
  | empty | actor | global => exact takes.elim

end Spares

lemma Takes.mono (takes : h.Takes old name env) (anchors : h.Anchors h') :
    h'.Takes old name env := by
  cases env with
  | dynamic | empty | actor | global => exact takes
  | block sc captured caller =>
    obtain ⟨slot, hslot, hnew⟩ := takes
    exact ⟨slot, anchors.names sc name slot hslot, hnew⟩

lemma exists_lookup_zipIdx {vars : List String} (hin : name ∈ vars) (first : Nat) :
    ∃ slot, (vars.zipIdx first).lookup name = some slot ∧ first ≤ slot := by
  induction vars generalizing first with
  | nil => cases hin
  | cons x vars ih =>
    rw [zipIdx_cons, lookup_cons]
    by_cases hx : name = x
    · subst hx
      exact ⟨first, by simp, le_rfl⟩
    · have hne : (name == x) = false := by simpa using hx
      obtain ⟨slot, hslot, hle⟩ := ih ((mem_cons.1 hin).resolve_left hx) (first + 1)
      exact ⟨slot, by rw [hne]; exact hslot, (le_succ first).trans hle⟩

/-- A running block takes the names that it declares. -/
lemma takes_newScope (room : old.Anchors h) (captured caller : Env) {vars : List String}
    (hin : name ∈ vars) :
    (h.newScope captured caller vars).2.Takes old name (h.newScope captured caller vars).1 := by
  obtain ⟨slot, hslot, hle⟩ := exists_lookup_zipIdx hin h.slots.size
  exact ⟨slot, by simpa [newScope, scope] using hslot, room.slots.trans hle⟩

namespace Tidy

/-- Only code counts. -/
lemma of_eq (ht : h.Tidy) (closures : h'.closures = h.closures) (blocks : h'.blocks = h.blocks) :
    h'.Tidy :=
  ⟨fun c hc => ht.closures c (closures ▸ hc), fun b hb => ht.blocks b (blocks ▸ hb)⟩

lemma newClosure (ht : h.Tidy) {c : Closure} (param : c.param.Tidy) (body : c.body.Tidy) :
    (h.newClosure c).2.Tidy := by
  refine ⟨fun c' hc' => ?_, ht.blocks⟩
  rcases mem_push.1 hc' with hc' | rfl
  · exact ht.closures c' hc'
  · exact ⟨param, body⟩

lemma newBlock (ht : h.Tidy) (hb : b.Tidy) : (h.newBlock b).2.Tidy := by
  refine ⟨ht.closures, fun b' hb' => ?_⟩
  rcases mem_push.1 hb' with hb' | rfl
  · exact ht.blocks b' hb'
  · exact hb

lemma block? (ht : h.Tidy) {v : Value} (found : h.block? v = some b) : b.Tidy := by
  cases v with
  | block ref => exact ht.blocks b (mem_of_getElem? found)
  | _ => cases found

end Tidy

/-- Native functions add no code. -/
lemma code_call (h : Heap) (f : Native) (v : Value) :
    (h.call f v).2.closures = h.closures ∧ (h.call f v).2.blocks = h.blocks := by
  rcases h.call_cases f v with heq | ⟨f', heq⟩
  · rw [heq]
    exact ⟨rfl, rfl⟩
  · rw [heq]
    exact ⟨rfl, rfl⟩

/-- Binding a name adds no code. -/
lemma code_bind (h : Heap) (name : String) (v : Value) (env : Env) :
    (h.bind name v env).2.2.closures = h.closures ∧ (h.bind name v env).2.2.blocks = h.blocks := by
  obtain ⟨layers, slots, heq, _⟩ := h.bind_frame name v env
  rw [heq]
  exact ⟨rfl, rfl⟩

end Heap

/-! ### Guarded trees -/

/-- The pattern is tidy, and what it binds is bound in new frames. -/
def Pattern.Guarded (tidy : Prop) (old h : Heap) (p : Pattern) (env : Env) : Prop :=
  (tidy → p.Tidy) ∧ ∀ name ∈ p.declared, h.Takes old name env

/-- What the item is going to bind is bound in new frames. -/
def Item.Guarded (tidy : Prop) (old h : Heap) : Item → Prop
  | .eval e _ => tidy → e.Tidy
  | .exec stmt env => tidy ∧ stmt.Tidy ∧ ∀ name ∈ stmt.declared, h.Takes old name env
  | .bind p env => p.Guarded tidy old h env
  | .resolve p _ => tidy → p.Tidy
  | .choice arms _ => tidy → arms.Tidy
  | .opens ps e _ => tidy → (∀ p ∈ ps, p.Tidy) ∧ e.Tidy
  | .block b => tidy → b.Tidy
  | .run _ | .perform .. => tidy
  | .init .. | .keeps _ | .value _ | .slot _ => True

/-- What the job is going to bind is bound in new frames. Statements are run only if code is
tidy. -/
def Job.Guarded (tidy : Prop) (old h : Heap) (job : Job g) : Prop :=
  ∀ i ∈ job.items, i.Guarded tidy old h

/-- What the tree is going to bind is bound in frames that `old` does not have. -/
def Evaluation.Guarded (tidy : Prop) (old h : Heap) (e : Evaluation g) : Prop :=
  ∀ i ∈ e.items, i.Guarded tidy old h

section Items

lemma Pattern.Guarded.mono {p : Pattern} (hp : p.Guarded tidy old h env) (anchors : h.Anchors h') :
    p.Guarded tidy old h' env :=
  ⟨hp.1, fun name hname => (hp.2 name hname).mono anchors⟩

lemma Item.Guarded.mono {i : Item} (hi : i.Guarded tidy old h) (anchors : h.Anchors h') :
    i.Guarded tidy old h' := by
  cases i with
  | exec stmt env => exact ⟨hi.1, hi.2.1, fun name hname => (hi.2.2 name hname).mono anchors⟩
  | bind p env => exact Pattern.Guarded.mono hi anchors
  | _ => exact hi

lemma Evaluation.Guarded.mono {e : Evaluation g} (he : e.Guarded tidy old h)
    (anchors : h.Anchors h') : e.Guarded tidy old h' :=
  fun i hi => (he i hi).mono anchors

/-- The parts of a guarded item are guarded. -/
lemma Item.Guarded.subs {i : Item} (hi : i.Guarded tidy old h) :
    ∀ j ∈ i.subs, j.Guarded tidy old h := by
  fun_cases Item.subs i
  case case27 => exact nofun
  all_goals simp only [forall_mem_cons]
  all_goals simp_all [Item.Guarded, Pattern.Guarded, Expr.Tidy, Stmt.Tidy, Arms.Tidy,
    Block.Tidy, Pattern.Tidy,
      mem_declared_pair, Stmt.mem_declared_seq, Stmt.mem_declared_equate, Stmt.declared_define,
      Stmt.declared_create]

/-- What can be had from guarded items is guarded. -/
lemma Item.Yields.guarded {I : List Item} {j : Item} (hj : Yields h I j) (code : tidy → h.Tidy)
    (hI : ∀ i ∈ I, i.Guarded tidy old h) : j.Guarded tidy old h := by
  induction hj with
  | keep hi => exact hI _ hi
  | sub _ hj ih => exact ih.subs _ hj
  | closure _ found _ =>
    intro ht
    obtain ⟨hparam, hbody⟩ := (code ht).closures _ (mem_of_getElem? found)
    exact ⟨forall_mem_singleton.2 hparam, hbody⟩
  | block _ found _ => exact fun ht => (code ht).block? found
  | _ => trivial

/-- Patterns are guarded on a layer of their own. -/
lemma Pattern.guarded_newLayer (room : old.Anchors h) {p : Pattern}
    (hp : tidy → p.Tidy) (base : Env) :
    p.Guarded tidy old (h.newLayer base).2 (h.newLayer base).1 :=
  ⟨hp, fun _ _ => room.layers⟩

/-- Statements are guarded on a frame that has their names. -/
lemma Block.guarded_newScope (room : old.Anchors h) (ht : tidy) (hb : b.Tidy) (caller : Env) :
    (Item.exec b.body (h.newScope b.env caller b.vars).1).Guarded tidy old
      (h.newScope b.env caller b.vars).2 :=
  ⟨ht, hb.2, fun _ hname => Heap.takes_newScope room b.env caller (hb.1 hname)⟩

end Items

/-! ### Steps -/

/-- A step spares the frames of `old`, and what is in `L` is guarded after it. -/
structure Shelters (tidy : Prop) (old h : Heap) (L : List Item) (h' : Heap) : Prop where
  guarded : ∀ i ∈ L, i.Guarded tidy old h'
  anchors : h.Anchors h'
  spares : old.Spares h h'
  tidy : tidy → h'.Tidy

section Steps

lemma Shelters.of_grows {L : List Item} (room : old.Anchors h) (grows : h.Grows h')
    (guarded : ∀ i ∈ L, i.Guarded tidy old h') (code : tidy → h'.Tidy) : Shelters tidy old h L h' :=
  ⟨guarded, .of_grows grows, .of_grows room grows, code⟩

/-- A name is bound in a new frame. -/
lemma Heap.bind_shelters (code : tidy → h.Tidy) (hp : (ident name).Guarded tidy old h env)
    (v : Value) : Shelters tidy old h [] (h.bind name v env).2.2 := by
  obtain ⟨hclosures, hblocks⟩ := h.code_bind name v env
  have takes := hp.2 name (by simp [declared, collectFrom, collect])
  exact ⟨nofun, h.anchors_bind name v env, .bind takes v, fun ht =>
    (code ht).of_eq hclosures hblocks⟩

/-- What is made from guarded items. -/
lemma Item.Gain.shelters {s : Store} {I N : List Item} {ids : IdSource} (gain : Gain s I h' ids N)
    (room : old.Anchors s.heap) (code : tidy → s.heap.Tidy)
    (hI : ∀ i ∈ I, i.Guarded tidy old s.heap) : Shelters tidy old s.heap N h' := by
  have hY : ∀ {j : Item}, Yields s.heap I j → j.Guarded tidy old s.heap :=
    fun hj => hj.guarded code hI
  have hstill : ∀ {N : List Item}, (∀ i ∈ N, i.Guarded tidy old s.heap) →
      Shelters tidy old s.heap N s.heap := fun hN => ⟨hN, .refl _, .refl old _, code⟩
  cases gain with
  | still heap => exact heap ▸ hstill (by simp)
  | @layer ps e env hi heap =>
    subst heap
    refine .of_grows room (s.heap.grows_newLayer env) ?_ fun ht => (code ht).of_eq rfl rfl
    refine forall_mem_cons.2 ⟨fun ht => (hY hi ht).2, fun i hi' => ?_⟩
    obtain ⟨p, hp, rfl⟩ := mem_map.1 hi'
    exact guarded_newLayer room (fun ht => (hY hi ht).1 p hp) env
  | closure hi heap =>
    subst heap
    refine .of_grows room (s.heap.grows_newClosure _) (forall_mem_singleton.2 trivial) fun ht => ?_
    exact (code ht).newClosure ((hY hi ht).1 _ mem_cons_self) (hY hi ht).2
  | block hi heap =>
    subst heap
    exact .of_grows room (s.heap.grows_newBlock _) (forall_mem_singleton.2 trivial) fun ht =>
      (code ht).newBlock (hY hi ht)
  | @native _ f v _ _ _ heap =>
    subst heap
    obtain ⟨hclosures, hblocks⟩ := s.heap.code_call f v
    exact .of_grows room (s.heap.grows_call f v) (forall_mem_singleton.2 trivial) fun ht =>
      (code ht).of_eq hclosures hblocks
  | bind hi _ heap => exact heap ▸ Heap.bind_shelters code (hY hi) _
  | create hi heap =>
    have h : Shelters tidy old s.heap [] _ := Heap.bind_shelters code (hY hi) (.actor s.reserve.1)
    exact heap ▸ ⟨forall_mem_singleton.2 trivial, h.anchors, h.spares, h.tidy⟩
  | new _ heap => exact heap ▸ hstill (by simp [Item.Guarded])
  | @scope b caller hb hi heap =>
    subst heap
    refine .of_grows room (s.heap.grows_newScope b.env caller b.vars) ?_ fun ht =>
      (code ht).of_eq rfl rfl
    refine forall_mem_cons.2 ⟨?_, forall_mem_singleton.2 trivial⟩
    exact Block.guarded_newScope room (hY hi) (hY hb (hY hi)) caller
  | @actor self env hi heap =>
    subst heap
    exact .of_grows room (s.heap.grows_newActor self env) (forall_mem_singleton.2 (hY hi)) fun ht =>
      (code ht).of_eq rfl rfl
  | @enact b self env hb hi heap =>
    subst heap
    have hgrows : s.heap.Grows (s.heap.enact b self env).2 :=
      { s.heap.grows_newScope b.env (s.heap.newActor self env).1 b.vars with }
    refine .of_grows room hgrows (forall_mem_singleton.2 ?_) fun ht => (code ht).of_eq rfl rfl
    have hroom := room.trans (.of_grows (s.heap.grows_newActor self env))
    exact Block.guarded_newScope hroom (hY hi) (hY hb (hY hi)) _

/-- A step on guarded trees spares old frames. -/
theorem Item.Turns.shelters {cx : Context} {c c' : Core} {H L : List Item}
    (turns : Turns cx c H L c')
    (room : old.Anchors c.heap) (code : tidy → c.heap.Tidy)
    (hH : ∀ i ∈ H, i.Guarded tidy old c.heap) : Shelters tidy old c.heap L c'.heap := by
  obtain ⟨I, J, log, hI, ⟨N, gain, hJ⟩, _, hL⟩ := turns
  have hI' : ∀ i ∈ I, i.Guarded tidy old c.heap := fun i hi => hH i (hI hi)
  have h := gain.shelters room code hI'
  refine ⟨fun i hi => ?_, h.anchors, h.spares, h.tidy⟩
  rcases mem_append.1 (hL hi) with hi | hi
  · exact (hH i hi).mono h.anchors
  · rcases hJ i (mem_append_right _ hi) with hi | hi
    · exact (hi.guarded code hI').mono h.anchors
    · exact h.guarded i hi

end Steps

/-! ### Small steps -/

namespace Evaluation

variable {cx : Context} {c c' : Core}

/-- All trees are guarded, and code is tidy if that counts. -/
structure Sheltered (tidy : Prop) (old : Heap) (trees : List Work) (h : Heap) : Prop where
  room : old.Anchors h
  code : tidy → h.Tidy
  guarded : ∀ i ∈ Work.items trees, i.Guarded tidy old h

lemma Sheltered.mono (hs : Sheltered tidy old trees h) (anchors : h.Anchors h')
    (code : tidy → h'.Tidy) : Sheltered tidy old trees h' :=
  ⟨hs.room.trans anchors, code, fun i hi => (hs.guarded i hi).mono anchors⟩

/-- Small steps on guarded trees spare old frames. -/
theorem Forest.spares {n : Nat} {trees' : List Work} (h : Forest cx n trees c trees' c')
    (hs : Sheltered tidy old trees c.heap) :
    Sheltered tidy old trees' c'.heap ∧ old.Spares c.heap c'.heap := by
  have hkept := h.keeps_items
    (S := fun c' => old.Anchors c'.heap ∧ (tidy → c'.heap.Tidy) ∧ old.Spares c.heap c'.heap)
    (Q := fun c' i => i.Guarded tidy old c'.heap) ?_ ?_ ⟨hs.room, hs.code, .refl old _⟩ hs.guarded
  · obtain ⟨⟨room, code, spares⟩, guarded⟩ := hkept
    exact ⟨⟨room, code, guarded⟩, spares⟩
  · rintro c' slot who ⟨room, code, spares⟩
    have hanchors := c'.heap.anchors_park slot who
    exact ⟨⟨room.trans hanchors, fun ht => (code ht).of_eq rfl rfl, spares.trans (.park slot who)⟩,
      fun i hi => hi.mono hanchors⟩
  · rintro c1 c' H L turns ⟨room, code, spares⟩ hH
    have h := turns.shelters room code hH
    exact ⟨⟨room.trans h.anchors, h.tidy, spares.trans h.spares⟩, h.guarded⟩

end Evaluation

end Troupe
