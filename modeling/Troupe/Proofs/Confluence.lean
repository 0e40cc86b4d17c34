import Troupe.Actor
import Troupe.Proofs.Refinement
import Troupe.Proofs.Reordering

/-!
The order of statements does not matter.

The statements of a block run side by side: whoever needs a variable waits for it, and whoever binds
one that is bound agrees or fails. So two deliveries that run the same statements in different
orders do the same, if one of them ends well and makes no actors.

The deliveries begin in the same store, but for the new code of the block. Up to the point where the
block is run, this code makes no difference (`Evaluation.Matched.ensures`).

* `Actor.play`: the delivery that makes an actor run a block.
* `Actor.play_perm`: deliveries of statements in two orders.
-/

namespace Troupe

open Heap Likeness Stmt

/-! ### The parameter -/

/-- The parameter and the message mention only addresses of the set. -/
structure Pattern.Matchable (K : Set Address) (param : Pattern) (message : Value) : Prop where
  tidy : param.Tidy
  inside : param.Like (.on K) param
  message : message.Like (.on K) message

/-- The function mentions only addresses of the set, and each block in it declares what it binds. -/
structure Closure.Neat (K : Set Address) (f : Closure) : Prop where
  tidy : f.param.Tidy ∧ f.body.Tidy
  inside : f.Like (.on K) f

/-- The core with a new function, and with a layer to match its parameter on. -/
def Core.receive (c : Core) (f : Closure) (env : Env) : Core :=
  { c with heap := ((c.heap.newLayer env).2.newClosure f).2 }

namespace Evaluation

variable {cx : Context} {c : Core} {env : Env} {param : Pattern} {message : Value} {f : Closure}

/-- The match of the parameter, which is about to begin. -/
def matching (h : Heap) (param : Pattern) (message : Value) (env : Env) : Evaluation .verdict :=
  .start (.fit param message ⟨(h.newLayer env).1, 0⟩)

/-- The match mentions what is there and the new layer. -/
lemma like_matching (neat : c.heap.Neat) (env_inside : env.Like (.on c.heap.space.dom) env)
    (matchable : param.Matchable c.heap.space.dom message) {K : Set Address}
    (hK : (c.heap.newLayer env).2.space.dom ⊆ K) :
    (matching c.heap param message env).Like (.on K) .layer
    (matching c.heap param message env) := by
  have hR := on_mono ((widens_newLayer neat.closed env).dom.trans hK)
  have hlayer : (⟨.layer, c.heap.layers.size⟩ : Address) ∈ K :=
    hK (by simp [Space.dom, space, newLayer])
  exact .start (.fit (matchable.inside.mono hR) (matchable.message.mono hR)
    ⟨⟨.dynamic ⟨rfl, hlayer⟩ (env_inside.mono hR), rfl⟩, rfl⟩)

/-- The match of the parameter begins on a sound soup. -/
lemma proper_matching (neat : c.heap.Neat) (env_inside : env.Like (.on c.heap.space.dom) env)
    (matchable : param.Matchable c.heap.space.dom message)
    (f_neat : f.Neat c.heap.space.dom) {c1 : Core}
    (gathers : c1.Gathers cx.transaction #[]) (twin : (c.receive f env).Twin cx.transaction c1) :
    Proper cx #[] True c.heap (matching c.heap param message env) c1 := by
  have hlayer := widens_newLayer neat.closed env
  have hclosure := widens_newClosure hlayer.closed
    (f_neat.inside.mono (on_mono hlayer.dom))
  have hanchors : (c.heap.newLayer env).2.Anchors c1.heap :=
    (Heap.Anchors.of_grows (grows_newClosure _ f)).trans twin.heap.anchors
  refine ⟨rfl, gathers, ?_, (Heap.Anchors.of_grows (c.heap.grows_newLayer env)).trans hanchors,
    fun _ => ?_, ?_⟩
  · rw [twin.soup_eq]
    have hlike := like_matching neat env_inside matchable hclosure.dom
    cases hlike with
    | start inside => exact .single hclosure.closed inside _
  · have hcode : (c.heap.newLayer env).2.Tidy := neat.tidy.of_eq rfl rfl
    exact (hcode.newClosure f_neat.tidy.1 f_neat.tidy.2).of_eq twin.heap.closures twin.heap.blocks
  · exact List.forall_mem_cons.2 ⟨(Pattern.guarded_newLayer (.refl c.heap) (fun _ => matchable.tidy)
      env).mono hanchors, List.forall_mem_singleton.2 trivial⟩

/-- The parameter was matched on its layer, and this is how that ended. -/
def Matched (cx : Context) (c : Core) (f : Closure) (param : Pattern) (message : Value) (env : Env)
    (ok : Bool) (c2 : Core) : Prop :=
  ∃ n ds c1, (c.receive f env).Twin cx.transaction c1 ∧
    Steps cx n (matching c.heap param message env) c1 (.done ok) ds c2

/-- If the parameter matches when there is one new function, it is sure to match when there is
another one instead, and nothing is different then. -/
theorem Matched.ensures {c2 : Core} (matched : Matched cx c f param message env true c2)
    (gathers2 : c2.Gathers cx.transaction #[]) (neat : c.heap.Neat)
    (env_inside : env.Like (.on c.heap.space.dom) env)
    (matchable : param.Matchable c.heap.space.dom message) (f_neat : f.Neat c.heap.space.dom)
    (gathers : c.Gathers cx.transaction #[]) (quiet : c.sends cx.transaction = 0) (f' : Closure) :
    (c.heap.newLayer env).2.space.dom ⊆ c2.heap.space.dom ∧ c2.heap.Neat ∧
      c2.heap.frames = c.heap.frames ∧ ∀ c1, (c.receive f' env).Twin cx.transaction c1 →
        Ensures True cx (matching c.heap param message env) c1 fun ok c2' => ok = true ∧
          ∃ R, Core.Abreast cx.transaction (c.heap.newLayer env).2.space.dom R c2 c2' := by
  obtain ⟨n, ds, c1, twin, run⟩ := matched
  have proper :=
    proper_matching neat env_inside matchable f_neat ((twin.gathers #[]).2 gathers) twin
  obtain ⟨proper2, k, path⟩ := run.path (fun doomed => by simpa using doomed.goal) gathers2 proper
  have hframes : c2.heap.frames = c.heap.frames := (run.frames nofun).trans twin.heap.frames_eq
  have hlayer := widens_newLayer neat.closed env
  set K := (c.heap.newLayer env).2.space.dom
  have hdom : K ⊆ c2.heap.space.dom := by
    refine Set.Subset.trans ?_ path.dom_subset
    rw [twin.soup_eq]
    exact (widens_newClosure hlayer.closed
      (f_neat.inside.mono (on_mono hlayer.dom))).dom
  refine ⟨hdom, ⟨proper2.sound.closed, proper2.code trivial⟩, hframes, fun c1' twin' => ?_⟩
  have like : ((matching c.heap param message env).soup c1' cx.transaction).Like (.on K)
      ((matching c.heap param message env).soup c1 cx.transaction) := by
    rw [twin.soup_eq, twin'.soup_eq]
    refine ⟨unique_on K, like_newClosure hlayer.closed f' f,
      (like_matching neat env_inside matchable subset_rfl).threads, ?_⟩
    show Multiset.Rel _ (c.sends cx.transaction) (c.sends cx.transaction)
    rw [quiet]
    exact .zero
  have tracks : Tracks cx (.on K) #[] _ k (matching c.heap param message env) c1' :=
    ⟨rfl, (twin'.gathers #[]).2 gathers, _, _, le_rfl, like, proper.sound, path⟩
  refine (tracks.ensures (ends_done (g := .verdict) true c2 cx.transaction)).trace.mono ?_
  rintro ok c2' ⟨⟨hgathers, R, hR, hlike⟩, m, ds', run'⟩
  refine ⟨answer_like hlike, R, hR, hlike.unique, hlike.space, hlike.sends, ?_, hgathers⟩
  exact ((run'.frames nofun).trans twin'.heap.frames_eq).trans hframes.symm

end Evaluation

/-! ### Deliveries -/

/-- How an actor comes to run a block: its behavior is a function that answers a message with the
block, or it is the identity, and the message is the block. -/
inductive Cue where
  | function (param : Pattern) (message : Value)
  | identity (f : NativeRef)

namespace Cue

/-- The behavior and the message for a block of these statements, which is new code in the heap. -/
def prepare (cue : Cue) (l : List Stmt) (env : Env) (h : Heap) : Value × Value × Heap :=
  match cue with
  | function param message =>
    let (behavior, h) := h.newClosure ⟨param, .ofStmt (.ofList l), env⟩
    (behavior, message, h)
  | identity f =>
    let (message, h) := h.newBlock (.ofList l env)
    (.native f, message, h)

/-- What the cue is made of stands in the heap. -/
def Fits (h : Heap) : Cue → Prop
  | function param message => param.Matchable h.space.dom message
  | identity f => h.natives[f.index]? = some .identity

end Cue

/-- The core with the new code of the block. -/
def Core.prepare (c : Core) (cue : Cue) (l : List Stmt) (env : Env) : Core :=
  { c with heap := (cue.prepare l env c.heap).2.2 }

namespace Evaluation

variable {cx : Context} {c c0 : Core} {l l' : List Stmt} {env base : Env} {self : ActorId}
  {exported : Bool} {param : Pattern} {message : Value} {f : NativeRef} {n : Nat} {o : Outcome}
  {ds : List Work}

/-- The delivery that makes an actor run a block. -/
def delivering (cue : Cue) (l : List Stmt) (env : Env) (h : Heap) (self : ActorId) (exported : Bool)
    (base : Env) : Evaluation .outcome :=
  .start (.deliver (cue.prepare l env h).1 (cue.prepare l env h).2.1 self exported ⟨base, 0⟩)

/-- What the statements of a block ensure is ensured by its delivery to the identity. -/
lemma ensures_identity {total : Prop} {P : Outcome → Core → Prop}
    (native : c.heap.natives[f.index]? = some .identity)
    (runs : ∀ c1, (c.stage l env self base).Twin cx.transaction c1 →
      Ensures total cx (opening c.heap l env self base) c1 P) :
    Ensures total cx (delivering (.identity f) l env c.heap self exported base)
      (c.prepare (.identity f) l env) (Ensures.Nearly cx P) :=
  Ensures.deliver_identity native Array.getElem?_push_size runs

/-- What the match of the parameter and the statements of a block ensure is ensured by the delivery
of a message to the function. -/
lemma ensures_function {total : Prop} {P : Outcome → Core → Prop} {V : Bool → Core → Prop}
    (fits : ∀ c1, (c.receive ⟨param, .ofStmt (.ofList l), env⟩ env).Twin cx.transaction c1 →
      Ensures total cx (matching c.heap param message env) c1 V)
    (fails : ∀ c2 c0, V false c2 → P .fail c0) (runs : ∀ c2 c1, V true c2 →
      (c2.stage l (c.heap.newLayer env).1 self base).Twin cx.transaction c1 →
        Ensures total cx (opening c2.heap l (c.heap.newLayer env).1 self base) c1 P) :
    Ensures total cx (delivering (.function param message) l env c.heap self exported base)
      (c.prepare (.function param message) l env) (Ensures.Nearly cx P) := by
  refine Ensures.deliver_function Array.getElem?_push_size fits fails ?_
  rintro c2 _ _ c1 hV rfl rfl twin
  exact runs c2 c1 hV twin

/-- How a delivery that has ended well goes with the statements of the block in another order: it is
sure to end in the same way. The frame of the block is the first one that is made. -/
structure Repeats (cx : Context) (c : Core) (cue : Cue) (l l' : List Stmt) (env : Env)
    (self : ActorId) (exported : Bool) (base : Env) (o : Outcome) (c0 : Core) : Prop where
  declared : ∀ name ∈ (ofList l).declared,
    ∃ slot, (c0.heap.scope c.heap.scopes.size).lookup name = some slot
  ensures : Ensures True cx (delivering cue l' env c.heap self exported base) (c.prepare cue l' env)
    (EndsLike cx.transaction c.heap.space.dom c.heap.scopes.size o c0)

section Repeats

variable (neat : c.heap.Neat) (staged : Stmt.Staged c.heap.space.dom l env base) (perm : l.Perm l')
  (gathers : c.Gathers cx.transaction #[]) (quiet : c.sends cx.transaction = 0) (well : o ≠ .fail)
  (gathers0 : c0.Gathers cx.transaction #[])
include neat staged perm gathers quiet well gathers0

lemma repeats_identity (native : c.heap.natives[f.index]? = some .identity)
    (run : Steps cx n (delivering (.identity f) l env c.heap self exported base)
      (c.prepare (.identity f) l env) (.done o) ds c0) :
    Repeats cx c (.identity f) l l' env self exported base o c0 := by
  have course : Ensures False cx (delivering (.identity f) l env c.heap self exported base)
      (c.prepare (.identity f) l env) (Ensures.Nearly cx (Performed cx c l env self base)) := by
    refine ensures_identity native fun c1 twin => ?_
    refine (Ensures.reached cx _ c1).mono fun o c0 hrun => ?_
    obtain ⟨n, ds, run⟩ := hrun
    exact ⟨n, ds, c1, twin, run⟩
  obtain ⟨c3, performed, twin3⟩ := course.ends run
  have gathers3 := (twin3.gathers #[]).1 gathers0
  refine ⟨fun name hname => ?_, ?_⟩
  · rw [scope, twin3.heap.scopes]
    exact performed.exists_slot well gathers3 neat staged hname
  · have abreast : Core.Abreast cx.transaction c.heap.space.dom (.on c.heap.space.dom) c c :=
      ⟨le_rfl, unique_on _, neat.closed, by rw [quiet]; exact .zero, rfl, gathers⟩
    refine (ensures_identity native fun c1 twin =>
      performed.ensures well gathers3 neat staged perm abreast twin).mono ?_
    rintro o' c0' ⟨c3', ends, twin3'⟩
    exact ends.twin twin3 twin3'

lemma repeats_function (matchable : param.Matchable c.heap.space.dom message)
    (run : Steps cx n (delivering (.function param message) l env c.heap self exported base)
      (c.prepare (.function param message) l env) (.done o) ds c0) :
    Repeats cx c (.function param message) l l' env self exported base o c0 := by
  set f : Closure := ⟨param, .ofStmt (.ofList l), env⟩ with hf
  set layer := (c.heap.newLayer env).1 with hlayer
  have course : Ensures False cx (delivering (.function param message) l env c.heap
    self exported base)
      (c.prepare (.function param message) l env)
      (Ensures.Nearly cx fun o c0 => o ≠ .fail → ∃ c2, Matched cx c f param message env true c2 ∧
        Performed cx c2 l layer self base o c0) := by
    refine ensures_function (V := Matched cx c f param message env) (fun c1 twin => ?_)
      (fun _ _ _ h => absurd rfl h) fun c2 c1 matched twin => ?_
    · refine (Ensures.reached cx _ c1).mono fun ok c2 hrun => ?_
      obtain ⟨n, ds, run⟩ := hrun
      exact ⟨n, ds, c1, twin, run⟩
    · refine (Ensures.reached cx _ c1).mono fun o c0 hrun _ => ?_
      obtain ⟨n, ds, run⟩ := hrun
      exact ⟨c2, matched, n, ds, c1, twin, run⟩
  obtain ⟨c3, hcourse, twin3⟩ := course.ends run
  obtain ⟨c2, matched, performed⟩ := hcourse well
  have gathers3 := (twin3.gathers #[]).1 gathers0
  have f_neat : f.Neat c.heap.space.dom :=
    ⟨⟨matchable.tidy, List.Subset.refl _, tidy_ofList staged.tidy⟩, matchable.inside,
      .block _ (like_ofList staged.inside), staged.env⟩
  obtain ⟨hdom, neat2, frames, matches'⟩ :=
    matched.ensures (performed.gathers_before well gathers3) neat
    staged.env matchable f_neat gathers quiet ⟨param, .ofStmt (.ofList l'), env⟩
  have hscopes : c2.heap.scopes = c.heap.scopes := congrArg Prod.fst frames
  have hwidens := widens_newLayer neat.closed env
  have staged2 : Stmt.Staged (c.heap.newLayer env).2.space.dom l layer base := by
    have h := staged.mono hwidens.dom
    refine { h with env := .dynamic ⟨rfl, ?_⟩ h.env }
    simp [Space.dom, space, newLayer]
  refine ⟨fun name hname => ?_, ?_⟩
  · rw [scope, twin3.heap.scopes, ← hscopes]
    exact performed.exists_slot well gathers3 neat2 (staged2.mono hdom) hname
  · have sure : Ensures True cx (delivering (.function param message) l' env c.heap
      self exported base)
        (c.prepare (.function param message) l' env)
        (Ensures.Nearly cx (EndsLike cx.transaction (c.heap.newLayer env).2.space.dom
          c.heap.scopes.size o c3)) := by
      refine ensures_function matches' (fun _ _ h => absurd h.1 Bool.false_ne_true)
        fun c2' c1 h twin => ?_
      obtain ⟨_, R, abreast⟩ := h
      rw [← hscopes]
      exact performed.ensures well gathers3 neat2 staged2 perm abreast twin
    refine sure.mono ?_
    rintro o' c0' ⟨c3', ends, twin3'⟩
    exact (ends.twin twin3 twin3').mono hwidens.dom

/-- If a delivery ends well, and makes no actors, the delivery with the statements of the block in
another order is sure to end in the same way. -/
theorem repeats {cue : Cue} (fits : cue.Fits c.heap)
    (run : Steps cx n (delivering cue l env c.heap self exported base)
      (c.prepare cue l env) (.done o) ds
      c0) : Repeats cx c cue l l' env self exported base o c0 := by
  cases cue with
  | identity f => exact repeats_identity neat staged perm gathers quiet well gathers0 fits run
  | function param message =>
    exact repeats_function neat staged perm gathers quiet well gathers0 fits run

end Repeats

end Evaluation

/-! ### Actors -/

/-- What a transaction has gathered. -/
def Store.effects (s : Store) (i : Nat) : Effects := (s.transaction i).commit.1

lemma Store.sends_core (s : Store) (i : Nat) : s.core.sends i = (s.effects i).sends.toList := by
  simp only [Core.sends, core, effects, transaction]
  cases s.transactions[i]? with
  | none => rfl
  | some t => cases t <;> rfl

/-- A transaction that has not failed gathers. -/
lemma Store.gathers_core {s : Store} {cx : Context}
    (inside : cx.transaction < s.core.transactions.size)
    (sound : ¬ s.core.Failed cx) (alone : (s.effects cx.transaction).created = #[]) :
    s.core.Gathers cx.transaction #[] := by
  obtain ⟨t, ht⟩ : ∃ t, s.transactions[cx.transaction]? = some t :=
    ⟨_, Array.getElem?_eq_getElem inside⟩
  have htransaction : s.transaction cx.transaction = t := by rw [transaction, ht]; rfl
  cases t with
  | failed x =>
    refine absurd ?_ sound
    rw [Core.Failed, show s.core.store.transaction cx.transaction = .failed x from htransaction]
    rfl
  | gathering e =>
    rw [effects, htransaction] at alone
    exact ⟨e, ht, alone⟩

lemma Store.created_of_gathers {s : Store} {i : Nat} {made : Array StagedActor}
    (gathers : s.core.Gathers i made) : (s.effects i).created = made := by
  obtain ⟨e, he, rfl⟩ := gathers
  have hget : s.transactions[i]? = some (.gathering e) := he
  rw [effects, transaction, hget]
  rfl

/-- The actor begins the delivery that makes it run a block of these statements. -/
def Actor.play (a : Actor) (moment : Moment) (cue : Cue) (l : List Stmt) (env : Env) (w : World) :
    Delivery × World :=
  let (behavior, message, heap) := cue.prepare l env w.store.heap
  { a with behavior }.start moment message { w with store := { w.store with heap } }

/-- The delivery finishes on its first run. Up to the numbers of what is new, its outcome is `o`,
its heap is `h`, and these are its sends; and so is the value of each variable in the first frame
that it makes. -/
def Delivery.EndsLike (x : Delivery × World) (old : Heap) (vars : List String)
    (o : Outcome) (h : Heap) (sends : Array PendingSend) : Prop :=
  ∃ (bound : Nat) (t : Task .outcome) (s : Store) (o' : Outcome) (R : Likeness),
    (∀ fuel, bound ≤ fuel → x.1.task.advance fuel x.2.store = some (t, s)) ∧ t.answer? = some o' ∧
    R.Unique ∧ .on old.space.dom ≤ R ∧ s.heap.space.Like R h.space ∧ o'.Like R o ∧
    (∀ name ∈ vars, ∃ slot slot', (h.scope old.scopes.size).lookup name = some slot ∧
      (s.heap.scope old.scopes.size).lookup name = some slot' ∧
      Option.Rel (Value.Like R) (s.heap.slot? slot') (h.slot? slot)) ∧
    Multiset.Rel (PendingSend.Like R) (s.effects x.1.transaction).sends.toList sends.toList ∧
    (s.effects x.1.transaction).created = #[]

/-- Variables that stand for each other have values that are like each other. -/
lemma Heap.slot?_like {R : Likeness} {h h' : Heap} (like : h.space.Like R h'.space) {i j : Nat}
    (same : R .slot i j) : Option.Rel (Value.Like R) (h.slot? i) (h'.slot? j) := by
  have hslot : ∀ {h : Heap} {i : Nat} {content : Content}, h.space ⟨.slot, i⟩ = some content →
      content = .slot (h.slot? i) := by
    intro h i content hcontent
    obtain ⟨slot, hget, rfl⟩ := Option.map_eq_some_iff.1 hcontent
    rw [slot?, hget]
    cases slot <;> rfl
  obtain ⟨content, content', hi, hj, hlike⟩ := like.at_related same
  rw [hslot hi, hslot hj] at hlike
  cases hlike with
  | slot each => exact each

/-- A variable of a frame that stands for itself. -/
lemma Heap.exists_variable_like {R : Likeness} {h h' : Heap} (like : h'.space.Like R h.space)
    {frame : Nat} (same : R .scope frame frame) {name : String} {slot : Nat}
    (found : (h.scope frame).lookup name = some slot) :
    ∃ slot', (h'.scope frame).lookup name = some slot' ∧
      Option.Rel (Value.Like R) (h'.slot? slot') (h.slot? slot) := by
  have hscope := Space.scope_like like.sees same name
  rw [space_scope, space_scope, found] at hscope
  generalize (h'.scope frame).lookup name = found' at hscope
  cases hscope with
  | some hslot => exact ⟨_, rfl, slot?_like like hslot⟩

namespace Actor

open Evaluation Troupe.Task

/-- The task of a delivery that makes an actor run a block. -/
structure Plays (a : Actor) (moment : Moment) (cue : Cue) (l : List Stmt) (env : Env) (w : World)
    (x : Delivery × World) : Prop where
  context : x.1.task.context = ⟨w.store.agendas.size, w.store.transactions.size, moment.now⟩
  transaction : x.1.transaction = w.store.transactions.size
  core : x.2.store.core =
    ⟨(cue.prepare l env w.store.heap).2.2, w.store.newTransaction.2.transactions, w.store.ids⟩
  standing : Standing True x.1.task.context x.1.task.main x.2.store []
    [⟨.outcome, delivering cue l env w.store.heap moment.self a.exports a.env⟩]
  agrees : Agrees x.1.task.context (delivering cue l env w.store.heap moment.self
    a.exports a.env) []
    x.2.store.core

lemma plays_play {w : World} (sound : w.store.heap.Sound) (a : Actor) (moment : Moment) (cue : Cue)
    (l : List Stmt) (env : Env) : Plays a moment cue l env w (a.play moment cue l env w) := by
  obtain ⟨store, output, traces, fuel, exhausted⟩ := w
  have hsound : (cue.prepare l env store.heap).2.2.Sound := by
    cases cue with
    | function param message => exact (grows_newClosure store.heap _).sound sound
    | identity f => exact (grows_newBlock store.heap _).sound sound
  let prepared : Store := { store with heap := (cue.prepare l env store.heap).2.2 }
  refine ⟨rfl, rfl, rfl, ?_, ?_⟩
  · exact standing_spawn (s := prepared.newTransaction.2) (fun _ => hsound) moment.self false _ _ _
  · exact agrees_spawn prepared moment.self false moment.now _

/-- **The order of statements does not matter.** Let a delivery make an actor run a block, in an
intact store where each block declares what its statements bind. If it ends, not with a failure, and
has made no actors, then so does the delivery that runs the statements in another order: on its
first run, with the same outcome, the same values of all variables of the block and the same sends
in some order, up to the numbers of what is new. -/
theorem play_perm (a : Actor) (moment : Moment) (cue : Cue) (env : Env) (l l' : List Stmt)
    (perm : l.Perm l') (w : World) (intact : w.store.Intact) (tidy : w.store.heap.Tidy)
    (fits : cue.Fits w.store.heap) (staged : Stmt.Staged w.store.heap.space.dom l env
      a.env) (fuel : Nat) (t : Task .outcome) (s : Store) (o : Outcome)
    (run : (a.play moment cue l env w).1.task.advance fuel (a.play moment cue l env w).2.store =
      some (t, s))
    (answer : t.answer? = some o) (well : o ≠ .fail)
    (alone : (s.effects (a.play moment cue l env w).1.transaction).created = #[]) :
    Delivery.EndsLike (a.play moment cue l' env w) w.store.heap (ofList l).declared o s.heap
      (s.effects (a.play moment cue l env w).1.transaction).sends := by
  have first := plays_play intact.sound a moment cue l env
  have second := plays_play intact.sound a moment cue l' env
  generalize a.play moment cue l env w = x at *
  generalize a.play moment cue l' env w = x' at *
  rw [first.transaction] at alone ⊢
  obtain ⟨log, poll⟩ := poll_of_advance run
  obtain ⟨sound, inside, n, steps⟩ := steps_of_answer first.standing first.agrees poll answer well
  rw [first.core, first.context] at steps
  rw [first.context] at sound inside
  obtain ⟨gathers, quiet⟩ := gathers_newTransaction w.store
  obtain ⟨declared, ensures⟩ :=
    repeats (c := w.store.newTransaction.2.core) ⟨intact.closed, tidy⟩ staged
    perm gathers quiet well (Store.gathers_core inside sound alone) fits steps
  have ensures' : Ensures True x'.1.task.context
      (delivering cue l' env w.store.heap moment.self a.exports a.env) x'.2.store.core
      (Evaluation.EndsLike w.store.transactions.size w.store.heap.space.dom
        w.store.heap.scopes.size o s.core) := by
    rw [second.core, second.context]
    exact ensures
  obtain ⟨_, t', s', o', poll', hmain, ends, _⟩ := exists_poll_ensures second.standing ensures'
  obtain ⟨bound, hbound⟩ := advance_of_poll poll'
  obtain ⟨gathers', R, hR, hframe, like⟩ := ends
  refine ⟨bound, t', s', o', R, hbound, ?_, like.unique, hR, like.space,
    answer_like like, ?_, ?_, ?_⟩
  · rw [Task.answer?, hmain]
    rfl
  · intro name hname
    obtain ⟨slot, hslot⟩ := declared name hname
    obtain ⟨slot', hslot', hvalue⟩ := exists_variable_like like.space hframe hslot
    exact ⟨slot, slot', hslot, hslot', hvalue⟩
  · rw [second.transaction, ← Store.sends_core, ← Store.sends_core]
    exact like.sends
  · rw [second.transaction]
    exact Store.created_of_gathers gathers'

/-- Sends a variable, defines it by another one, defines that, and goes on as before: each statement
needs what comes after it. -/
def backward : List Stmt :=
  [.send (.ident "y") .self, .define (.ident "y") (.pair (.ident "x") (.lambda .any (.ident "x"))),
    .define (.ident "x") (.ident "m"), .become (.lambda .any (.ofStmt .empty))]

/-- An actor that has not done anything yet. -/
def novice : Actor := { behavior := .undefined, env := .empty, logger := none, exports := true }

/-- Its message, which the statements see as a variable. -/
def curtain : Cue := .function (.ident "m") (.number 7)

lemma intact_empty : ({} : Store).Intact := by
  refine ⟨⟨?_⟩, fun i entry hentry => ?_, ?_⟩
  · rintro k i j ⟨rfl, hi⟩
    cases k <;> exact absurd rfl hi
  · cases hentry
  · rintro task ticket slot ⟨ws, hws, _⟩
    cases hws

/-- The statements mention nothing, and the block in them declares what it binds. -/
lemma staged_backward (K : Set Address) : Stmt.Staged K backward .empty .empty := by
  refine ⟨fun s hs => ?_, fun s hs => ?_, .empty, .empty⟩ <;> simp only [backward, List.mem_cons,
    List.not_mem_nil, or_false] at hs
  · rcases hs with rfl | rfl | rfl | rfl
    all_goals simp [Stmt.Tidy, Expr.Tidy, Pattern.Tidy, Expr.ofStmt, declared, collectFrom]
  · rcases hs with rfl | rfl | rfl | rfl
    · exact .send (.ident "y") .self
    · exact .define (.ident "y") (.pair (.ident "x") (.lambda .any (.ident "x")))
    · exact .define (.ident "x") (.ident "m")
    · exact .become (.lambda .any (.block _ .empty))

/-- The statements may be written in the order of their dependence as well. -/
theorem backward_reversed : ∃ t s,
    (novice.play ⟨⟨1⟩, 0⟩ curtain backward .empty { fuel := 0 }).1.task.advance 60
      (novice.play ⟨⟨1⟩, 0⟩ curtain backward .empty { fuel := 0 }).2.store = some (t, s) ∧
    t.answer? = some (.become (.closure 2)) ∧
    Delivery.EndsLike (novice.play ⟨⟨1⟩, 0⟩ curtain backward.reverse .empty
      { fuel := 0 }) {} ["y", "x"]
      (.become (.closure 2)) s.heap
      (s.effects (novice.play ⟨⟨1⟩, 0⟩ curtain backward .empty
        { fuel := 0 }).1.transaction).sends := by
  have hrun : ((novice.play ⟨⟨1⟩, 0⟩ curtain backward .empty { fuel := 0 }).1.task.advance 60
      (novice.play ⟨⟨1⟩, 0⟩ curtain backward .empty { fuel := 0 }).2.store).map (fun x =>
        (x.1.answer?, (x.2.effects 0).created.size)) = some (some (.become (.closure 2)), 0) := by
    decide +kernel
  obtain ⟨⟨t, s⟩, run, heq⟩ := Option.map_eq_some_iff.1 hrun
  obtain ⟨answer, alone⟩ := Prod.mk.inj heq
  refine ⟨t, s, run, answer, play_perm novice ⟨⟨1⟩, 0⟩ curtain .empty backward backward.reverse
    (List.reverse_perm backward).symm { fuel := 0 } intact_empty ⟨nofun, nofun⟩
    ⟨trivial, .ident "m", .number 7⟩ (staged_backward _) 60 t s _ run answer nofun
    (Array.eq_empty_of_size_eq_zero alone)⟩

end Actor

end Troupe
