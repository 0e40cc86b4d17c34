import Troupe.Proofs.Ensures
import Troupe.Proofs.Reference
import Troupe.Proofs.Trampoline

/-!
Tasks do what the reference says.

A task evaluates an expression in pieces, as the limit on nesting and the ready queue demand. If the
reference semantics has a value for the expression, the small steps from left to right that lead to
it are steps of the soup of the task, so the task follows them to the same end, in whatever order it
takes them.

Numbers in the store stand for references, so the store is taken to be intact (`Store.Intact`), and
expressions and values to mention only what stands in it.

* `Task.evaluating`, `Task.applying`: a new task for an expression, or for the application of a
  function.
* `Reference.returned_by_task`: such a task returns what the reference says, on its first run.
-/

namespace Troupe

open Evaluation Store

/-- Nothing in the heap dangles, and only tasks that exist wait for slots. -/
structure Store.Intact (s : Store) : Prop where
  closed : s.heap.space.Closed s.heap.space.dom
  sound : s.heap.Sound
  waiters : ∀ {task ticket slot : Nat}, s.heap.Moored (.piece task ticket) slot →
    task < s.agendas.size

namespace Task

variable {g : Goal} {s : Store}

/-- A new task with a transaction of its own, for an evaluation that begins in the new store. -/
def launch (s : Store) (actor : ActorId) (muted : Bool) (now : Millis)
    (begin : Context → Store → Evaluation g × Store) : Task g × Store :=
  let (transaction, s) := s.newTransaction
  let (task, s) := s.newAgenda actor muted
  let (main, s) := begin ⟨task, transaction, now⟩ s
  (⟨⟨task, transaction, now⟩, main⟩, s)

/-- A new task that evaluates an expression, one level deeper than the place. -/
def evaluating (s : Store) (actor : ActorId) (muted : Bool) (now : Millis) (e : Expr)
    (here : Place) : Task .value × Store :=
  launch s actor muted now fun cx s => e.nest cx here s

/-- A new task that applies a function. -/
def applying (s : Store) (actor : ActorId) (muted : Bool) (now : Millis)
    (f a : Value) (depth : Nat) : Task .value × Store :=
  launch s actor muted now fun _ s => (.start (.apply f a depth), s)

/-- The task answers on its first run, with a value like `v` in a heap like `h`, where the addresses
in `old` stand for themselves. Nothing is left on the trampoline, and no detached piece. -/
def Returns (x : Task .value × Store) (old : Set Address) (v : Value) (h : Heap) : Prop :=
  ∃ (bound : Nat) (t : Task .value) (s : Store) (w : Value) (R : Likeness),
    (∀ fuel, bound ≤ fuel → x.1.advance fuel x.2 = some (t, s)) ∧ t.answer? = some w ∧
    R.Unique ∧ .on old ≤ R ∧ w.Like R v ∧ s.heap.space.Like R h.space ∧
    (s.agenda x.1.context.task).waiting = 0 ∧ (s.agenda x.1.context.task).members = 0

/-! ### New tasks -/

/-- A new task over the heap of the store, with one job to do. -/
structure Launched {g : Goal} (s : Store) (now : Millis) (x : Task g × Store)
    (job : Job g) : Prop where
  standing : Standing True x.1.context x.1.main x.2 [] [⟨g, .start job⟩]
  rostered : x.2.Rostered x.1.context.task
  gathers : x.2.core.Gathers x.1.context.transaction #[]
  sends : x.2.core.sends x.1.context.transaction = 0
  heap : x.2.heap = s.heap
  now : x.1.context.now = now

/-- A new transaction has gathered nothing. -/
lemma gathers_newTransaction (s : Store) : s.newTransaction.2.core.Gathers s.newTransaction.1 #[] ∧
    s.newTransaction.2.core.sends s.newTransaction.1 = 0 := by
  have hnew : s.newTransaction.2.core.transactions[s.newTransaction.1]? = some .empty :=
    Array.getElem?_push_size
  refine ⟨⟨_, hnew, rfl⟩, ?_⟩
  rw [Core.sends, hnew]
  rfl

/-- A new agenda has no pieces, and its task waits for nothing. -/
lemma rostered_newAgenda (intact : s.Intact) (actor : ActorId) (muted : Bool) :
    (s.newTransaction.2.newAgenda actor muted).2.Rostered s.agendas.size := by
  have hagenda : (s.newTransaction.2.newAgenda actor muted).2.agenda s.agendas.size =
      { actor, muted } := by
    simp [newTransaction, newAgenda, agenda]
  refine ⟨by simp [newTransaction, newAgenda], ?_, ?_⟩
  · rw [hagenda]
    refine ⟨le_rfl, fun t _ ht => ?_, rfl, ?_, ?_⟩
    · cases ht
    · rintro who i ⟨w, hw⟩
      cases hw
    · intro t ht
      cases ht
  · rintro who slot hm t rfl
    exact absurd (intact.waiters hm) (Nat.lt_irrefl _)

lemma launched_start (intact : s.Intact) (actor : ActorId) (muted : Bool)
    (now : Millis) (job : Job g) :
    Launched s now (launch s actor muted now fun _ s => (.start job, s)) job.flat where
  standing := standing_spawn (s := s.newTransaction.2) (fun _ => intact.sound) actor muted _ now job
  rostered := rostered_newAgenda intact actor muted
  gathers := (gathers_newTransaction s).1
  sends := (gathers_newTransaction s).2
  heap := rfl
  now := rfl

/-- A task that waits for a piece on its trampoline stands. -/
lemma standing_detach (sound : s.heap.Sound) (actor : ActorId) (muted : Bool) (transaction : Nat)
    (now : Millis) (job : Job g) : Standing True ⟨s.agendas.size, transaction, now⟩
      ((s.newAgenda actor muted).2.detach s.agendas.size job).1
      ((s.newAgenda actor muted).2.detach s.agendas.size job).2 [] [⟨g, .start job.flat⟩] := by
  have hsize : s.agendas.size < (s.newAgenda actor muted).2.agendas.size := by simp [newAgenda]
  have hagenda : ((s.newAgenda actor muted).2.detach s.agendas.size job).2.agenda s.agendas.size =
      ({ actor, muted } : Agenda).detach job := by
    rw [agenda_detach _ job hsize]
    simp [newAgenda, agenda]
  have hmain : ((s.newAgenda actor muted).2.detach s.agendas.size job).1 = .awaiting 0 := by
    simp [newAgenda, agenda, detach]
  have hpiece : ∀ t p, (({ actor, muted } : Agenda).detach job).pieces[t]? = some p →
      t = 0 ∧ p = { work := some ⟨g, .start job⟩ } := by
    intro t p hp
    simp only [Agenda.detach, Array.getElem?_push] at hp
    split at hp
    · rename_i ht
      cases hp
      exact ⟨ht, rfl⟩
    · simp at hp
  have hworking : ∀ t w, (({ actor, muted } : Agenda).detach job).cell t = some (.working w) →
      w = ⟨g, .start job⟩ := by
    intro t w hw
    obtain ⟨p, hp, hwork⟩ := Agenda.piece_of_working hw
    rw [(hpiece t p hp).2] at hwork
    cases hwork
    rfl
  rw [hmain]
  refine ⟨⟨?_, ?_, ?_, fun _ => sound, ?_, ?_, ?_, ?_⟩, ⟨insert 0 ∅ ∪ ∅, ?_, ?_⟩, trivial⟩
  · exact (size_modifyAgenda _ _).symm ▸ hsize
  all_goals rw [hagenda]
  · rfl
  · exact Nat.zero_le _
  · intro t w r hslip
    obtain ⟨p, hp, heq⟩ := Option.map_eq_some_iff.1 hslip
    rw [(hpiece t p hp).2] at heq
    cases heq
    exact ⟨none, rfl⟩
  · intro t p hp _ hqueued
    rw [(hpiece t p hp).2] at hqueued
    cases hqueued
  · intro t w hw
    rw [hworking t w hw]
    trivial
  · exact fun t w _ => .inr (.inr (.inl (Nat.zero_le t)))
  · exact .cons (.working (Agenda.cell_detach _ job) (.start job) (Set.notMem_empty 0)) .nil
      (Set.disjoint_empty _)
  · intro t ht
    by_contra hne
    refine ht ?_
    rw [Agenda.cell, Agenda.slip]
    cases hp : (({ actor, muted } : Agenda).detach job).pieces[t]? with
    | none => rfl
    | some p =>
      rw [(hpiece t p hp).1] at hne
      simp at hne

lemma launched_detach (intact : s.Intact) (actor : ActorId) (muted : Bool) (now : Millis)
    (job : Job .value) :
    Launched s now (launch s actor muted now fun cx s => s.detach cx.task job) job.flat where
  standing := standing_detach (s := s.newTransaction.2) intact.sound actor muted _ now job
  rostered := by
    have hrostered := rostered_newAgenda intact actor muted
    exact hrostered.modify (hrostered.agenda.detach job) le_rfl
  gathers := (gathers_newTransaction s).1
  sends := (gathers_newTransaction s).2
  heap := rfl
  now := rfl

/-- An expression is evaluated by the main evaluation, or by a piece. -/
lemma launched_evaluating (intact : s.Intact) (actor : ActorId) (muted : Bool)
    (now : Millis) (e : Expr)
    (here : Place) : Launched s now (evaluating s actor muted now e here)
    (.eval e ⟨here.env, 0⟩) := by
  by_cases hdepth : here.depth < maxNesting
  · have heval : evaluating s actor muted now e here = launch s actor muted now fun _ s =>
        (.start (.eval e { here with depth := here.depth + 1 }), s) := by
      simp only [evaluating, Expr.nest, nest, if_pos hdepth]
    rw [heval]
    exact launched_start intact actor muted now _
  · have heval : evaluating s actor muted now e here = launch s actor muted now fun cx s =>
        s.detach cx.task (.eval e { here with depth := 0 }) := by
      simp only [evaluating, Expr.nest, nest, if_neg hdepth]
    rw [heval]
    exact launched_detach intact actor muted now _

/-! ### The reference is followed -/

/-- The soup of a new task is its job. -/
lemma Launched.soup_eq {now : Millis} {x : Task .value × Store} {job : Job .value}
    (launched : Launched s now x job) :
    (start job).soup x.2.core x.1.context.transaction =
      ⟨{⟨.value, .start job⟩}, s.heap.space, 0⟩ := by
  have hthreads : (start job).threads = {⟨.value, .start job⟩} := by cases job <;> rfl
  have hheap : x.2.core.heap = s.heap := launched.heap
  rw [soup, hthreads, hheap, launched.sends]

/-- Small steps to a value are followed by the task. -/
lemma Launched.returns {now : Millis} {x : Task .value × Store} {job : Job .value}
    {v : Value} {h : Heap}
    (launched : Launched s now x job) (intact : s.Intact) (flat : job.flat = job)
    (inside : job.Like (.on s.heap.space.dom) .layer job)
    (guarded : job.Guarded False s.heap s.heap)
    (gets : Gets x.1.context (.start job) x.2.core (.done v) h) :
    Returns x s.heap.space.dom v h := by
  obtain ⟨n, steps⟩ := gets
  have hheap : x.2.core.heap = s.heap := launched.heap
  have sound : ((start job).soup x.2.core x.1.context.transaction).Sound := by
    rw [launched.soup_eq]
    exact .single intact.closed inside 0
  have proper : Proper x.1.context #[] False s.heap (.start job) x.2.core :=
    { flat := congrArg start flat
      gathers := launched.gathers
      sound
      room := hheap ▸ .refl s.heap
      code := False.elim
      guarded := hheap ▸ guarded }
  have gathers : ({ x.2.core with heap := h } : Core).Gathers x.1.context.transaction #[] :=
    launched.gathers
  obtain ⟨_, k, path⟩ := steps.path (fun doomed => by simpa using doomed.goal) gathers proper
  have ends := ends_done (g := .value) v { x.2.core with heap := h }
    x.1.context.transaction
  have like : ((start job).soup x.2.core x.1.context.transaction).Like
      (.on s.heap.space.dom) ((start job).soup x.2.core x.1.context.transaction) := by
    rw [launched.soup_eq]
    exact ⟨Likeness.unique_on _, intact.closed, .cons (.mk (.start inside)) .zero, .zero⟩
  have tracks : Tracks x.1.context (.on s.heap.space.dom) #[] _ k (.start job) x.2.core :=
    ⟨proper.flat, proper.gathers, _, _, le_rfl, like, sound, path⟩
  obtain ⟨log, t', s', w, poll, hmain, ⟨_, R, hR, like'⟩, standing⟩ :=
    exists_poll_ensures launched.standing (tracks.ensures ends)
  obtain ⟨bound, hbound⟩ := advance_of_poll poll
  rw [hmain] at standing
  obtain ⟨_, hwaiting, hmembers⟩ := standing.left_empty (poll.rostered launched.rostered)
  refine ⟨bound, t', s', w, R, hbound, ?_, like'.unique, hR, answer_like like', like'.space,
    hwaiting, hmembers⟩
  rw [answer?, hmain]
  rfl

end Task

/-! ### Expressions and applications -/

/-- **Tasks do what the reference says.** In an intact store, let the reference semantics have the
value `v` for an expression, with the heap `h` in the end. Then a task that evaluates the
expression, at any depth, returns `v` on its first run, up to the numbers of what is new. So does a
task that applies a function, and it makes no difference whether a function is applied by such a
task or by an expression. -/
theorem Reference.returned_by_task (s : Store) (intact : s.Intact) (actor : ActorId) (muted : Bool)
    (now : Millis) (fuel depth : Nat) (env : Env) (env_inside : env.Like (.on s.heap.space.dom) env)
    (v : Value) (h : Heap) :
    (∀ e : Expr, e.Like (.on s.heap.space.dom) e → eval now fuel e env s.heap = some (v, h) →
      Task.Returns (Task.evaluating s actor muted now e ⟨env, depth⟩) s.heap.space.dom v h) ∧
    ∀ f a : Value, f.Like (.on s.heap.space.dom) f → a.Like (.on s.heap.space.dom) a →
      apply now fuel f a s.heap = some (v, h) →
        Task.Returns (Task.applying s actor muted now f a depth) s.heap.space.dom v h ∧
        Task.Returns (Task.evaluating s actor muted now (.apply (.const f) (.const a)) ⟨env, depth⟩)
          s.heap.space.dom v h := by
  have evaluated : ∀ (n : Nat) (e : Expr), e.Like (.on s.heap.space.dom) e →
      eval now n e env s.heap = some (v, h) →
        Task.Returns (Task.evaluating s actor muted now e ⟨env, depth⟩) s.heap.space.dom v h := by
    intro n e inside heval
    have launched := Task.launched_evaluating intact actor muted now e ⟨env, depth⟩
    refine launched.returns intact rfl (.eval inside ⟨env_inside, rfl⟩)
      (List.forall_mem_singleton.2 False.elim) ?_
    refine eval_gets n ?_
    rw [launched.now]
    exact (congrArg (eval now n e env) launched.heap).trans heval
  refine ⟨evaluated fuel, fun f a f_inside a_inside happly => ⟨?_, ?_⟩⟩
  · have launched := Task.launched_start intact actor muted now (.apply f a depth)
    refine launched.returns intact rfl (.apply f_inside a_inside 0)
      (by simp [Job.Guarded, Job.flat, Job.items, Item.Guarded]) ?_
    refine apply_gets fuel ?_
    rw [launched.now]
    exact (congrArg (apply now fuel f a) launched.heap).trans happly
  · refine evaluated (fuel + 1) _ (.apply (.const f_inside) (.const a_inside)) ?_
    cases fuel with
    | zero => cases happly
    | succ n => exact happly

/-- A store with the identity function. -/
def Store.identity : Store := { heap := { closures := #[⟨.ident "x", .ident "x", .empty⟩] } }

lemma Store.intact_identity : identity.Intact := by
  refine ⟨⟨?_⟩, fun i entry hentry => ?_, ?_⟩
  · rintro k i j ⟨rfl, hi⟩
    cases k with
    | closure =>
      match i with
      | 0 => exact ⟨_, _, rfl, rfl, .closure ⟨.ident "x", .ident "x", .empty⟩⟩
      | i + 1 => exact absurd rfl hi
    | _ => exact absurd rfl hi
  · cases hentry
  · rintro task ticket slot ⟨ws, hws, _⟩
    cases hws

/-- The identity is applied at the limit of nesting. The expressions are detached there. -/
theorem Reference.identity_returned_by_task : ∃ h h' : Heap,
    Task.Returns (Task.evaluating .identity ⟨0⟩ true 0
      (.apply (.lambda (.ident "x") (.ident "x")) (.const (.number 5))) ⟨.empty, maxNesting⟩)
      identity.heap.space.dom (.number 5) h ∧
    Task.Returns (Task.applying .identity ⟨0⟩ true 0 (.closure 0) (.number 5) maxNesting)
      identity.heap.space.dom (.number 5) h' ∧
    Task.Returns (Task.evaluating .identity ⟨0⟩ true 0
      (.apply (.const (.closure 0)) (.const (.number 5))) ⟨.empty, maxNesting⟩)
      identity.heap.space.dom (.number 5) h' := by
  have returned := Reference.returned_by_task .identity intact_identity ⟨0⟩ true 0 4 maxNesting
    .empty .empty (.number 5)
  have inside : (Value.closure 0).Like (.on identity.heap.space.dom) (.closure 0) :=
    .closure ⟨rfl, fun h => nomatch h⟩
  exact ⟨_, _,
    (returned _).1 _ (.apply (.lambda (.ident "x") (.ident "x")) (.const (.number 5))) rfl,
    (returned _).2 _ _ inside (.number 5) rfl⟩

end Troupe
