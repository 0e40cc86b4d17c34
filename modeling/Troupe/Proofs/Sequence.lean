import Troupe.Proofs.Outbox

/-!
Sends in program order.

A sequence of sends nests: each send stands one level below the one before it. As long as all of
them, and their operands, stand above the limit of nesting, they are run one after the other
(`Evaluation.exists_run_sends`). With one send more only the operands of the last two are detached;
these are all evaluated before the statement goes on, so that the order is kept
(`Task.exists_rounds_sends`). Beyond that, operands and the rest of the sequence are detached
separately.
-/

namespace Troupe

open Array Job List Nat Option Store

variable {sent : List Value} {g : Goal} {cx : Context} {s : Store} {id : ActorId} {target : Expr}
  {a : Agenda} {env : Env}

/-! ### Runs above the limit of nesting -/

namespace Evaluation

variable {who : Waiter} {s' : Store} {depth : Nat}

/-- The messages gathered in the end; heap and agendas are as they were. -/
structure Posted (cx : Context) (id : ActorId) (sent : List Value) (s s' : Store) : Prop where
  heap : s'.heap = s.heap
  agendas : s'.agendas = s.agendas
  out : s'.core.Outbox cx id sent

lemma run_target (points : target.Points env s.heap id) (depth : Nat) :
    Run cx who (.start (.eval target ⟨env, depth⟩)) s [] (.done (.actor id)) s := by
  cases points with
  | const => exact .start rfl (.done _ _)
  | @ident name found =>
    have hbegin : (eval (.ident name) ⟨env, depth⟩).begin cx s = (.done (.actor id), s) := by
      simp only [begin, Expr.begin, Env.find, found]
    exact .start hbegin (.done _ _)

lemma run_const (v : Value) (env : Env) (s : Store) (depth : Nat) :
    Run cx who (.start (.eval (.const v) ⟨env, depth⟩)) s [] (.done v) s :=
  .start rfl (.done _ _)

/-- A send above the limit of nesting. -/
lemma exists_run_send (who : Waiter) (points : target.Points env s.heap id)
    (out : s.core.Outbox cx id sent) (m : Value) (low : depth < maxNesting) :
    ∃ log s', Run cx who (.start (.exec (.send (.const m) target) ⟨env, depth⟩)) s log
      (.done .ok) s' ∧ Posted cx id (sent ++ [m]) s s' := by
  obtain ⟨s', hsettle, hheap, hagendas, hout⟩ := out.send m
  have hbegin : (exec (.send (.const m) target) ⟨env, depth⟩).begin cx s =
      (.both (.start (.eval target ⟨env, depth + 1⟩)) (.start (.eval (.const m) ⟨env, depth + 1⟩))
        (.send none), s) := by
    simp only [begin, Stmt.begin, Stmt.beginSend, Expr.nest, nest, if_pos low]
  exact ⟨_, s', .start hbegin (.both (run_target points _) (run_const m env s _) hsettle
    (.done _ _)), hheap, hagendas, hout⟩

/-- Sends above the limit of nesting, in order. -/
theorem exists_run_sends (who : Waiter) : ∀ (ms : List Value) {sent : List Value} {s : Store}
    {depth : Nat}, target.Points env s.heap id → s.core.Outbox cx id sent →
      depth + ms.length ≤ maxNesting →
      ∃ log s', Run cx who (.start (.exec (.sends target ms) ⟨env, depth⟩)) s log (.done .ok) s' ∧
        Posted cx id (sent ++ ms) s s'
  | [], sent, s, depth, _, out, _ =>
    ⟨_, s, .start rfl (.done _ s), rfl, rfl, (append_nil sent).symm ▸ out⟩
  | [m], sent, s, depth, points, out, low => exists_run_send who points out m low
  | m :: m' :: ms, sent, s, depth, points, out, low => by
    simp only [List.length_cons] at low
    have hbegin : (exec (.sends target (m :: m' :: ms)) ⟨env, depth⟩).begin cx s =
        (.race (.start (.exec (.send (.const m) target) ⟨env, depth + 1⟩))
          (.start (.exec (.sends target (m' :: ms)) ⟨env, depth + 1⟩)), s) := by
      rw [Stmt.sends_cons target m (cons_ne_nil m' ms)]
      have hlow : depth < maxNesting := by omega
      simp only [begin, Stmt.begin, Stmt.nest, nest, if_pos hlow]
    obtain ⟨log, s1, hfirst, hposted⟩ :=
      exists_run_send who points out m (by omega : depth + 1 < maxNesting)
    have hlow : depth + 1 + (m' :: ms).length ≤ maxNesting := by
      simp only [length_cons]
      omega
    obtain ⟨log', s', hrest, hposted'⟩ :=
      exists_run_sends who (m' :: ms) (hposted.heap ▸ points) hposted.out hlow
    refine ⟨_, s', .start hbegin (.race hfirst (by simp) hrest rfl),
      hposted'.heap.trans hposted.heap, hposted'.agendas.trans hposted.agendas, ?_⟩
    have hout := hposted'.out
    rwa [List.append_assoc, List.singleton_append] at hout

end Evaluation

/-! ### Operands that are detached -/

/-- An operand that was detached, with the one who waits for its value. -/
def Piece.order (who : Waiter) (env : Env) (e : Expr) : Piece :=
  { work := some ⟨.value, .start (.eval e ⟨env, 0⟩)⟩, reply := .pending (some who) }

lemma Agenda.getElem?_detach (a : Agenda) (job : Job g) :
    (a.detach job).pieces[a.pieces.size]? = some { work := some ⟨g, .start job⟩ } := by
  simp only [Agenda.detach, getElem?_push, if_true]

lemma Agenda.getElem?_detach_of_lt (job : Job g) {i : Nat} (h : i < a.pieces.size) :
    (a.detach job).pieces[i]? = a.pieces[i]? := by
  simp only [Agenda.detach, getElem?_push, if_neg h.ne]

lemma Agenda.getElem?_read_of_ne {i p : Nat} (who : Waiter) (h : i ≠ p) :
    (a.read p who).pieces[i]? = a.pieces[i]? := by
  simp only [Agenda.read, Array.getElem?_modify, if_neg h.symm]

/-- Nothing was detached. -/
structure Agenda.Blank (a : Agenda) : Prop where
  pieces : a.pieces = #[]
  enlisted : a.enlisted = 0
  ready : a.ready.toList = []

lemma Agenda.Blank.waiting (h : a.Blank) : a.waiting = 0 := by
  rw [Agenda.waiting, h.pieces, h.enlisted]
  rfl

/-- Two operands are detached. -/
def Agenda.orders (a : Agenda) (who : Waiter) (env : Env) (first second : Expr) : Agenda :=
  { a with pieces := (a.pieces.push (.order who env first)).push (.order who env second) }

/-- Two evaluations are detached, and both are waited for. -/
lemma Agenda.orders_eq (a : Agenda) (who : Waiter) (env : Env) (first second : Expr) :
    (((a.detach (.eval first ⟨env, 0⟩)).detach (.eval second ⟨env, 0⟩)).read a.pieces.size who).read
      (a.pieces.size + 1) who = a.orders who env first second := by
  simp only [Agenda.read, Agenda.detach, Agenda.orders, Agenda.mk.injEq, and_true, true_and]
  apply Array.ext_getElem?
  intro i
  simp only [Array.getElem?_modify, Array.getElem?_push, Array.size_push, Piece.order]
  grind

namespace Store

variable {task p : Nat} {who : Waiter}

/-- The piece has answered a value that was not read yet. -/
def Answered (s : Store) (task p : Nat) (v : Value) : Prop :=
  (s.agenda task).slip p = some (none, .given ⟨.value, v⟩)

lemma slip_modifyPiece_of_ne {q : Nat} (f : Piece → Piece) (hne : q ≠ p) :
    ((s.modifyPiece task p f).agenda task).slip q = (s.agenda task).slip q := by
  unfold modifyPiece
  by_cases h : task < s.agendas.size
  · rw [agenda_modifyAgenda s _ h, Agenda.slip, Array.getElem?_modify, if_neg hne.symm, Agenda.slip]
  · simp only [modifyAgenda, agenda, Array.getElem?_modify,
      Array.getElem?_eq_none (Nat.le_of_not_lt h), Option.map_none, ite_self]

lemma Answered.read {v : Value} (h : s.Answered task p v) (who : Waiter) :
    s.readAnswer task p who =
      (some ⟨.value, v⟩, s.modifyPiece task p fun p => { p with reply := .taken }) := by
  obtain ⟨⟨work, reply, queued, woken, linked⟩, found, hpair⟩ := map_eq_some_iff.1 h
  cases hpair
  simp only [readAnswer, piece?, found]

lemma readAnswer_of_pending {piece : Piece} {reader : Option Waiter} (who : Waiter)
    (found : (s.agenda task).pieces[p]? = some piece) (pending : piece.reply = .pending reader) :
    s.readAnswer task p who =
      (none, s.modifyPiece task p fun p => { p with reply := .pending (some who) }) := by
  obtain ⟨work, reply, queued, woken, linked⟩ := piece
  subst pending
  simp only [readAnswer, piece?, found]

end Store

namespace Evaluation

lemma exists_run_await {p : Nat} {piece : Piece} {reader : Option Waiter} (who : Waiter)
    (size : cx.task < s.agendas.size) (found : (s.agenda cx.task).pieces[p]? = some piece)
    (pending : piece.reply = .pending reader) :
    ∃ s', Run cx who (.awaiting (g := g) p) s [] (.awaiting p) s' ∧ s'.heap = s.heap ∧
      s'.transactions = s.transactions ∧ s'.agendas.size = s.agendas.size ∧
      s'.agenda cx.task = (s.agenda cx.task).read p who := by
  have hread := readAnswer_of_pending who found pending
  refine ⟨_, .await hread, rfl, rfl, by simp [modifyPiece], ?_⟩
  have hagenda := s.agenda_readAnswer p who size
  rwa [hread] at hagenda

/-- A send that stands on the limit of nesting detaches its operands. -/
lemma exists_run_detached (who : Waiter) (size : cx.task < s.agendas.size) (target : Expr)
    (env : Env) (m : Value) {p : Nat} (hp : (s.agenda cx.task).pieces.size = p) :
    ∃ s', Run cx who (.start (.exec (.send (.const m) target) ⟨env, maxNesting⟩)) s []
        (.both (.awaiting p) (.awaiting (p + 1)) (.send none)) s' ∧
      s'.heap = s.heap ∧ s'.transactions = s.transactions ∧ s'.agendas.size = s.agendas.size ∧
      s'.agenda cx.task = (s.agenda cx.task).orders who env target (.const m) := by
  subst hp
  set p := (s.agenda cx.task).pieces.size
  set s1 := (s.detach cx.task (.eval target ⟨env, 0⟩)).2 with hs1
  set s2 := (s1.detach cx.task (.eval (.const m) ⟨env, 0⟩)).2 with hs2
  have size1 : cx.task < s1.agendas.size := by simpa [hs1, detach] using size
  have size2 : cx.task < s2.agendas.size := by simpa [hs2, detach] using size1
  have hagenda1 : s1.agenda cx.task = (s.agenda cx.task).detach (.eval target ⟨env, 0⟩) :=
    s.agenda_detach _ size
  have hagenda2 : s2.agenda cx.task = (s1.agenda cx.task).detach (.eval (.const m) ⟨env, 0⟩) :=
    s1.agenda_detach _ size1
  have hsize1 : (s1.agenda cx.task).pieces.size = p + 1 := by
    rw [hagenda1, Agenda.detach, size_push]
  have hbegin : (exec (.send (.const m) target) ⟨env, maxNesting⟩).begin cx s =
      (.both (.awaiting p) (.awaiting (p + 1)) (.send none), s2) := by
    rw [← hsize1]
    rfl
  -- neither operand has a value yet
  have hpiece := (s.agenda cx.task).getElem?_detach (.eval target ⟨env, 0⟩)
  rw [← hagenda1, ← Agenda.getElem?_detach_of_lt (.eval (.const m) ⟨env, 0⟩)
    (hsize1 ▸ lt_succ_self p), ← hagenda2] at hpiece
  obtain ⟨s3, hfirst, hheap3, htr3, hsize3, hagenda3⟩ :=
    exists_run_await who size2 hpiece rfl
  have hpiece' := (s1.agenda cx.task).getElem?_detach (.eval (.const m) ⟨env, 0⟩)
  rw [hsize1, ← hagenda2, ← Agenda.getElem?_read_of_ne who (succ_ne_self p),
    ← hagenda3] at hpiece'
  obtain ⟨s4, hsecond, hheap4, htr4, hsize4, hagenda4⟩ :=
    exists_run_await who (hsize3 ▸ size2) hpiece' rfl
  refine ⟨s4, .start hbegin (.bothWait hfirst hsecond (.inl rfl)), hheap4.trans hheap3,
    htr4.trans htr3, ?_, ?_⟩
  · rw [hsize4, hsize3]
    simp [hs2, hs1, detach]
  · rw [hagenda4, hagenda3, hagenda2, hagenda1, Agenda.orders_eq]

/-- A sequence of which the last two sends wait for their operands, the pieces from `p` on. The
others have finished. -/
def stalled (p : Nat) : List Value → Evaluation .outcome
  | [] =>
    .race (.both (.awaiting p) (.awaiting (p + 1)) (.send none))
      (.both (.awaiting (p + 2)) (.awaiting (p + 3)) (.send none))
  | _ :: l => .race (.done .ok) (stalled p l)

lemma waits_stalled (p : Nat) (l : List Value) : (stalled p l).Waits := by
  cases l <;> rfl

/-- With one send more than the limit allows, the operands of the last two are detached. -/
lemma exists_run_stalled (who : Waiter) (m m' : Value) {p : Nat} :
    ∀ (l : List Value) {sent : List Value} {s : Store} {depth : Nat}, target.Points env s.heap id →
      s.core.Outbox cx id sent → cx.task < s.agendas.size →
      (s.agenda cx.task).pieces.size = p → depth + l.length + 1 = maxNesting →
      ∃ log s', Run cx who (.start (.exec (.sends target (l ++ [m, m'])) ⟨env, depth⟩)) s log
          (stalled p l) s' ∧
        s'.heap = s.heap ∧ s'.core.Outbox cx id (sent ++ l) ∧ s'.agendas.size = s.agendas.size ∧
        s'.agenda cx.task = ((s.agenda cx.task).orders who env target (.const m)).orders who env
          target (.const m')
  | [], sent, s, depth, points, out, hlt, hp, hdepth => by
    have hbegin : (exec (.sends target [m, m']) ⟨env, depth⟩).begin cx s =
        (.race (.start (.exec (.send (.const m) target) ⟨env, maxNesting⟩))
          (.start (.exec (.send (.const m') target) ⟨env, maxNesting⟩)), s) := by
      have hlow : depth < maxNesting := hdepth ▸ Nat.lt_succ_self depth
      have hnext : depth + 1 = maxNesting := hdepth
      simp only [begin, Stmt.sends, Stmt.ofList, List.map, Stmt.begin, Stmt.nest, nest,
        if_pos hlow, hnext]
    obtain ⟨s1, hfirst, hheap1, htr1, hsize1, hagenda1⟩ :=
      exists_run_detached who hlt target env m hp
    have hp1 : (s1.agenda cx.task).pieces.size = p + 2 := by
      simp only [hagenda1, Agenda.orders, Array.size_push, hp]
    obtain ⟨s2, hsecond, hheap2, htr2, hsize2, hagenda2⟩ :=
      exists_run_detached who (hsize1 ▸ hlt) target env m' hp1
    refine ⟨_, s2, .start hbegin (.raceRightWaits hfirst (by simp) hsecond rfl),
      hheap2.trans hheap1, ?_, hsize2.trans hsize1, hagenda2.trans (by rw [hagenda1])⟩
    rw [append_nil]
    exact out.congr (htr2.trans htr1)
  | x :: l, sent, s, depth, points, out, hlt, hp, hdepth => by
    simp only [length_cons] at hdepth
    have hbegin : (exec (.sends target (x :: l ++ [m, m'])) ⟨env, depth⟩).begin cx s =
        (.race (.start (.exec (.send (.const x) target) ⟨env, depth + 1⟩))
          (.start (.exec (.sends target (l ++ [m, m'])) ⟨env, depth + 1⟩)), s) := by
      have hsome : l ++ [m, m'] ≠ [] :=
        append_ne_nil_of_right_ne_nil l (cons_ne_nil m [m'])
      rw [cons_append, Stmt.sends_cons target x hsome]
      have hlow : depth < maxNesting := by omega
      simp only [begin, Stmt.begin, Stmt.nest, nest, if_pos hlow]
    obtain ⟨log, s1, hfirst, hposted⟩ :=
      exists_run_send who points out x (by omega : depth + 1 < maxNesting)
    have hagenda1 : s1.agenda cx.task = s.agenda cx.task := by
      rw [agenda, hposted.agendas, agenda]
    obtain ⟨log', s', hrest, hheap, hout, hsize, hagenda⟩ :=
      exists_run_stalled who m m' l (hposted.heap ▸ points) hposted.out (hposted.agendas ▸ hlt)
        (hagenda1 ▸ hp) (by omega : depth + 1 + l.length + 1 = maxNesting)
    refine ⟨_, s', .start hbegin (.raceRightWaits hfirst (by simp) hrest (waits_stalled p l)),
      hheap.trans hposted.heap, ?_, hsize.trans (congrArg Array.size hposted.agendas), ?_⟩
    · rwa [List.append_assoc, List.singleton_append] at hout
    · rw [hagenda, hagenda1]

/-- A send whose operands have been evaluated. -/
lemma exists_run_answered (who : Waiter) {p : Nat} {m : Value}
    (first : s.Answered cx.task p (.actor id)) (second : s.Answered cx.task (p + 1) m)
    (out : s.core.Outbox cx id sent) :
    ∃ log s', Run cx who (.both (.awaiting p) (.awaiting (p + 1)) (.send none)) s log
        (.done .ok) s' ∧
      s'.core.Outbox cx id (sent ++ [m]) ∧
      ∀ q, p + 1 < q → (s'.agenda cx.task).slip q = (s.agenda cx.task).slip q := by
  set s1 := s.modifyPiece cx.task p fun p => { p with reply := .taken }
  set s2 := s1.modifyPiece cx.task (p + 1) fun p => { p with reply := .taken }
  have second1 : s1.Answered cx.task (p + 1) m :=
    (slip_modifyPiece_of_ne _ (succ_ne_self p)).trans second
  obtain ⟨s', hsettle, _, hagendas, hout⟩ := Core.Outbox.send (s := s2) out m
  refine ⟨_, s', .both (.answer (first.read who))
    (.answer (second1.read who)) hsettle (.done _ _), hout, ?_⟩
  intro q hq
  have hs' : s'.agenda cx.task = s2.agenda cx.task := by rw [agenda, hagendas, agenda]
  rw [hs', slip_modifyPiece_of_ne _ (by omega), slip_modifyPiece_of_ne _ (by omega)]

/-- Once all operands have been evaluated, the last two sends are made in order. -/
lemma exists_run_of_stalled (who : Waiter) {p : Nat} {m m' : Value}
    (h0 : s.Answered cx.task p (.actor id)) (h1 : s.Answered cx.task (p + 1) m)
    (h2 : s.Answered cx.task (p + 2) (.actor id)) (h3 : s.Answered cx.task (p + 3) m')
    (out : s.core.Outbox cx id sent) (l : List Value) :
    ∃ log s', Run cx who (stalled p l) s log (.done .ok) s' ∧
      s'.core.Outbox cx id (sent ++ [m, m']) := by
  induction l with
  | nil =>
    obtain ⟨log, s1, hfirst, hout1, hsame⟩ := exists_run_answered who h0 h1 out
    obtain ⟨log', s2, hsecond, hout2, _⟩ := exists_run_answered who
      ((hsame _ (by omega)).trans h2) ((hsame _ (by omega)).trans h3) hout1
    refine ⟨_, s2, .race hfirst nofun hsecond rfl, ?_⟩
    rwa [List.append_assoc] at hout2
  | cons x l ih =>
    obtain ⟨log, s', hrun, hout⟩ := ih
    exact ⟨_, s', .race (.done _ _) nofun hrun rfl, hout⟩

end Evaluation

/-! ### Passes over operands -/

namespace Task

open Evaluation

variable {s' : Store}

/-- A piece that needs nothing but the heap to get to its value, which the task waits for. -/
def Ripe (cx : Context) (s : Store) (p : Nat) (v : Value) : Prop :=
  ∃ e, (s.agenda cx.task).slip p = some (some ⟨.value, e⟩, .pending (some (.task cx.task))) ∧
    ∀ (who : Waiter) (s' : Store), s'.heap = s.heap → e.Run cx who s' [] (.done v) s'

lemma Ripe.congr {p : Nat} {v : Value} (h : Ripe cx s p v) (heap : s'.heap = s.heap)
    (slip : (s'.agenda cx.task).slip p = (s.agenda cx.task).slip p) : Ripe cx s' p v := by
  obtain ⟨e, hslip, hrun⟩ := h
  exact ⟨e, slip.trans hslip, fun who s1 h1 => hrun who s1 (h1.trans heap)⟩

/-- The first piece of the ready queue is taken, to be run. -/
lemma exists_take {p : Nat} {rest : List Nat} {w : Work} {reply : Reply}
    (size : cx.task < s.agendas.size) (ready : (s.agenda cx.task).ready.toList = p :: rest)
    (slip : (s.agenda cx.task).slip p = some (some w, reply)) :
    ∃ s1 s2, s.nextReady cx.task = (some p, s1) ∧ s1.takeWork cx.task p = (some w, s2) ∧
      s2.heap = s.heap ∧ s2.agendas.size = s.agendas.size ∧
      (s2.agenda cx.task).ready.toList = rest ∧
      ∀ q, (s2.agenda cx.task).slip q = (s.agenda cx.task).slip q := by
  rcases hnext : s.nextReady cx.task with ⟨_ | p', s1⟩
  · exact absurd ((nextReady_none hnext).1.symm.trans ready) nofun
  obtain ⟨ready', hready', rfl⟩ := nextReady_some hnext
  obtain ⟨rfl, rfl⟩ := cons.inj (hready'.symm.trans ready)
  set s1 := s.modifyAgenda cx.task fun a => { a with ready := ready' }
  have size1 : cx.task < s1.agendas.size := by rwa [size_modifyAgenda]
  have hagenda1 : s1.agenda cx.task = { s.agenda cx.task with ready := ready' } :=
    s.agenda_modifyAgenda _ size
  obtain ⟨⟨work, reply, queued, woken, linked⟩, hpiece, hpair⟩ := map_eq_some_iff.1 slip
  cases hpair
  have htake : s1.takeWork cx.task p' = (some w, s1.modifyPiece cx.task p' fun p =>
      { p with queued := false, woken := false }) := by
    simp only [takeWork, piece?, hagenda1, hpiece]
  have hagenda2 := s1.agenda_modifyAgenda (fun a => { a with
    pieces := a.pieces.modify p' fun p => { p with queued := false, woken := false } }) size1
  refine ⟨s1, _, rfl, htake, rfl, ?_, ?_, fun q => ?_⟩
  · simp only [modifyPiece, size_modifyAgenda, s1]
  · rw [modifyPiece, hagenda2, hagenda1]
  · rw [modifyPiece, hagenda2, hagenda1]
    exact Agenda.slip_of_modify
      (f := fun p => { p with queued := false, woken := false }) rfl (fun _ => rfl) (fun _ => rfl) q

/-- A piece that the task waits for has finished. -/
lemma finish_frame {p : Nat} {x : Option Work} (size : cx.task < s.agendas.size)
    (slip : (s.agenda cx.task).slip p = some (x, .pending (some (.task cx.task)))) (a : Answer) :
    (s.finish cx.task p a).heap = s.heap ∧
      (s.finish cx.task p a).agendas.size = s.agendas.size ∧
      ((s.finish cx.task p a).agenda cx.task).ready = (s.agenda cx.task).ready ∧
      ((s.finish cx.task p a).agenda cx.task).slip p = some (none, .given a) ∧
      ∀ q ≠ p, ((s.finish cx.task p a).agenda cx.task).slip q = (s.agenda cx.task).slip q := by
  rw [finish_eq, Agenda.reader?_of_slip slip]
  simp only [Option.toList_some, foldl_cons, foldl_nil]
  have hagenda : ((s.modifyAgenda cx.task (·.give p a)).wake (.task cx.task)).agenda cx.task =
      ((s.agenda cx.task).give p a).tell := by
    rw [agenda_wake _ _ (by rwa [size_modifyAgenda]), s.agenda_modifyAgenda _ size]
    exact if_pos rfl
  refine ⟨heap_wakeAll _ [.task cx.task], ?_, ?_, ?_, fun q hq => ?_⟩
  · exact (size_wakeAll _ [.task cx.task]).trans (s.size_modifyAgenda _)
  · rw [hagenda]
    rfl
  · rw [hagenda]
    exact Agenda.slip_give slip a
  · rw [hagenda]
    exact Agenda.slip_give_of_ne hq a

/-- A pass ends with the first piece, if that is ripe. -/
lemma exists_sweep_ripe {p : Nat} {rest : List Nat} {v : Value} (size : cx.task < s.agendas.size)
    (ready : (s.agenda cx.task).ready.toList = p :: rest) (ripe : Ripe cx s p v) (total : Nat) :
    ∃ s', Sweep cx total 0 0 s [] true s' ∧ s'.heap = s.heap ∧ s'.transactions = s.transactions ∧
      s'.agendas.size = s.agendas.size ∧ (s'.agenda cx.task).ready.toList = rest ∧
      s'.Answered cx.task p v ∧
      ∀ q ≠ p, (s'.agenda cx.task).slip q = (s.agenda cx.task).slip q := by
  obtain ⟨e, hslip, hrun⟩ := ripe
  obtain ⟨s1, s2, hnext, htake, hheap, hsize, hready, hsame⟩ := exists_take size ready hslip
  obtain ⟨hheap', hsize', hready', hslip', hothers⟩ :=
    finish_frame (hsize ▸ size) ((hsame p).trans hslip) ⟨.value, v⟩
  have hsweep : Sweep cx total 0 0 s [] true _ := .finish hnext htake (hrun _ s2 hheap)
  exact ⟨_, hsweep, hheap'.trans hheap, (hsweep.closed (course_closed cx) e).transactions.trans
    (modify_replay_nil ..), hsize'.trans hsize, (congrArg Fifo.toList hready').trans hready, hslip',
    fun q hq => (hothers q hq).trans (hsame q)⟩

lemma agenda_arm (size : cx.task < s.agendas.size) :
    (s.arm cx.task).2.agenda cx.task = { s.agenda cx.task with armed := true } :=
  s.agenda_modifyAgenda _ size

/-- Without a piece in the ready queue there is nothing to do. -/
lemma sweepAll_of_empty (size : cx.task < s.agendas.size)
    (ready : (s.agenda cx.task).ready.toList = []) : SweepAll cx s [] (s.arm cx.task).2 := by
  have hnext : (s.arm cx.task).2.nextReady cx.task = (none, (s.arm cx.task).2) := by
    rcases hnext : (s.arm cx.task).2.nextReady cx.task with ⟨_ | p, s1⟩
    · rw [(nextReady_none hnext).2]
    · obtain ⟨ready', hready', -⟩ := nextReady_some hnext
      rw [agenda_arm size] at hready'
      exact absurd (ready.symm.trans hready') nofun
  exact .last rfl (.empty hnext)

/-- If all pieces in the ready queue are ripe, all of them finish. -/
lemma exists_sweepAll_ripe (value : Nat → Value) : ∀ (tickets : List Nat) {s : Store},
    cx.task < s.agendas.size → (s.agenda cx.task).ready.toList = tickets → tickets.Nodup →
    (∀ p ∈ tickets, Ripe cx s p (value p)) →
      ∃ s', SweepAll cx s [] s' ∧ s'.heap = s.heap ∧ s'.transactions = s.transactions ∧
        s'.agendas.size = s.agendas.size ∧ (∀ p ∈ tickets, s'.Answered cx.task p (value p)) ∧
        ∀ q ∉ tickets, (s'.agenda cx.task).slip q = (s.agenda cx.task).slip q
  | [], s, hlt, ready, _, _ => by
    refine ⟨_, sweepAll_of_empty hlt ready, rfl, rfl, size_modifyAgenda _ _, nofun,
      fun q _ => ?_⟩
    rw [agenda_arm hlt]
    rfl
  | p :: rest, s, hlt, ready, nodup, ripe => by
    have hagenda := agenda_arm hlt
    have hsize : (s.arm cx.task).2.agendas.size = s.agendas.size := size_modifyAgenda _ _
    have hready : ((s.arm cx.task).2.agenda cx.task).ready.toList = p :: rest := by
      rw [hagenda, ready]
    have hripe : ∀ q ∈ p :: rest, Ripe cx (s.arm cx.task).2 q (value q) := fun q hq =>
      (ripe q hq).congr rfl (by rw [hagenda]; rfl)
    obtain ⟨s1, hpass, hheap, htr, hsize1, hready1, hanswer, hsame⟩ :=
      exists_sweep_ripe (hsize ▸ hlt) hready (hripe p mem_cons_self) (s.arm cx.task).1
    obtain ⟨hnotin, nodup'⟩ := nodup_cons.1 nodup
    have hne {q : Nat} (hq : q ∈ rest) : q ≠ p := fun h => hnotin (h ▸ hq)
    obtain ⟨s', hall, hheap', htr', hsize', hanswers, hothers⟩ := exists_sweepAll_ripe value rest
      (hsize1 ▸ hsize ▸ hlt) hready1 nodup'
      fun q hq => (hripe q (mem_cons_of_mem p hq)).congr hheap (hsame q (hne hq))
    refine ⟨s', .more rfl hpass hall, hheap'.trans hheap, htr'.trans htr,
      hsize'.trans (hsize1.trans hsize), fun q hq => ?_, fun q hq => ?_⟩
    · rcases mem_cons.1 hq with rfl | hq
      · exact (hothers _ hnotin).trans hanswer
      · exact hanswers q hq
    · rw [hothers q fun h => hq (mem_cons_of_mem p h),
        hsame q fun h => hq (h ▸ mem_cons_self), hagenda]
      rfl

lemma agenda_enlist (size : cx.task < s.agendas.size) :
    (s.enlist cx.task).agenda cx.task =
      (List.range' (s.agenda cx.task).enlisted (s.agenda cx.task).waiting).foldl Agenda.enroll
        { s.agenda cx.task with
          woken := false
          members := (s.agenda cx.task).members + (s.agenda cx.task).waiting
          enlisted := (s.agenda cx.task).pieces.size } :=
  s.agenda_modifyAgenda _ size

/-- A task from which nothing was detached has no piece to run. -/
lemma sweepAll_of_blank (size : cx.task < s.agendas.size) (blank : (s.agenda cx.task).Blank) :
    SweepAll cx (s.enlist cx.task) [] ((s.enlist cx.task).arm cx.task).2 ∧
      ((s.enlist cx.task).arm cx.task).2.agendas.size = s.agendas.size ∧
      (((s.enlist cx.task).arm cx.task).2.agenda cx.task).Blank := by
  have hsize : (s.enlist cx.task).agendas.size = s.agendas.size := size_modifyAgenda _ _
  have hagenda := agenda_enlist size
  rw [blank.waiting] at hagenda
  have hblank : ((s.enlist cx.task).agenda cx.task).Blank := by
    rw [hagenda]
    exact ⟨blank.pieces, congrArg Array.size blank.pieces, blank.ready⟩
  refine ⟨sweepAll_of_empty (hsize ▸ size) hblank.ready, ?_, ?_⟩
  · rw [← hsize, arm, size_modifyAgenda]
  · rw [agenda_arm (hsize ▸ size)]
    exact ⟨hblank.pieces, hblank.enlisted, hblank.ready⟩

/-- The operands of the last two sends are evaluated before the statement goes on. -/
lemma exists_rounds_stalled {m m' : Value} (points : target.Points env s.heap id)
    (out : s.core.Outbox cx id sent) (size : cx.task < s.agendas.size) (blank : a.Blank)
    (agenda : s.agenda cx.task = (a.orders (.task cx.task) env target (.const m)).orders
      (.task cx.task) env target (.const m')) (l : List Value) :
    ∃ log s', Rounds cx (stalled 0 l) s log (.done .ok) s' ∧
      s'.core.Outbox cx id (sent ++ [m, m']) := by
  have hpieces : (s.agenda cx.task).pieces = #[.order (.task cx.task) env target,
      .order (.task cx.task) env (.const m), .order (.task cx.task) env target,
      .order (.task cx.task) env (.const m')] := by
    simp only [agenda, Agenda.orders, blank.pieces]
    rfl
  have henlisted : (s.agenda cx.task).enlisted = 0 := by
    rw [agenda]
    exact blank.enlisted
  have hready : (s.agenda cx.task).ready.toList = [] := by
    rw [agenda]
    exact blank.ready
  have hwaiting : (s.agenda cx.task).waiting = 4 := by
    rw [Agenda.waiting, hpieces, henlisted]
    rfl
  have hagenda := agenda_enlist size
  rw [hwaiting, henlisted] at hagenda
  have hready' : ((s.enlist cx.task).agenda cx.task).ready.toList = [0, 1, 2, 3] := by
    rw [hagenda, Agenda.ready_enrollAll]
    exact congrArg (· ++ [0, 1, 2, 3]) hready
  have hslip (p : Nat) :
      ((s.enlist cx.task).agenda cx.task).slip p = (s.agenda cx.task).slip p := by
    rw [hagenda, Agenda.slip_enrollAll]
    rfl
  have hsize : (s.enlist cx.task).agendas.size = s.agendas.size := size_modifyAgenda _ _
  have htarget {p : Nat}
      (hp : (s.agenda cx.task).pieces[p]? = some (.order (.task cx.task) env target)) :
      Ripe cx (s.enlist cx.task) p (.actor id) := by
    refine ⟨_, (hslip p).trans (by rw [Agenda.slip, hp]; rfl), fun who s' heap => ?_⟩
    exact run_target (heap ▸ points) 0
  have hconst {p : Nat} {v : Value}
      (hp : (s.agenda cx.task).pieces[p]? = some (.order (.task cx.task) env (.const v))) :
      Ripe cx (s.enlist cx.task) p v := by
    refine ⟨_, (hslip p).trans (by rw [Agenda.slip, hp]; rfl), fun who s' heap => ?_⟩
    exact run_const v env s' 0
  let value : Nat → Value := fun p => if p = 1 then m else if p = 3 then m' else .actor id
  have hripe : ∀ p ∈ [0, 1, 2, 3], Ripe cx (s.enlist cx.task) p (value p) := by
    intro p hp
    simp only [mem_cons, not_mem_nil, or_false] at hp
    rcases hp with rfl | rfl | rfl | rfl
    · exact htarget (by rw [hpieces]; rfl)
    · exact hconst (by rw [hpieces]; rfl)
    · exact htarget (by rw [hpieces]; rfl)
    · exact hconst (by rw [hpieces]; rfl)
  obtain ⟨s1, hswept, hheap, htr, _, hanswers, _⟩ :=
    exists_sweepAll_ripe value [0, 1, 2, 3] (hsize ▸ size) hready' (by decide) hripe
  have hout : s1.core.Outbox cx id sent := out.congr htr
  obtain ⟨log, s', hrun, hout'⟩ := exists_run_of_stalled (.task cx.task)
    (hanswers 0 (by decide)) (hanswers 1 (by decide)) (hanswers 2 (by decide))
    (hanswers 3 (by decide)) hout l
  exact ⟨_, s', .finish hswept hrun, hout'⟩

/-- Up to the limit of nesting, messages are sent in order. -/
theorem exists_rounds_sends (points : target.Points env s.heap id) (out : s.core.Outbox cx id [])
    (size : cx.task < s.agendas.size) (blank : (s.agenda cx.task).Blank) (ms : List Value)
    (short : ms.length ≤ maxNesting) :
    ∃ log s', Rounds cx (.start (.exec (.sends target ms) ⟨env, 1⟩)) s log (.done .ok) s' ∧
      s'.core.Outbox cx id ms := by
  obtain ⟨hswept, hsize, hblank⟩ := sweepAll_of_blank size blank
  set s1 := ((s.enlist cx.task).arm cx.task).2
  rcases Nat.lt_or_ge ms.length maxNesting with hlt | hge
  · obtain ⟨log, s', hrun, hposted⟩ := exists_run_sends (s := s1) (.task cx.task) ms points out
      (by omega : 1 + ms.length ≤ maxNesting)
    exact ⟨_, s', .finish hswept hrun, hposted.out⟩
  · obtain ⟨l, m, m', rfl⟩ : ∃ l m m', ms = l ++ [m, m'] := by
      rcases ms.eq_nil_or_concat with rfl | ⟨ms, m', rfl⟩
      · exact absurd hge (by decide)
      rcases ms.eq_nil_or_concat with rfl | ⟨l, m, rfl⟩
      · exact absurd hge (by decide : ¬ 32 ≤ 1)
      refine ⟨l, m, m', ?_⟩
      simp only [List.concat_eq_append, List.append_assoc, List.singleton_append]
    have hdepth : 1 + l.length + 1 = maxNesting := by
      simp only [length_append, length_cons, length_nil] at short hge
      omega
    have hp : (s1.agenda cx.task).pieces.size = 0 := congrArg Array.size hblank.pieces
    obtain ⟨log, s2, hrun, hheap, hout, hsize2, hagenda⟩ := exists_run_stalled (s := s1)
      (.task cx.task) m m' l points out (hsize ▸ size) hp hdepth
    have hastir : Astir cx s2 := by
      refine .inr ?_
      simp [hagenda, Agenda.waiting, Agenda.orders, hblank.pieces, hblank.enlisted]
    obtain ⟨log', s', hrounds, hout'⟩ := exists_rounds_stalled (hheap ▸ points) hout
      (hsize2 ▸ hsize ▸ size) hblank hagenda l
    exact ⟨_, s', .again hswept hrun (waits_stalled 0 l) hastir hrounds, hout'⟩

end Task

end Troupe
