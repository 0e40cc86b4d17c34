import Troupe.Proofs.Failure
import Troupe.Proofs.Outside

/-!
A task that waits is blocked.

When the run of a task ends before its main evaluation has finished, nothing is left that could be
run: every part that has not finished waits for a slot that is not bound, or for the answer of a
piece that waits, too (`Task.Blocked`). Whatever happens outside of the task meanwhile, it stays in
order (`Task.Standing.outside`).

* `Task.Driven`: a task that was opened with a job, after any number of runs.
* `Task.blocked_of_unanswered`: after a run, a task has answered or is blocked.
-/

namespace Troupe

open Agenda False

variable {cx : Context} {dropped trees : List Work}

namespace Task

open Evaluation

/-! ### What happens outside -/

lemma Orderly.outside {s s' : Store} (ho : Orderly True cx s fun _ => False)
    (other : s.Outside cx.task s') : Orderly True cx s' fun _ => False := by
  obtain ⟨ws, hws⟩ := other.told ho.size
  have hlater := Later.toldAll cx.task ws (s.agenda cx.task)
  rw [← hws] at hlater
  refine ho.later (Nat.lt_of_lt_of_le ho.size other.size) hlater
    (fun _ => other.heap.sound (ho.sound trivial)) (fun _ => other.heap.slots) ?_
    fun _ t w slot hw hm => other.moored ho.size _ slot (ho.listens hw) hm
  rintro t w _ _ u _ ⟨w', hw'⟩
  exact ⟨w', by rw [hws, slip_toldAll, hw']⟩

lemma Standing.outside {g : Goal} {main : Evaluation g} {s s' : Store}
    (h : Standing True cx main s dropped trees) (other : s.Outside cx.task s') :
    Standing True cx main s' dropped trees := by
  obtain ⟨ws, hws⟩ := other.told h.orderly.size
  refine ⟨h.orderly.outside other, h.laid.congr fun t => cell_congr ?_, ?_⟩
  · rw [hws, slip_toldAll]
  · exact Fit.mono (fun _ hb _ => Nat.lt_of_lt_of_le (hb trivial) other.heap.slots) h.sits

/-- An evaluation of the task that rests goes on resting, or was told something. -/
lemma Standing.rests_outside {g : Goal} {main : Evaluation g} {s s' : Store}
    (h : Standing True cx main s dropped trees) (other : s.Outside cx.task s')
    (rests : main.Rests True cx (.task cx.task) s) : main.Rests True cx (.task cx.task) s' := by
  obtain ⟨ws, hws⟩ := other.told h.orderly.size
  rcases rests with hdone | hidle | hheard
  · exact .inl hdone
  · by_cases hheard : (s'.agenda cx.task).Heard (.task cx.task)
    · exact .inr (.inr hheard)
    · refine .inr (.inl (hidle.mono ?_ ?_))
      · rintro u _ ⟨w, hw⟩
        exact ⟨w, by rw [hws, slip_toldAll, hw]⟩
      · intro slot hm _
        have hlistens : (s.agenda cx.task).Listens cx.task (.task cx.task) := rfl
        exact (other.moored h.orderly.size _ slot hlistens (hm trivial)).resolve_right hheard
  · refine .inr (.inr ?_)
    rw [hws]
    exact (Later.toldAll cx.task ws _).heard hheard

/-! ### After a run -/

/-- A task at rest: it was told nothing, nothing is detached or ready, and all of it waits. -/
structure AtRest (cx : Context) {g : Goal} (main : Evaluation g) (s : Store) : Prop where
  unheard : (s.agenda cx.task).woken = false
  trampoline : (s.agenda cx.task).waiting = 0
  ready : (s.agenda cx.task).ready.toList = []
  armed : (s.agenda cx.task).armed = true
  main : main.Idle ((s.agenda cx.task).Registered (.task cx.task)) (s.heap.Moored (.task cx.task))
  pieces : ∀ t w, (s.agenda cx.task).cell t = some (.working w) →
    w.evaluation.Idle ((s.agenda cx.task).Registered (.piece cx.task t))
      (s.heap.Moored (.piece cx.task t))

variable {g : Goal} {main main' : Evaluation g} {s s' : Store} {log : List Request}

/-- In a lull, a task is at rest if its main evaluation waits. -/
lemma Standing.atRest (h : Standing True cx main s dropped trees) (lull : Lull True cx main s)
    (waits : main.Waits) : AtRest cx main s := by
  obtain ⟨hwoken, hwaiting⟩ := of_still lull.still
  obtain ⟨hready, harmed⟩ := lull.alarm.resolve_left (Bool.eq_false_iff.1 hwoken)
  refine ⟨hwoken, hwaiting, hready, harmed, ?_, fun t w hw => ?_⟩
  · exact (lull.rests.idle waits (Bool.eq_false_iff.1 hwoken)).mono (fun _ _ hr => hr)
      fun _ hm => hm trivial
  · exact (h.pieces lull hw).mono (fun _ _ hr => hr) fun _ hm => hm trivial

/-- A run of a task that ends before the main evaluation has finished leaves it at rest. -/
theorem Poll.atRest {t t' : Task g} (h : Poll t s log t' s')
    (hst : Standing True t.context t.main s dropped trees) (waits : t'.main.Waits) :
    AtRest t.context t'.main s' := by
  obtain ⟨s1, hrounds, _, rfl⟩ := h
  obtain ⟨ho, hslip⟩ := hst.orderly.running true
  obtain ⟨n, ds, trees', hst', _, hlull⟩ := hrounds.standing (hst.flags ho hslip rfl)
  have hrest := hst'.atRest (hlull waits) waits
  have hagenda : (running t.context false s1).agenda t.context.task =
      { s1.agenda t.context.task with running := false } :=
    s1.agenda_modifyAgenda _ hst'.orderly.size
  have hcell : ∀ u, ((running t.context false s1).agenda t.context.task).cell u =
      (s1.agenda t.context.task).cell u := fun u => by rw [hagenda]; rfl
  have hregistered : ∀ who u, (s1.agenda t.context.task).Registered who u →
      ((running t.context false s1).agenda t.context.task).Registered who u :=
    fun who u hu => by rw [hagenda]; exact hu
  refine ⟨?_, ?_, ?_, ?_, hrest.main.mono (fun u _ => hregistered _ u) fun _ => id,
    fun u w hw => ?_⟩
  · rw [hagenda]
    exact hrest.unheard
  · rw [hagenda]
    exact hrest.trampoline
  · rw [hagenda]
    exact hrest.ready
  · rw [hagenda]
    exact hrest.armed
  · rw [hcell] at hw
    exact (hrest.pieces u w hw).mono (fun u _ => hregistered _ u) fun _ => id

end Task

/-! ### Nothing is dropped while a task waits -/

/-- A statement that fails makes the rest of its block fail. -/
lemma Frame.resume_failure {g h : Goal} (frame : Frame g h) (cx : Context)
    (s : Store) {r : g.Result}
    (hr : Goal.Failure r) : ∃ r', (frame.resume r cx s).1 = .done r' ∧ Goal.Failure r' := by
  cases frame with
  | offer vars env =>
    cases (show r = Outcome.fail from hr)
    exact ⟨_, rfl, rfl⟩
  | _ => exact hr.elim

lemma Outcome.join_failure (a b : Outcome) (cx : Context) (s : Store) (h : a = .fail ∨ b = .fail) :
    a.join b cx s = (.done .fail, s) := by
  rcases h with rfl | rfl
  · rfl
  · cases a <;> rfl

namespace Evaluation

variable {g : Goal} {f f' : Evaluation g} {c c' : Core} {ds : List Work}

/-- A tree that holds a failure keeps it, and only such a tree drops something. -/
lemma Micro.keeps_failure (h : Micro cx f c f' ds c') :
    (f.Fails → f'.Fails) ∧ (ds ≠ [] → f.Fails) := by
  induction h with
  | start | read => exact ⟨elim, fun h => absurd rfl h⟩
  | @resume g h r frame c =>
    refine ⟨fun hr => ?_, fun h => absurd rfl h⟩
    obtain ⟨r', hdone, hr'⟩ := frame.resume_failure cx c.store hr
    rw [hdone]
    exact hr'
  | join a b join c => exact ⟨fun h => absurd h (modest_both _ _ join).sound, fun h => absurd rfl h⟩
  | merge a b c =>
    refine ⟨fun hfail => ?_, fun h => absurd rfl h⟩
    rw [a.join_failure b cx c.store hfail]
    rfl
  | failLeft right c => exact ⟨fun _ => rfl, fun _ => .inl rfl⟩
  | failRight left c => exact ⟨fun _ => rfl, fun _ => .inr rfl⟩
  | one frame _ ih => exact ih
  | bothLeft right join _ ih | raceLeft right _ ih => exact ⟨Or.imp ih.1 id, fun h => .inl (ih.2 h)⟩
  | bothRight left join _ ih | raceRight left _ ih => exact ⟨Or.imp id ih.1, fun h => .inr (ih.2 h)⟩

/-- Something was dropped only if the first tree holds a failure. -/
def Alone (g : Goal) (trees : List Work) : Prop :=
  ∃ (f : Evaluation g) (rest : List Work), trees = ⟨g, f⟩ :: rest ∧ (rest ≠ [] → f.Fails)

lemma Forest.alone {n : Nat} {trees' : List Work} (h : Forest cx n trees c trees' c') :
    Alone g trees → Alone g trees' := by
  induction h with
  | refl trees c => exact id
  | park slot who _ ih => exact ih
  | @step n before after trees' k f f' ds c c1 c' first _ ih =>
    rintro ⟨f0, rest, htrees, halone⟩
    obtain ⟨hkept, hdrops⟩ := first.keeps_failure
    refine ih ?_
    cases before with
    | nil =>
      simp only [List.nil_append, List.cons.injEq, Work.mk.injEq] at htrees
      obtain ⟨⟨rfl, hf⟩, rfl⟩ := htrees
      cases hf
      refine ⟨f', after ++ ds, rfl, fun hrest => hkept ?_⟩
      by_cases hds : ds = []
      · subst hds
        rw [List.append_nil] at hrest
        exact halone hrest
      · exact hdrops hds
    | cons w before =>
      simp only [List.cons_append, List.cons.injEq] at htrees
      obtain ⟨rfl, rfl⟩ := htrees
      exact ⟨f0, _, rfl, fun _ => halone (by simp)⟩

/-- A ticket in a tree stands there because the evaluation, or a piece in the tree, waits for it. -/
lemma Unfolds.awaited {cell : Nat → Option Cell} {e : Evaluation g} {ts : Set Nat}
    (h : Unfolds cell e f ts) : ∀ t ∈ ts, t ∈ e.awaits ∨
      ∃ p ∈ ts, ∃ w, cell p = some (.working w) ∧ t ∈ w.evaluation.awaits := by
  induction h with
  | done | start | parked => exact fun _ ht => ht.elim
  | @working g ticket e f ts known _ _ ih =>
    rintro t (rfl | ht)
    · exact .inl rfl
    · rcases ih t ht with hin | ⟨p, hp, w, hw, hin⟩
      · exact .inr ⟨ticket, Set.mem_insert .., _, known, hin⟩
      · exact .inr ⟨p, Set.mem_insert_of_mem _ hp, w, hw, hin⟩
  | given known => exact fun _ ht => .inl ht
  | one frame _ ih => exact ih
  | both join _ _ _ ih1 ih2 | race _ _ _ ih1 ih2 =>
    rintro t (ht | ht)
    · exact (ih1 t ht).imp .inl fun ⟨p, hp, h⟩ => ⟨p, .inl hp, h⟩
    · exact (ih2 t ht).imp .inr fun ⟨p, hp, h⟩ => ⟨p, .inr hp, h⟩

/-- The slots that an evaluation itself waits for. -/
def parks : {g : Goal} → Evaluation g → Set Nat
  | _, .parked slot => {slot}
  | _, .one part _ => part.parks
  | _, .both left right _ => left.parks ∪ right.parks
  | _, .race left right => left.parks ∪ right.parks
  | _, _ => ∅

/-- The tickets and the slots that a waiting evaluation waits for. -/
lemma Idle.leaves {R P : Nat → Prop} {e : Evaluation g} (h : e.Idle R P) :
    (∀ t ∈ e.awaits, R t) ∧ ∀ slot ∈ e.parks, P slot := by
  induction h with
  | parked h => exact ⟨fun _ => elim, fun _ hs => hs ▸ h⟩
  | awaiting h => exact ⟨fun _ ht => ht ▸ h, fun _ => elim⟩
  | one frame _ ih => exact ih
  | both join _ _ ih1 ih2 | race _ _ ih1 ih2 =>
    exact ⟨fun t ht => ht.elim (ih1.1 t) (ih2.1 t), fun t ht => ht.elim (ih1.2 t) (ih2.2 t)⟩
  | bothLeft _ _ _ ih | raceLeft _ _ ih =>
    exact ⟨fun t ht => ht.elim (ih.1 t) elim, fun t ht => ht.elim (ih.2 t) elim⟩
  | bothRight _ _ _ ih | raceRight _ _ ih =>
    exact ⟨fun t ht => ht.elim elim (ih.1 t), fun t ht => ht.elim elim (ih.2 t)⟩

/-- What waits for slots only waits for at least one. -/
lemma Idle.exists_parks {P : Nat → Prop} {e : Evaluation g} (h : e.Idle (fun _ => False) P) :
    ∃ slot, slot ∈ e.parks := by
  induction h with
  | @parked slot h => exact ⟨slot, rfl⟩
  | awaiting h => exact h.elim
  | one frame _ ih => exact ih
  | both join _ _ ih _ | bothLeft join _ b ih | race _ _ ih _ | raceLeft _ _ ih =>
    exact ih.imp fun _ => .inl
  | bothRight join a _ ih | raceRight _ _ ih => exact ih.imp fun _ => .inr

/-- A slot that a tree waits for is waited for by the evaluation or by a piece in the tree. -/
lemma Unfolds.parks {cell : Nat → Option Cell} {e : Evaluation g} {ts : Set Nat}
    (h : Unfolds cell e f ts) : ∀ slot ∈ f.parks, slot ∈ e.parks ∨
      ∃ p ∈ ts, ∃ w, cell p = some (.working w) ∧ slot ∈ w.evaluation.parks := by
  induction h with
  | done | start | given => exact fun _ hs => hs.elim
  | parked slot => exact fun _ hs => .inl hs
  | @working g ticket e f ts known _ _ ih =>
    intro slot hs
    rcases ih slot hs with hin | ⟨p, hp, w, hw, hin⟩
    · exact .inr ⟨ticket, Set.mem_insert .., _, known, hin⟩
    · exact .inr ⟨p, Set.mem_insert_of_mem _ hp, w, hw, hin⟩
  | one frame _ ih => exact ih
  | both join _ _ _ ih1 ih2 | race _ _ _ ih1 ih2 =>
    rintro slot (hs | hs)
    · exact (ih1 slot hs).imp .inl fun ⟨p, hp, h⟩ => ⟨p, .inl hp, h⟩
    · exact (ih2 slot hs).imp .inr fun ⟨p, hp, h⟩ => ⟨p, .inr hp, h⟩

end Evaluation

/-! ### Tasks after any number of runs -/

/-- The piece has not finished, and tells `who` when it does. -/
def Agenda.Owes (a : Agenda) (who : Waiter) (ticket : Nat) : Prop :=
  ∃ p w, a.pieces[ticket]? = some p ∧ p.work = some w ∧ p.reply = .pending (some who)

namespace Task

open Evaluation

/-- A task that was opened with a job when the heap was `old`, after any number of runs and of
things that happen outside of it. `P` is what the others keep up of the heap. -/
inductive Driven (P : Heap → Prop) {g : Goal} (job : Job g) (old : Heap) :
    Task g → Store → Prop where
  | opened {s : Store} (began : s.heap = old) (sound : s.heap.Sound) (promise : P s.heap)
      (actor : ActorId) (muted : Bool) (transaction : Nat) (now : Millis) :
      Driven P job old (spawn s actor muted transaction now (.start job)).1
        (spawn s actor muted transaction now (.start job)).2
  | outside {t : Task g} {s s' : Store} (before : Driven P job old t s)
      (other : s.Outside t.context.task s') (promise : P s'.heap) : Driven P job old t s'
  /-- The wake-ups that were asked for are passed on. -/
  | passed {t : Task g} {s : Store} (before : Driven P job old t s) :
      Driven P job old t { s with wakeups := #[] }
  | polled {t t' : Task g} {s s' : Store} {fuel : Nat} (before : Driven P job old t s)
      (run : t.advance fuel s = some (t', s')) : Driven P job old t' s'

/-- The task waits, and nothing of it can be run: nothing is detached or ready, no answer is left
unread, and every part that has not finished waits for a slot that is not bound, with its own entry
on the waiting list of the slot, or for the answer of a piece that has not finished. Something waits
for a slot. -/
structure Blocked {g : Goal} (t : Task g) (s : Store) : Prop where
  trampoline : (s.agenda t.context.task).waiting = 0
  ready : (s.agenda t.context.task).ready.toList = []
  unread : ∀ (ticket : Nat) (p : Piece) (a : Answer),
    (s.agenda t.context.task).pieces[ticket]? = some p → p.reply ≠ .given a
  main : t.main.Idle ((s.agenda t.context.task).Owes (.task t.context.task))
    (s.heap.Moored (.task t.context.task))
  pieces : ∀ (ticket : Nat) (p : Piece) (w : Work),
    (s.agenda t.context.task).pieces[ticket]? = some p → p.work = some w →
    w.evaluation.Idle ((s.agenda t.context.task).Owes (.piece t.context.task ticket))
      (s.heap.Moored (.piece t.context.task ticket))
  parked : ∃ slot, slot ∈ t.main.parks ∨ ∃ (ticket : Nat) (p : Piece) (w : Work),
    (s.agenda t.context.task).pieces[ticket]? = some p ∧ p.work = some w ∧ slot ∈ w.evaluation.parks

variable {P : Heap → Prop} {g : Goal} {job : Job g} {old : Heap} {t t' : Task g} {s s' : Store}

lemma Standing.passed {strict : Prop} {main : Evaluation g}
    (h : Standing strict cx main s dropped trees) :
    Standing strict cx main { s with wakeups := #[] } dropped trees :=
  ⟨⟨h.orderly.size, h.orderly.opened, h.orderly.enlisted, h.orderly.sound, h.orderly.pending,
    h.orderly.queued, h.orderly.sits, h.orderly.rest⟩, h.laid, h.sits⟩

/-- Between its runs a task stands. What holds of the tree that it was opened with holds of its
trees, if it lasts through small steps and through what happens outside. -/
lemma Driven.stands {I : List Work → Heap → Prop} (h : Driven P job old t s)
    (opened : P old → I [⟨g, .start job.flat⟩] old)
    (outside : ∀ {trees h h'}, h.Anchors h' → P h' → I trees h → I trees h')
    (steps : ∀ {cx n trees trees' c c'}, Forest cx n trees c trees' c' → I trees c.heap →
      I trees' c'.heap) :
    ∃ dropped trees, Standing True t.context t.main s dropped trees ∧ I trees s.heap := by
  induction h with
  | opened began sound promise actor muted transaction now =>
    subst began
    exact ⟨[], _, standing_spawn (fun _ => sound) actor muted transaction now job, opened promise⟩
  | outside _ other promise ih =>
    obtain ⟨dropped, trees, hst, htrees⟩ := ih
    exact ⟨dropped, trees, hst.outside other, outside other.heap promise htrees⟩
  | passed _ ih =>
    obtain ⟨dropped, trees, hst, htrees⟩ := ih
    exact ⟨dropped, trees, hst.passed, htrees⟩
  | polled _ run ih =>
    obtain ⟨dropped, trees, hst, htrees⟩ := ih
    obtain ⟨log, hpoll⟩ := poll_of_advance run
    obtain ⟨n, ds, trees', hst', hforest, _⟩ := hpoll.standing hst
    rw [hpoll.context]
    exact ⟨_, trees', hst', steps hforest htrees⟩

/-- Nothing was dropped unless the main tree holds a failure. -/
lemma Driven.standing (h : Driven P job old t s) :
    ∃ dropped trees, Standing True t.context t.main s dropped trees ∧ Alone g trees :=
  h.stands (I := fun trees _ => Alone g trees)
    (fun _ => ⟨.start job.flat, [], rfl, fun h => absurd rfl h⟩) (fun _ _ halone => halone)
    fun hforest halone => hforest.alone halone

/-- A task at rest of which nothing was dropped is blocked. -/
lemma Standing.blocked (h : Standing True t.context t.main s dropped trees) (alone : Alone g trees)
    (rest : AtRest t.context t.main s) : t.Blocked s := by
  obtain ⟨⟨ts, hunfold, hall⟩, hpending⟩ := And.intro h.laid h.orderly.pending
  obtain ⟨f, others, rfl, halone⟩ := alone
  cases hunfold with
  | @cons _ _ _ _ _ tm td head tail _ =>
    -- the main tree waits as a whole, so that there are no other trees
    have hidle : f.Idle (fun _ => False) fun slot => ∃ who, s.heap.Moored who slot :=
      head.idle (rest.main.mono (fun _ _ hr => ⟨_, hr⟩) fun _ hm => ⟨_, hm⟩) fun u _ w hw =>
        (rest.pieces u w hw).mono (fun _ _ hr => ⟨_, hr⟩) fun _ hm => ⟨_, hm⟩
    have hnone : others = [] := by
      by_contra hrest
      exact hidle.not_fails (halone hrest)
    subst hnone
    cases tail
    have hin : ∀ u, (s.agenda t.context.task).cell u ≠ none → u ∈ tm := by
      intro u hu
      exact (hall u hu).resolve_right id
    -- whatever is waited for has not answered
    have hregistered : ∀ u ∈ tm, ∃ who, (s.agenda t.context.task).Registered who u := by
      intro u hu
      rcases head.awaited u hu with hmain | ⟨p, _, w, hw, hpiece⟩
      · exact ⟨_, rest.main.leaves.1 u hmain⟩
      · exact ⟨_, (rest.pieces p w hw).leaves.1 u hpiece⟩
    have howes : ∀ who u, u ∈ tm → (s.agenda t.context.task).Registered who u →
        (s.agenda t.context.task).Owes who u := by
      rintro who u hu ⟨w, hslip⟩
      obtain ⟨p, hp, hpair⟩ := Option.map_eq_some_iff.1 hslip
      simp only [Prod.mk.injEq] at hpair
      cases hwork : p.work with
      | some w' => exact ⟨p, w', hp, hwork, hpair.2⟩
      | none =>
        refine absurd ?_ (head.known u hu)
        rw [cell, hslip, ← hpair.1, hwork]
    have hcell : ∀ {u : Nat} {p : Piece} {w : Work},
        (s.agenda t.context.task).pieces[u]? = some p → p.work = some w →
          (s.agenda t.context.task).cell u = some (.working w) :=
      fun hp hw => working_of_piece hpending hp hw
    refine ⟨rest.trampoline, rest.ready, ?_, ?_, ?_, ?_⟩
    · intro u p a hp hreply
      have hslip : (s.agenda t.context.task).slip u = some (p.work, .given a) := by
        rw [slip, hp, ← hreply]
        rfl
      cases hwork : p.work with
      | some w =>
        rw [hwork] at hslip
        obtain ⟨reader, hreader⟩ := hpending u w _ hslip
        cases hreader
      | none =>
        rw [hwork] at hslip
        obtain ⟨who, w, hw⟩ := hregistered u (hin u (by rw [cell, hslip]; simp))
        rw [hslip] at hw
        cases hw
    · exact rest.main.mono (fun u hu hr => howes _ u (head.awaits_subset hu) hr) fun _ => id
    · intro u p w hp hw
      have hwork := hcell hp hw
      refine (rest.pieces u w hwork).mono (fun v hv hr => howes _ v ?_ hr) fun _ => id
      exact head.piece_subset (hin u (by simp [hwork])) hwork hv
    · obtain ⟨slot, hslot⟩ := hidle.exists_parks
      refine ⟨slot, (head.parks slot hslot).imp id ?_⟩
      rintro ⟨p, _, w, hw, hpark⟩
      obtain ⟨piece, hpiece, hwork⟩ := piece_of_working hw
      exact ⟨p, piece, w, hpiece, hwork, hpark⟩

/-- After each run a task has answered or is blocked. In particular it has answered if no part of it
stands on the waiting list of a slot. -/
theorem blocked_of_unanswered {fuel : Nat} (h : Driven P job old t s)
    (run : t.advance fuel s = some (t', s')) :
    (t'.answer? = none → t'.Blocked s') ∧
      ((∀ who slot, s'.heap.Moored who slot → ¬ who.Of t'.context.task) →
        t'.answer?.isSome = true) := by
  have hblocked : t'.answer? = none → t'.Blocked s' := by
    intro hnone
    obtain ⟨dropped, trees, hst, _⟩ := h.standing
    obtain ⟨dropped', trees', hst', halone⟩ := (h.polled run).standing
    obtain ⟨log, hpoll⟩ := poll_of_advance run
    have hrest := hpoll.atRest hst hnone
    rw [← hpoll.context] at hrest
    exact hst'.blocked halone hrest
  refine ⟨hblocked, fun hnobody => ?_⟩
  cases hanswer : t'.answer? with
  | some r => rfl
  | none =>
    obtain ⟨slot, hmain | ⟨ticket, p, w, hp, hw, hpiece⟩⟩ := (hblocked hanswer).parked
    · exact absurd rfl (hnobody _ slot ((hblocked hanswer).main.leaves.2 slot hmain))
    · exact absurd rfl
        (hnobody _ slot (((hblocked hanswer).pieces ticket p w hp hw).leaves.2 slot hpiece))

/-- A block, one level below the limit of nesting, whose two statements wait for a variable; both
are detached, and so are the look-ups. -/
def stuckTwice : Task .outcome × Store :=
  spawn {} ⟨1⟩ false 0 0
    (.start (.exec (.expr (.block ["x"]
      (.seq (.send (.ident "x") .self) (.become (.ident "x"))))) ⟨.empty, 31⟩))

theorem stuckTwice_blocked :
    ∃ t' s', stuckTwice.1.advance 24 stuckTwice.2 = some (t', s') ∧ t'.answer? = none ∧
      t'.Blocked s' := by
  have hdriven : Driven (fun _ => True) (.exec (.expr (.block ["x"]
      (.seq (.send (.ident "x") .self) (.become (.ident "x"))))) ⟨.empty, 31⟩) {} stuckTwice.1
      stuckTwice.2 :=
    .opened (s := {}) rfl (fun i entry hentry => by simp [Heap.scope] at hentry)
    trivial ⟨1⟩ false 0 0
  have hanswer : (stuckTwice.1.advance 24 stuckTwice.2).map (fun r => r.1.answer?.isNone) =
      some true := by decide +kernel
  obtain ⟨⟨t', s'⟩, hrun, hnone⟩ := Option.map_eq_some_iff.1 hanswer
  rw [Option.isNone_iff_eq_none] at hnone
  exact ⟨t', s', hrun, hnone, (blocked_of_unanswered hdriven hrun).1 hnone⟩

end Task

end Troupe
