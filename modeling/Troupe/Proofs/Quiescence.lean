import Troupe.Proofs.TaskMeasure

/-!
What a run of a task leaves behind.

A task whose pieces are in order, and whose trees hold all of them, stands (`Task.Standing`). Rounds
keep it standing and take small steps on its trees. As no wake-up is lost, a task that stops before
its main evaluation has finished is stuck as a whole: every part of the main tree waits for a slot.

* `Task.Poll.standing`: a run of a task takes small steps on its trees, and if the main evaluation
  has not finished, every part of its tree waits for a slot.
-/

namespace Troupe

open Agenda List Store

namespace Evaluation

/-- If the pieces of a tree all wait and have not answered, the tree waits for slots only. -/
lemma Unfolds.idle {a : Agenda} {g : Goal} {e f : Evaluation g} {ts : Set Nat} {P : Nat → Prop}
    (h : Unfolds a.cell e f ts) :
    e.Idle (fun t => ∃ who, a.Registered who t) P → (∀ t ∈ ts, ∀ w, a.cell t = some (.working w) →
      w.evaluation.Idle (fun t => ∃ who, a.Registered who t) P) →
    f.Idle (fun _ => False) P := by
  induction h with
  | done | start => exact fun he _ => by cases he
  | parked slot =>
    intro he _
    cases he with
    | parked hslot => exact .parked hslot
  | @working g ticket e f ts known _ _ ih =>
    intro _ hpieces
    exact ih (hpieces ticket (Set.mem_insert ..) ⟨g, e⟩ known)
      fun t ht => hpieces t (Set.mem_insert_of_mem _ ht)
  | @given g ticket r known =>
    intro he _
    cases he with
    | awaiting hticket =>
      obtain ⟨who, w, hw⟩ := hticket
      rw [slip_of_given known] at hw
      cases hw
  | one frame _ ih =>
    intro he hpieces
    cases he with
    | one _ inner => exact .one _ (ih inner hpieces)
  | @both g h left right fl fr tl tr join hl hr _ ih1 ih2 =>
    intro he hpieces
    cases he with
    | both _ first second =>
      exact .both _ (ih1 first fun t ht => hpieces t (.inl ht))
        (ih2 second fun t ht => hpieces t (.inr ht))
    | bothLeft _ first b =>
      cases hr
      exact .bothLeft _ (ih1 first fun t ht => hpieces t (.inl ht)) b
    | bothRight _ a second =>
      cases hl
      exact .bothRight _ a (ih2 second fun t ht => hpieces t (.inr ht))
  | @race left right fl fr tl tr hl hr _ ih1 ih2 =>
    intro he hpieces
    cases he with
    | race first second =>
      exact .race (ih1 first fun t ht => hpieces t (.inl ht))
        (ih2 second fun t ht => hpieces t (.inr ht))
    | raceLeft first sound =>
      cases hr
      exact .raceLeft (ih1 first fun t ht => hpieces t (.inl ht)) sound
    | raceRight sound second =>
      cases hl
      exact .raceRight sound (ih2 second fun t ht => hpieces t (.inr ht))

end Evaluation

namespace Task

open Evaluation

/-- A task between the runs of its evaluations. Its trees hold the main evaluation, which comes
first, and what was dropped. -/
structure Standing (strict : Prop) (cx : Context) {g : Goal} (main : Evaluation g) (s : Store)
    (dropped trees : List Work) : Prop where
  orderly : Orderly strict cx s fun _ => False
  laid : (s.agenda cx.task).Laid (⟨g, main⟩ :: dropped) trees
  sits : main.Sits strict s

/-- Whether the next piece that is told something tells the task, or the task was told already. -/
def Attends (cx : Context) (s : Store) : Prop :=
  (s.agenda cx.task).armed = true ∨ (s.agenda cx.task).woken = true

namespace Standing

variable {strict : Prop} {cx : Context} {g k : Goal} {main main' : Evaluation g}
  {s s1 s2 s3 s' : Store} {dropped trees : List Work} {log : List Request} {p : Nat}
  {e e' : Evaluation k}

lemma flags (h : Standing strict cx main s dropped trees)
    (orderly : Orderly strict cx s' fun _ => False)
    (slip : ∀ t, (s'.agenda cx.task).slip t = (s.agenda cx.task).slip t)
    (heap : s'.heap = s.heap) : Standing strict cx main s' dropped trees where
  orderly := orderly
  laid := h.laid.congr fun t => cell_congr (slip t)
  sits := by
    rw [Sits, heap]
    exact h.sits

lemma advance (h : Standing strict cx main s dropped trees)
    (run : main.Run cx (.task cx.task) s log main' s') :
    (∃ n ds trees', Standing strict cx main' s' (dropped ++ ds) trees' ∧
      Forest cx n trees s.core trees' s'.core ∧
      (n = 0 → (s.agenda cx.task).Calm (s'.agenda cx.task))) ∧
      main'.Rests strict cx (.task cx.task) s' := by
  have hpoised : main.Poised strict cx (.task cx.task) s :=
    ⟨h.orderly.size, rfl, h.orderly.sound, h.sits, fun _ ht => h.laid.root_inside ht⟩
  obtain ⟨n, ds, trees', hlaid, hforest, hcalm⟩ := h.laid.advance h.orderly.size run
  obtain ⟨hsits, hrests⟩ := run.rests hpoised
  refine ⟨⟨n, ds, trees', ⟨?_, hlaid, hsits⟩, hforest, hcalm⟩, hrests⟩
  exact h.orderly.run run (fun _ _ hw _ => h.laid.root_unique hw) fun _ _ hw _ ht =>
    h.laid.inside hw ht

/-- A run of a piece from the ready queue, up to what becomes of it. -/
lemma piece (h : Standing strict cx main s dropped trees)
    (popped : s.nextReady cx.task = (some p, s1))
    (taken : s1.takeWork cx.task p = (some ⟨k, e⟩, s2))
    (run : e.Run cx (.piece cx.task p) s2 log e' s3) :
    Orderly strict cx s3 (· = p) ∧ (s3.agenda cx.task).cell p = some (.working ⟨k, e⟩) ∧
      e'.Sits strict s3 ∧ e'.Rests strict cx (.piece cx.task p) s3 ∧ main.Sits strict s3 ∧
      (Attends cx s → Attends cx s3) ∧
      ∀ (a' : Agenda), (∀ t, t ≠ p → a'.cell t = (s3.agenda cx.task).cell t) →
        (a'.cell p = some (.working ⟨k, e'⟩) ∨
          ∃ r, e' = .done r ∧ a'.cell p = some (.given ⟨k, r⟩)) →
        ∃ n ds trees', a'.Laid (⟨g, main⟩ :: (dropped ++ ds)) trees' ∧
          Forest cx n trees s.core trees' s3.core ∧
          (n = 0 → (s2.agenda cx.task).Calm (s3.agenda cx.task)) := by
  obtain ⟨ho, hp, hslip, hcore, harmed, hwoken⟩ := h.orderly.take popped taken
  have hlaid : (s2.agenda cx.task).Laid (⟨g, main⟩ :: dropped) trees :=
    h.laid.congr fun t => cell_congr (hslip t)
  have hheap : s2.heap = s.heap := congrArg Core.heap hcore
  have hpoised : e.Poised strict cx (.piece cx.task p) s2 :=
    ⟨ho.size, ho.listens hp, ho.sound, ho.sits p _ hp, fun _ ht => hlaid.inside hp ht⟩
  refine ⟨?_, ?_, (run.rests hpoised).1, (run.rests hpoised).2, ?_, ?_, ?_⟩
  · exact ho.run run (fun t w hw hne => hlaid.unique (Ne.symm hne) hp hw) fun _ _ hw _ ht =>
      hlaid.inside hw ht
  · rw [cell_congr (hlaid.slip_self ho.size hp run), hp]
  · refine Sits.keep ?_ run.touches
    rw [Sits, hheap]
    exact h.sits
  · intro hattends
    refine (run.touches.later ho.size).armed ?_
    rwa [harmed, hwoken]
  · intro a' others self
    rw [← hcore]
    exact hlaid.replace ho.size hp run others self

/-- A run of a piece from the ready queue, which is put back because it waits. -/
lemma turn {woken : Bool} {s4 : Store} (h : Standing strict cx main s dropped trees)
    (popped : s.nextReady cx.task = (some p, s1))
    (taken : s1.takeWork cx.task p = (some ⟨k, e⟩, s2))
    (run : e.Run cx (.piece cx.task p) s2 log e' s3) (waits : e'.Waits)
    (back : s3.putBack cx.task p ⟨k, e'⟩ = (woken, s4)) :
    (∃ n ds trees', Standing strict cx main s4 (dropped ++ ds) trees' ∧
      Forest cx n trees s.core trees' s4.core ∧
      (n = 0 → (s.agenda cx.task).Shrinks (s4.agenda cx.task))) ∧
      (Attends cx s → Attends cx s4) := by
  obtain ⟨ho, hp, hsits, hrests, hmain, hkeep, hlaid⟩ := h.piece popped taken run
  have hidle := hrests.resolve_left fun ⟨r, hr⟩ => not_waits_done r (hr ▸ waits)
  obtain ⟨ho', hother, hself, hcore, harmed, hwoken⟩ := ho.putBack hp back hsits hidle
  obtain ⟨n, ds, trees', hlaid', hforest, hcalm⟩ := hlaid _
    (fun t ht => cell_congr (hother t ht)) (.inl hself)
  refine ⟨⟨n, ds, trees', ⟨ho', hlaid', ?_⟩, by rwa [hcore], fun hn => ?_⟩, fun hattends => ?_⟩
  · have hheap : s4.heap = s3.heap := congrArg Core.heap hcore
    rwa [Sits, hheap]
  · exact ((shrinks_take h.orderly.size popped taken).even (hcalm hn).even).even
      (even_putBack ho.size hp back)
  · rw [Attends, harmed, hwoken]
    exact hkeep hattends

end Standing

/-! ### Sweeps and rounds -/

variable {strict : Prop} {cx : Context} {g : Goal} {main main' : Evaluation g} {s s' : Store}
  {dropped trees : List Work} {log : List Request}

/-- A pass over the ready queue. When it ends, the task was told something or nothing is ready. -/
lemma Sweep.standing {total ran yielded : Nat} {b : Bool}
    (h : Sweep cx total ran yielded s log b s') :
    ∀ {dropped trees : List Work}, Standing strict cx main s dropped trees → Attends cx s →
      ∃ n ds trees', Standing strict cx main s' (dropped ++ ds) trees' ∧
        Forest cx n trees s.core trees' s'.core ∧ (b = false → (s'.agenda cx.task).Alarm) ∧
        (n = 0 → (s.agenda cx.task).Lags (s'.agenda cx.task) ∧
          (b = true → (s'.agenda cx.task).unfinished < (s.agenda cx.task).unfinished)) := by
  induction h with
  | @empty ran yielded s s' none_ready =>
    intro dropped trees hst hattends
    obtain ⟨hready, rfl⟩ := nextReady_none none_ready
    refine ⟨0, [], trees, by rwa [append_nil], .refl _ _, fun _ => ?_,
      fun _ => ⟨.refl _, fun h => by cases h⟩⟩
    exact hattends.symm.imp id fun harmed => ⟨hready, harmed⟩
  | @skip ran yielded ticket s s1 s2 s' log b popped idle _ ih =>
    intro dropped trees hst hattends
    obtain ⟨ho, hslip, hcore, harmed, hwoken⟩ := hst.orderly.skip popped idle
    have hattends2 : Attends cx s2 := by
      rwa [Attends, harmed, hwoken]
    obtain ⟨n, ds, trees', hst', hforest, halarm, hlags⟩ :=
      ih (hst.flags ho hslip (congrArg Core.heap hcore)) hattends2
    have hpop := (shrinks_take hst.orderly.size popped idle).lags
    rw [hcore] at hforest
    refine ⟨n, ds, trees', hst', hforest, halarm, fun hn => ?_⟩
    exact ⟨hpop.trans (hlags hn).1, fun hb => ((hlags hn).2 hb).trans_le hpop.unfinished_le⟩
  | @finish ran yielded ticket s s1 s2 s3 log k e r popped taken run =>
    intro dropped trees hst _
    obtain ⟨ho, hp, _, _, hmain, _, hlaid⟩ := hst.piece popped taken run
    obtain ⟨ho', hother, hself, hcore, _⟩ := ho.finish hp ⟨k, r⟩
    obtain ⟨n, ds, trees', hlaid', hforest, hcalm⟩ := hlaid _
      (fun t ht => cell_congr (hother t ht)) (.inr ⟨r, rfl, hself⟩)
    refine ⟨n, ds, trees', ⟨ho', hlaid', ?_⟩, by rwa [hcore], (fun h => by cases h), fun hn => ?_⟩
    · have hheap : (s3.finish cx.task ticket ⟨k, r⟩).heap = s3.heap := congrArg Core.heap hcore
      rwa [Sits, hheap]
    · have hfewer := ((shrinks_take hst.orderly.size popped taken).even
        (hcalm hn).even).lags.unfinished_le.trans_lt' (unfinished_lt_of_given hp hself hother)
      exact ⟨.inl hfewer, fun _ => hfewer⟩
  | @yield ran yielded ticket s s1 s2 s3 s4 log k e e' woken popped taken run waits back enough =>
    intro dropped trees hst _
    obtain ⟨⟨n, ds, trees', hst', hforest, hshrinks⟩, _⟩ := hst.turn popped taken run waits back
    have hagenda : (s4.wakeTask cx.task).agenda cx.task =
        [Waiter.task cx.task].foldl (told cx.task) (s4.agenda cx.task) :=
      s4.agenda_wakeAll [.task cx.task] hst'.orderly.size
    refine ⟨n, ds, trees', hst'.flags ?_ ?_ (s4.heap_wakeAll [.task cx.task]), ?_,
      fun _ => .inl ?_, fun hn => ⟨?_, fun h => by cases h⟩⟩
    · refine hst'.orderly.told ?_ (fun _ => s4.heap_wakeAll [.task cx.task]) hagenda
      have hsize := s4.size_wakeAll [.task cx.task]
      exact hsize ▸ hst'.orderly.size
    · intro t
      rw [hagenda, slip_toldAll]
    · have hsame : (s4.wakeTask cx.task).core = s4.core := s4.core_wakeAll [.task cx.task]
      rwa [hsame]
    · rw [hagenda]
      simp [told, Agenda.tell]
    · rw [hagenda, foldl_cons, foldl_nil, told, if_pos rfl]
      exact (hshrinks hn).tell.lags
  | @next ran yielded ticket s s1 s2 s3 s4 s' log log' k e e' woken b popped taken run waits back
      more _ ih =>
    intro dropped trees hst hattends
    obtain ⟨⟨n, ds, trees', hst', hforest, hshrinks⟩, hkeep⟩ := hst.turn popped taken run waits back
    obtain ⟨m, ds', trees'', hst'', hforest', halarm, hlags⟩ := ih hst' (hkeep hattends)
    refine ⟨m + n, ds ++ ds', trees'', by rwa [← append_assoc], hforest.trans hforest', halarm,
      fun hmn => ?_⟩
    have hturn := (hshrinks (by omega)).lags
    obtain ⟨hrest, hfewer⟩ := hlags (by omega)
    exact ⟨hturn.trans hrest, fun hb => (hfewer hb).trans_le hturn.unfinished_le⟩

lemma SweepAll.standing (h : SweepAll cx s log s') :
    ∀ {dropped trees : List Work}, Standing strict cx main s dropped trees →
      ∃ n ds trees', Standing strict cx main s' (dropped ++ ds) trees' ∧
        Forest cx n trees s.core trees' s'.core ∧ (s'.agenda cx.task).Alarm ∧
        (n = 0 → (s.agenda cx.task).Lags (s'.agenda cx.task)) := by
  induction h with
  | @last total s s1 s' log armed pass =>
    intro dropped trees hst
    obtain ⟨ho, hslip, harmed⟩ := hst.orderly.arm
    have hst1 := hst.flags ho hslip rfl
    rw [armed] at hst1 harmed
    obtain ⟨n, ds, trees', hst', hforest, halarm, hlags⟩ := pass.standing hst1 (.inl harmed)
    cases armed
    exact ⟨n, ds, trees', hst', hforest, halarm rfl,
      fun hn => (lags_arm hst.orderly.size).trans (hlags hn).1⟩
  | @more total s s1 s2 s' log log' armed pass _ ih =>
    intro dropped trees hst
    obtain ⟨ho, hslip, harmed⟩ := hst.orderly.arm
    have hst1 := hst.flags ho hslip rfl
    rw [armed] at hst1 harmed
    obtain ⟨n, ds, trees', hst', hforest, _, hlags⟩ := pass.standing hst1 (.inl harmed)
    obtain ⟨m, ds', trees'', hst'', hforest', halarm, hlags'⟩ := ih hst'
    cases armed
    exact ⟨m + n, ds ++ ds', trees'', by rwa [← append_assoc], hforest.trans hforest', halarm,
      fun hmn => ((lags_arm hst.orderly.size).trans (hlags (by omega)).1).trans
        (hlags' (by omega))⟩

/-- Every part of the first tree waits for a slot; with `strict`, for one that is not bound. -/
def Stuck (strict : Prop) (s : Store) (g : Goal) (trees : List Work) : Prop :=
  ∃ (f : Evaluation g) (rest : List Work), trees = ⟨g, f⟩ :: rest ∧
    f.Idle (fun _ => False) fun slot => strict → ∃ who, s.heap.Moored who slot

/-- The task was told nothing, nothing is ready or detached, and the main evaluation rests. -/
structure Lull (strict : Prop) (cx : Context) {g : Goal} (main : Evaluation g)
    (s : Store) : Prop where
  rests : main.Rests strict cx (.task cx.task) s
  alarm : (s.agenda cx.task).Alarm
  still : ¬ Astir cx s

namespace Standing

lemma of_still (h : ¬ Astir cx s) : (s.agenda cx.task).woken = false ∧
    (s.agenda cx.task).waiting = 0 := by
  rw [Astir, not_or, not_not] at h
  exact ⟨Bool.eq_false_iff.2 h.1, h.2⟩

/-- In a lull, the pieces that have not finished wait. -/
lemma pieces (h : Standing strict cx main s dropped trees) (lull : Lull strict cx main' s) {t : Nat}
    {w : Work} (hw : (s.agenda cx.task).cell t = some (.working w)) :
    w.evaluation.Idle ((s.agenda cx.task).Registered (.piece cx.task t))
      fun slot => strict → s.heap.Moored (.piece cx.task t) slot := by
  obtain ⟨hwoken, hwaiting⟩ := of_still lull.still
  rcases h.orderly.rest t w hw with hbusy | hin | hlate | hidle
  · exact hbusy.elim
  · rw [(lull.alarm.resolve_left (Bool.eq_false_iff.1 hwoken)).1] at hin
    cases hin
  · have ht : t < (s.agenda cx.task).pieces.size := lt_of_cell (by simp [hw])
    rw [waiting] at hwaiting
    omega
  · exact hidle

/-- In a lull, a task is stuck if its main evaluation waits. -/
lemma stuck (h : Standing strict cx main s dropped trees) (lull : Lull strict cx main s)
    (waits : main.Waits) : Stuck strict s g trees := by
  have hmain := lull.rests.idle waits (Bool.eq_false_iff.1 (of_still lull.still).1)
  obtain ⟨ts, hunfold, _⟩ := h.laid
  cases hunfold with
  | @cons _ _ f _ fs _ _ head _ _ =>
    refine ⟨f, fs, rfl, head.idle ?_ fun t _ w hw => (h.pieces lull hw).mono (fun _ _ hr => ⟨_, hr⟩)
      fun _ hm hstrict => ⟨_, hm hstrict⟩⟩
    exact hmain.mono (fun _ _ hr => ⟨_, hr⟩) fun _ hm hstrict => ⟨_, hm hstrict⟩

/-- One round: all passes, and then a run of the main evaluation. -/
lemma round {s1 : Store} {log' : List Request} (h : Standing strict cx main s dropped trees)
    (swept : SweepAll cx (s.enlist cx.task) log s1)
    (run : main.Run cx (.task cx.task) s1 log' main' s') :
    (∃ n ds trees', Standing strict cx main' s' (dropped ++ ds) trees' ∧
      Forest cx n trees s.core trees' s'.core) ∧
      main'.Rests strict cx (.task cx.task) s' ∧ (s'.agenda cx.task).Alarm := by
  obtain ⟨ho, hslip⟩ := h.orderly.enlist
  obtain ⟨n, ds, trees1, hst1, hforest, halarm, _⟩ := swept.standing (h.flags ho hslip rfl)
  obtain ⟨⟨m, ds', trees', hst', hforest', _⟩, hrests⟩ := hst1.advance run
  exact ⟨⟨m + n, ds ++ ds', trees', by rwa [← append_assoc], hforest.trans hforest'⟩, hrests,
    (run.touches.later hst1.orderly.size).alarm halarm⟩

end Standing

/-- Rounds take small steps. If they end before the main evaluation has finished, there is a
lull. -/
lemma Rounds.standing (h : Rounds cx main s log main' s') :
    ∀ {dropped trees : List Work}, Standing strict cx main s dropped trees →
      ∃ n ds trees', Standing strict cx main' s' (dropped ++ ds) trees' ∧
        Forest cx n trees s.core trees' s'.core ∧ (main'.Waits → Lull strict cx main' s') := by
  induction h with
  | @finish e r s s1 s' log log' swept run =>
    intro dropped trees hst
    obtain ⟨⟨n, ds, trees', hst', hforest⟩, _⟩ := hst.round swept run
    exact ⟨n, ds, trees', hst', hforest, fun hw => absurd hw (not_waits_done r)⟩
  | @wait e e' s s1 s' log log' swept run waits still =>
    intro dropped trees hst
    obtain ⟨⟨n, ds, trees', hst', hforest⟩, hrests, halarm⟩ := hst.round swept run
    exact ⟨n, ds, trees', hst', hforest, fun _ => ⟨hrests, halarm, still⟩⟩
  | @again e e1 e' s s1 s2 s' log log' log'' swept run _ _ _ ih =>
    intro dropped trees hst
    obtain ⟨⟨n, ds, trees1, hst1, hforest⟩, _⟩ := hst.round swept run
    obtain ⟨m, ds', trees', hst', hforest', hlull⟩ := ih hst1
    exact ⟨m + n, ds ++ ds', trees', by rwa [← append_assoc], hforest.trans hforest', hlull⟩

/-- A run of a task takes small steps on its trees. If its main evaluation has not finished then,
every part of it waits for a slot. -/
theorem Poll.standing {t t' : Task g} (h : Poll t s log t' s')
    (hst : Standing strict t.context t.main s dropped trees) :
    ∃ n ds trees', Standing strict t.context t'.main s' (dropped ++ ds) trees' ∧
      Forest t.context n trees s.core trees' s'.core ∧
      (t'.main.Waits → Stuck strict s' g trees') := by
  obtain ⟨s1, hrounds, _, rfl⟩ := h
  obtain ⟨ho, hslip⟩ := hst.orderly.running true
  obtain ⟨n, ds, trees', hst', hforest, hlull⟩ := hrounds.standing (hst.flags ho hslip rfl)
  obtain ⟨ho', hslip'⟩ := hst'.orderly.running false
  exact ⟨n, ds, trees', hst'.flags ho' hslip' rfl, hforest, fun hw => hst'.stuck (hlull hw) hw⟩

/-- The main evaluation of a task that has answered is done. -/
lemma main_eq_done {t : Task g} {r : g.Result} (answer : t.answer? = some r) :
    t.main = .done r := by
  rcases t.main.waits_or_done with hwaits | ⟨r', hdone⟩
  · rw [answer?, show t.main.answer? = none from hwaits] at answer
    cases answer
  · rw [answer?, hdone] at answer
    cases answer
    exact hdone

end Task

end Troupe
