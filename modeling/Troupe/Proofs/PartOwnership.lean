import Troupe.Proofs.FencedTasks
import Troupe.Proofs.Isolation

/-!
Who knows what in a session.

The parts that exist are divided. All actors share the *world* `W`: behaviors, environments,
messages and definitions mention parts in `W` only, and the addresses in `W` are those that are
registered. Each delivery that is under way has parts of its own, `P id`, which no one else knows:
it works on `W ∪ P id` and binds names in frames of its own. When it commits, its parts become part
of the world, and so do its actors; when it is reverted they are left in the *grave* `G`, which only
reports of exceptions mention.

* `Borders.start`, `Borders.advance`, `Borders.settle`: a delivery begins, runs and is settled.
* `Borders.accepts`: what a delivery sends when it is committed is for registered actors.
* `Actor.Runs.borders`: the borders hold at every point of the run of an actor.
-/

namespace Troupe

open Array Effects List Scheduler Set

variable {e : Effects} {W : Set Part} {a a' : Actor} {outcome : Outcome}
  {s : Stage} {id logger : ActorId} {backlog : List Value}

/-! ### Messages -/

/-- A report of an exception to the logger. -/
def Envelope.IsException (logger : ActorId) (e : Envelope Value) : Prop :=
  e.target = logger ∧ ∃ message self exception,
    e.message = .pair (.pair message (.actor self)) (.pair (.symbol "exception") exception)

namespace Scheduler

variable {s' : Stage} {e : Envelope Value}

lemma mem_schedule {l : List (Millis × Envelope Value)} {seq : Nat} {timers : List (Timer Value)}
    {t : Timer Value} (h : t ∈ schedule seq timers l) : t ∈ timers ∨ ∃ x ∈ l, t.envelope = x.2 := by
  induction l generalizing seq timers with
  | nil => exact .inl h
  | cons x l ih =>
    rcases ih h with h | ⟨y, hy, heq⟩
    · have hin : t ∈ timers ∨ t = ⟨x.1, seq, x.2⟩ := by
        rcases mem_append.1 h with h | h
        · exact .inl ((takeWhile_sublist _).subset h)
        · rcases mem_cons.1 h with rfl | h
          · exact .inr rfl
          · exact .inl ((dropWhile_suffix _).subset h)
      refine hin.imp_right ?_
      rintro rfl
      exact ⟨x, mem_cons_self .., rfl⟩
    · exact .inr ⟨y, mem_cons_of_mem _ hy, heq⟩

/-- What is carried after sends was carried before, or was sent to a registered actor. -/
lemma carries_postAll {l : List PendingSend} (h : (l.foldl post s).Carries e) :
    s.Carries e ∨ ∃ x ∈ l, s.contains x.target = true ∧ e = ⟨x.target, x.message⟩ := by
  rcases h with h | ⟨t, ht, rfl⟩
  · rw [queue_postAll, List.mem_append] at h
    refine h.imp .inl fun h => ?_
    obtain ⟨x, hx, heq⟩ := mem_filterMap.1 h
    unfold envelope? at heq
    split at heq
    · split at heq
      · cases heq
        exact ⟨x, hx, ‹_›, rfl⟩
      · cases heq
    · cases heq
  · rw [timers_postAll] at ht
    refine (mem_schedule ht).imp (fun h => .inr ⟨t, h, rfl⟩) ?_
    rintro ⟨y, hy, heq⟩
    obtain ⟨x, hx, hsome⟩ := mem_filterMap.1 hy
    unfold appointment? at hsome
    split at hsome
    · cases hsome
    · split at hsome
      · cases hsome
        exact ⟨x, hx, ‹_›, heq⟩
      · cases hsome

lemma contains_seat (logger : Option ActorId) (s : Stage) (a : StagedActor) (id : ActorId) :
    (s.seat logger a).contains id = true ↔ s.contains id = true ∨ id = a.id := by
  unfold seat
  split
  · rename_i htaken
    refine ⟨.inl, ?_⟩
    rintro (h | rfl)
    · exact h
    · exact htaken
  · rw [contains, find?_register]
    by_cases hid : id = a.id
    · simp [hid]
    · simp [hid, contains]

lemma contains_seatAll (logger : Option ActorId) (l : List StagedActor) (s : Stage) (id : ActorId) :
    (l.foldl (seat logger) s).contains id = true ↔ s.contains id = true ∨ ∃ a ∈ l, id = a.id := by
  induction l generalizing s with
  | nil => simp
  | cons a l ih =>
    rw [foldl_cons, ih, contains_seat, or_assoc]
    simp

lemma find?_seatAll {logger : Option ActorId} {l : List StagedActor} {entry : Entry Performer}
    (h : s.find? id = some entry) : (l.foldl (seat logger) s).find? id = some entry := by
  induction l generalizing s with
  | nil => exact h
  | cons a l ih =>
    refine ih ?_
    unfold seat
    split
    · exact h
    · rename_i hfree
      rw [find?_register, if_neg, h]
      rintro rfl
      exact hfree (by rw [contains, h]; rfl)

section

variable {logger : Option ActorId} {l : List StagedActor} {m : List PendingSend}

lemma contains_flush (id : ActorId) :
    (m.foldl post (l.foldl (seat logger) s)).contains id = true ↔
      s.contains id = true ∨ ∃ a ∈ l, id = a.id := by
  rw [contains_congr (postAll_frame ..).1, contains_seatAll]

/-- What is carried after effects have taken place was carried before, or was sent. -/
lemma carries_flush (h : (m.foldl post (l.foldl (seat logger) s)).Carries e) :
    s.Carries e ∨ ∃ x ∈ m, (m.foldl post (l.foldl (seat logger) s)).contains x.target = true ∧
      e = ⟨x.target, x.message⟩ := by
  obtain ⟨hqueue, htimers, _⟩ := seatAll_frame logger l s
  refine (carries_postAll h).imp ?_ ?_
  · rw [Carries, Carries, hqueue, htimers]
    exact fun h => h
  · rintro ⟨x, hx, htarget, rfl⟩
    exact ⟨x, hx, (contains_congr (postAll_frame ..).1 _).trans htarget, rfl⟩

lemma mem_flush {x : ActorId × Entry Performer}
    (h : x ∈ (m.foldl post (l.foldl (seat logger) s)).registry) :
    x ∈ s.registry ∨ ∃ a ∈ l, x = a.entry logger := by
  rw [(postAll_frame ..).1] at h
  exact mem_registry_seatAll logger h

lemma find?_flush {entry : Entry Performer} (h : s.find? id = some entry) :
    (m.foldl post (l.foldl (seat logger) s)).find? id = some entry := by
  have hseats : (l.foldl (seat logger) s).find? id = some entry := find?_seatAll h
  rw [find?] at hseats ⊢
  rwa [(postAll_frame ..).1]

end

end Scheduler

/-! ### Effects -/

lemma Value.parts_list {R : Set Part} {vs : List Value} (h : ∀ v ∈ vs, v.parts ⊆ R) :
    (Value.list vs).parts ⊆ R := by
  induction vs with
  | nil => exact empty_subset _
  | cons v vs ih =>
    exact union_subset (h v (mem_cons_self ..)) (ih fun v hv => h v (mem_cons_of_mem _ hv))

namespace Effects

lemma parts_send {x : PendingSend} (hx : x ∈ e.sends) : x.parts ⊆ e.parts :=
  fun _ hp => .inl ⟨x, hx, hp⟩

lemma parts_created {a : StagedActor} (ha : a ∈ e.created) : a.parts ⊆ e.parts :=
  fun _ hp => .inr (.inl ⟨a, ha, hp⟩)

lemma parts_define {x : String × Value} (hx : x ∈ e.defines) : x.2.parts ⊆ e.parts :=
  fun _ hp => .inr (.inr ⟨x, hx, hp⟩)

/-- A report mentions what the effects mention. -/
lemma parts_report : e.report.parts ⊆ e.parts := by
  refine union_subset (Value.parts_list fun v hv => ?_) (Value.parts_list fun v hv => ?_)
  · obtain ⟨x, hx, rfl⟩ := mem_map.1 hv
    have hsend := parts_send (mem_toList_iff.1 hx)
    exact union_subset ((subset_insert ..).trans hsend)
      (singleton_subset_iff.2 (hsend (mem_insert ..)))
  · obtain ⟨a, ha, rfl⟩ := mem_map.1 hv
    exact singleton_subset_iff.2 (parts_created (mem_toList_iff.1 ha) (mem_insert ..))

/-- An actor under which something was staged. -/
lemma mem_staged (h : id ∈ (Transaction.gathering e).staged) :
    ∃ a ∈ e.created.toList, id = a.id := by
  obtain ⟨a, ha, rfl⟩ := mem_map.1 (Multiset.mem_coe.1 h)
  exact ⟨a, ha, rfl⟩

end Effects

/-- Setting definitions changes a dictionary that can be seen from the environment. -/
lemma Heap.evolves_defines {R V : Set Part} {env : Env} (henv : env.parts ⊆ R)
    {l : List (String × Value)} (hl : ∀ x ∈ l, x.2.parts ⊆ V) (h : Heap) :
    Evolves Rᶜ V h (l.foldl (fun h x => (h.define x.1 x.2 env).2) h) := by
  induction l generalizing h with
  | nil => exact .refl ..
  | cons x l ih =>
    refine (evolves_define h x.1 henv (hl x (mem_cons_self ..))).trans ?_
    exact ih (fun y hy => hl y (mem_cons_of_mem _ hy)) _

/-! ### The borders -/

/-- What an actor has is part of the world, and it reports to the logger or to no one. -/
structure Actor.Within (W : Set Part) (logger : ActorId) (a : Actor)
    (backlog : List Value) : Prop where
  behavior : a.behavior.parts ⊆ W
  env : a.env.parts ⊆ W
  backlog : ∀ m ∈ backlog, m.parts ⊆ W
  logger : ∀ id, a.logger = some id → id = logger

/-- What the delivery of an actor has to leave alone. -/
def foreign (W G : Set Part) (P : ActorId → Set Part) (id : ActorId) : Set Part :=
  W ∪ G ∪ {p | ∃ id', id' ≠ id ∧ p ∈ P id'}

/-- Everything in a session keeps to its side of the borders, with the deliveries `D` under way. -/
structure Borders (logger : ActorId) (D : ActorId → Delivery → Prop) (s : Stage)
    (w : World) (W G : Set Part) (P : ActorId → Set Part) : Prop where
  code : w.store.heap.Tidy
  world : w.store.heap.Closed W
  grave : w.store.heap.Closed (W ∪ G)
  registered : ∀ id, .actor id ∈ W ↔ s.contains id = true
  mail : ∀ e, s.Carries e → s.contains e.target = true ∧
    (e.message.parts ⊆ W ∨ e.IsException logger ∧ e.message.parts ⊆ W ∪ G)
  programs : ∀ id name a, (id, ⟨name, .program a⟩) ∈ s.registry → a.Within W logger a.backlog
  reports : ∃ name, s.find? logger = some ⟨name, .logger⟩
  traces : ∀ v ∈ w.traces, v.parts ⊆ W ∪ G
  idle : ∀ id, (∀ d, ¬ D id d) → P id = ∅
  deliveries : ∀ id d, D id d → d.message.parts ⊆ W ∧
    d.task.Fenced (foreign W G P id) (W ∪ P id) (s.contains · = true) w.store

lemma Actor.Within.mono {W' : Set Part} (h : a.Within W logger backlog) (hW : W ⊆ W') :
    a.Within W' logger backlog :=
  ⟨h.behavior.trans hW, h.env.trans hW, fun m hm => (h.backlog m hm).trans hW, h.logger⟩

namespace Borders

variable {self : ActorId} {D : ActorId → Delivery → Prop} {s' : Stage}
  {w w' : World} {G : Set Part} {P : ActorId → Set Part} {own : ActorId → Option Nat}
  {d d' : Delivery}

/-- All parts that are known to someone exist. -/
lemma room (h : Borders logger D s w W G P) (id : ActorId) :
    ∀ p ∈ foreign W G P id, w.store.heap.Has p := by
  rintro p ((hp | hp) | ⟨id', _, hp⟩)
  · exact (h.world p hp).1
  · exact (h.grave p (.inr hp)).1
  · by_cases hd : ∃ d, D id' d
    · obtain ⟨d, hd⟩ := hd
      exact ((h.deliveries id' d hd).2.closed p (.inr hp)).1
    · rw [not_exists] at hd
      rw [h.idle id' hd] at hp
      cases hp

lemma start {m : Moment} {a : Actor} {message : Value} {backlog : List Value}
    (h : Borders logger (s.Beside m.self none) s w W G P) (here : s.contains m.self = true)
    (actor : a.Within W logger (message :: backlog)) :
    Borders logger (s.Beside m.self (some (a.start m message w).1)) s
    (a.start m message w).2 W G P := by
  have hnone : P m.self = ∅ := by
    refine h.idle m.self ?_
    rintro d (⟨_, hd⟩ | ⟨hne, _⟩)
    · cases hd
    · exact hne rfl
  have hmessage : message.parts ⊆ W := actor.backlog message (mem_cons_self ..)
  refine ⟨h.code, h.world, h.grave, h.registered, h.mail, h.programs, h.reports, h.traces, ?_, ?_⟩
  · intro id hid
    refine h.idle id fun d hd => ?_
    rcases hd with ⟨_, hd⟩ | hd
    · cases hd
    · exact hid d (.inr hd)
  · rintro id d (⟨rfl, hd⟩ | hd)
    · cases hd
      refine ⟨hmessage, ?_⟩
      rw [hnone, union_empty]
      have hself := insert_subset ((h.registered _).2 here) actor.env
      exact Task.fenced_spawn h.code (h.room _) h.world
        (fun id hid => (h.registered id).1 hid) _ _ _
        (by simp [Job.items, Item.parts, Item.scene?, actor.behavior, hmessage, hself])
        (by simp [Job.Guarded, Job.items, Item.Guarded])
    · obtain ⟨hm, hf⟩ := h.deliveries id d (.inr hd)
      exact ⟨hm, hf.congr (Regular.start_elsewhere a m message hf.opened) rfl⟩

/-- A delivery runs. What it makes, and the addresses that it takes, is its own. -/
lemma advance (h : Borders logger (s.Beside self (some d)) s w W G P)
    (regular : Regular own (s.Beside self (some d)) s w)
    (run : (d.advance w).run s = ((d', w'), s')) (alive : w'.exhausted = false) :
    ∃ P', Borders logger (s'.Beside self (some d')) s' w' W G P' := by
  have helsewhere : ∀ cx : Context, cx.task ≠ d.task.context.task →
      cx.transaction ≠ d.task.context.transaction → w.store.Elsewhere cx w'.store :=
    fun _ => Regular.advance_elsewhere run alive
  obtain ⟨task, store, hrun, rfl, rfl, rfl⟩ := Delivery.exists_of_run_advance run alive
  set s0 : Store := { w.store with ids := ⟨s.ids.issued⟩ } with hs0
  obtain ⟨hmessage, hf⟩ := h.deliveries self d (.inl ⟨rfl, rfl⟩)
  have hf0 : d.task.Fenced (foreign W G P self) (W ∪ P self) (s.contains · = true) s0 :=
    hf.congr (.of_eq rfl rfl) rfl
  obtain ⟨hf', hleaves⟩ := hf0.run hrun
  obtain ⟨log, hpoll⟩ := Task.poll_of_advance hrun
  set P' := Function.update P self (P self ∪ s0.fresh store) with hP'
  have hself : P' self = P self ∪ s0.fresh store := Function.update_self ..
  have hother : ∀ {id : ActorId}, id ≠ self → P' id = P id :=
    fun hne => Function.update_of_ne hne ..
  have hkeep : ∀ {R : Set Part}, w.store.heap.Closed R → R ⊆ foreign W G P self →
      store.heap.Closed R := fun hR hsub => hR.keep hleaves.evolves hsub
  have hforeign : foreign W G P' self = foreign W G P self := by
    refine congrArg (W ∪ G ∪ ·) (ext fun p => exists_congr fun id => and_congr_right fun hne => ?_)
    rw [hother hne]
  refine ⟨P', hf'.code, ?_, ?_, h.registered, h.mail, h.programs, h.reports, h.traces, ?_, ?_⟩
  · exact hkeep h.world (subset_union_left.trans subset_union_left)
  · exact hkeep h.grave subset_union_left
  · intro id hid
    have hne : id ≠ self := by
      rintro rfl
      exact hid _ (.inl ⟨rfl, rfl⟩)
    rw [hother hne]
    refine h.idle id fun d hd => ?_
    rcases hd with ⟨rfl, _⟩ | hd
    · exact hne rfl
    · exact hid d (.inr hd)
  · rintro id d' (⟨rfl, hd⟩ | ⟨hne, hd⟩)
    · cases hd
      refine ⟨hmessage, ?_⟩
      rw [hforeign, hself, ← union_assoc]
      exact hf'.congr (.of_eq rfl rfl) rfl
    · obtain ⟨hm, hfo⟩ := h.deliveries id d' (.inr ⟨hne, hd⟩)
      obtain ⟨htask, htx⟩ := regular.other hne hd
      rw [← (regular.good self d (.inl ⟨rfl, rfl⟩)).transaction] at htx
      have hroom : ∀ p ∈ foreign W G P' id, store.heap.Has p := by
        rintro p (hp | ⟨id', hid', hp⟩)
        · exact hleaves.evolves.has p (h.room id p (.inl hp))
        · by_cases hs : id' = self
          · subst hs
            rw [hself] at hp
            exact (hf'.closed p (hp.elim (fun hp => .inl (.inr hp)) .inr)).1
          · rw [hother hs] at hp
            exact hleaves.evolves.has p (h.room id p (.inr ⟨id', hid', hp⟩))
      refine ⟨hm, ?_⟩
      rw [hother hne]
      refine hfo.elsewhere (helsewhere _ htask htx)
        (Store.Moves.retains hpoll.course.steps).toAnchors hf'.code hroom ?_
        subset_rfl (fun p hp hactor hp' => ?_) (fun i hi _ => hleaves.scopes i (hfo.closed _ hi).1)
        (fun _ => .inl) fun _ hreg => hreg
      · refine hkeep hfo.closed (union_subset ?_ fun p hp => .inr ⟨id, hne, hp⟩)
        exact subset_union_left.trans subset_union_left
      · rcases hp' with hp' | ⟨id', hid', hp'⟩
        · exact .inl hp'
        · by_cases hs : id' = self
          · subst hs
            rw [hself] at hp'
            rcases hp' with hp' | hnew | ⟨aid, rfl, _⟩
            · exact .inr ⟨id', hid', hp'⟩
            · exact absurd (hfo.closed p hp).1 hnew.2
            · exact absurd rfl (hactor aid)
          · rw [hother hs] at hp'
            exact .inr ⟨id', hid', hp'⟩

/-- Something happens while deliveries wait. The world grows, and so does the grave: by parts that
are new, or by those of deliveries that have ended. -/
theorem change (h : Borders logger D s w W G P) {D' : ActorId → Delivery → Prop} (W' G' : Set Part)
    (fewer : ∀ id d, D' id d → D id d)
    (other : ∀ id d, D' id d → w.store.Elsewhere d.task.context w'.store)
    (anchors : w.store.heap.Anchors w'.store.heap) (code : w'.store.heap.Tidy)
    (closed : ∀ R ⊆ W ∪ G ∪ {p | ∃ id, p ∈ P id}, w.store.heap.Closed R → W ⊆ R →
      w'.store.heap.Closed (R ∪ W'))
    (grave : w'.store.heap.Closed (W' ∪ G')) (grows : W ⊆ W') (left : W ∪ G ⊆ W' ∪ G')
    (new : ∀ p ∈ W' ∪ G', p ∈ W ∪ G ∨ (∃ id, (∀ d, ¬ D' id d) ∧ p ∈ P id) ∨ ¬ w.store.heap.Has p ∨
      ∃ id, p = .actor id) (scopes : ∀ i, w.store.heap.Has (.scope i) → .scope i ∉ W →
      w'.store.heap.scope i = w.store.heap.scope i)
    (registered : ∀ id, .actor id ∈ W' ↔ s'.contains id = true)
    (mail : ∀ e, s'.Carries e → s.Carries e ∨ s'.contains e.target = true ∧
      (e.message.parts ⊆ W' ∨ e.IsException logger ∧ e.message.parts ⊆ W' ∪ G'))
    (programs : ∀ id name a, (id, ⟨name, .program a⟩) ∈ s'.registry →
      (∃ name', (id, ⟨name', .program a⟩) ∈ s.registry) ∨ a.Within W' logger a.backlog)
    (reports : ∃ name, s'.find? logger = some ⟨name, .logger⟩)
    (traces : ∀ v ∈ w'.traces, v ∈ w.traces ∨ v.parts ⊆ W' ∪ G') :
    ∃ P', Borders logger D' s' w' W' G' P' := by
  have hregion : ∀ id, W ∪ P id ⊆ W ∪ G ∪ {p | ∃ id, p ∈ P id} := fun id =>
    union_subset_union subset_union_left fun p hp => ⟨id, hp⟩
  have hclosed : ∀ id d, D' id d → w'.store.heap.Closed (W' ∪ P id) := by
    intro id d hd
    have hunion : W ∪ P id ∪ W' = W' ∪ P id := by
      rw [union_right_comm, union_eq_self_of_subset_left grows]
    rw [← hunion]
    exact closed _ (hregion id) (h.deliveries id d (fewer id d hd)).2.closed subset_union_left
  have hworld : w'.store.heap.Closed W' := by
    rw [← union_eq_self_of_subset_left grows]
    exact closed W (subset_union_left.trans subset_union_left) h.world subset_rfl
  have stays : ∀ id, s.contains id = true → s'.contains id = true := fun id hid =>
    (registered id).1 (grows ((h.registered id).2 hid))
  -- only those who still wait have parts of their own
  refine ⟨fun id => {p | p ∈ P id ∧ ∃ d, D' id d}, code, hworld, grave, registered, ?_,
    ?_, reports, ?_, ?_, ?_⟩
  · intro e he
    rcases mail e he with hold | hnew
    · obtain ⟨htarget, hm⟩ := h.mail e hold
      exact ⟨stays _ htarget, hm.imp (·.trans grows) (And.imp_right (·.trans left))⟩
    · exact hnew
  · intro id name a ha
    rcases programs id name a ha with ⟨name', hold⟩ | hnew
    · exact (h.programs id name' a hold).mono grows
    · exact hnew
  · intro v hv
    exact (traces v hv).elim (fun hv => (h.traces v hv).trans left) fun hv => hv
  · intro id hid
    exact eq_empty_of_forall_notMem fun p hp => hp.2.elim hid
  · intro id d hd
    obtain ⟨hm, hf⟩ := h.deliveries id d (fewer id d hd)
    have hsame : {p | p ∈ P id ∧ ∃ d, D' id d} = P id :=
      ext fun p => and_iff_left ⟨d, hd⟩
    refine ⟨hm.trans grows, ?_⟩
    rw [hsame]
    refine hf.elsewhere (other id d hd) anchors code ?_ (hclosed id d hd)
      (union_subset_union_left _ grows) (fun p hp hactor hp' => ?_)
      (fun i hi hn => scopes i (hf.closed _ hi).1 fun hW => hn (.inl (.inl hW)))
      (fun aid hid => ?_) stays
    · rintro p (hp | ⟨id', _, hp, d', hd'⟩)
      · exact (grave p hp).1
      · exact (hclosed id' d' hd' p (.inr hp)).1
    · rcases hp' with hp' | ⟨id', hne, hp', _⟩
      · rcases new p hp' with hp' | ⟨id', hnone, hp'⟩ | hp' | ⟨aid, rfl⟩
        · exact .inl hp'
        · refine .inr ⟨id', ?_, hp'⟩
          rintro rfl
          exact hnone d hd
        · exact absurd (hf.closed p hp).1 hp'
        · exact absurd rfl (hactor aid)
      · exact .inr ⟨id', hne, hp'⟩
    · rcases hid with hid | hid
      · exact .inr ((registered aid).1 hid)
      · exact .inl (.inr hid)

/-- A delivery ends. What it has made is left to the world, or to the grave. -/
lemma ends (h : Borders logger (s.Beside self (some d)) s w W G P)
    (regular : Regular own (s.Beside self (some d)) s w) {store : Store} {W' G' : Set Part}
    (other : ∀ cx : Context, cx.task ≠ d.task.context.task → cx.transaction ≠ d.transaction →
      w.store.Elsewhere cx store)
    (anchors : w.store.heap.Anchors store.heap) (code : store.heap.Tidy)
    (scopes : ∀ i, store.heap.scope i = w.store.heap.scope i)
    (closed : ∀ R, w.store.heap.Closed R → W' ⊆ R → store.heap.Closed R)
    (grows : W ⊆ W') (world : w.store.heap.Closed W') (shared : W' ∪ G' = W ∪ G ∪ P self)
    (registered : ∀ id, .actor id ∈ W' ↔ s'.contains id = true)
    (mail : ∀ e, s'.Carries e → s.Carries e ∨ s'.contains e.target = true ∧
      (e.message.parts ⊆ W' ∨ e.IsException logger ∧ e.message.parts ⊆ W' ∪ G'))
    (registry : ∀ x ∈ s'.registry, x ∈ s.registry ∨ ∃ name b, x.2 = ⟨name, .program b⟩ ∧
      b.current = none ∧ b.Within W' logger b.backlog)
    (reports : ∃ name, s'.find? logger = some ⟨name, .logger⟩) :
    ∃ P', Borders logger (s'.Beside self none) s' { w with store } W' G' P' := by
  have hbeside : ∀ id d', s'.Beside self none id d' → id ≠ self ∧ s.Waiting id d' := fun id d' hd =>
    hd.waited fun x hx => (registry x hx).imp_right fun ⟨name, b, heq, hnone, _⟩ =>
    ⟨name, b, heq, hnone⟩
  have hall : w.store.heap.Closed (W' ∪ G') := by
    have hunion : W' ∪ G' = W ∪ G ∪ (W ∪ P self) := by
      rw [shared, ← union_assoc, union_eq_self_of_subset_right
        (subset_union_left : W ⊆ W ∪ G)]
    rw [hunion]
    exact h.grave.union (h.deliveries self d (.inl ⟨rfl, rfl⟩)).2.closed
  refine h.change W' G' (fun id d' hd => .inr (hbeside id d' hd)) (fun id d' hd => ?_) anchors code
    (fun R _ hR hW => closed _ (hR.union world) subset_union_right)
    (closed _ hall subset_union_left) grows (subset_union_left.trans shared.ge) (fun p hp => ?_)
    (fun i _ _ => scopes i) registered mail (fun id name a ha => ?_) reports fun v hv => .inl hv
  · obtain ⟨hne, hd'⟩ := hbeside id d' hd
    obtain ⟨htask, htx⟩ := regular.other hne hd'
    exact other _ htask htx
  · exact (shared.le hp).imp_right fun hp =>
      .inl ⟨self, fun d' hd => (hbeside self d' hd).1 rfl, hp⟩
  · rcases registry _ ha with hold | ⟨name', b, heq, _, hb⟩
    · exact .inl ⟨name, hold⟩
    · cases heq
      exact .inr hb

/-- A delivery is reverted: only the report of the exception mentions what it has made. -/
lemma revert (h : Borders logger (s.Beside self (some d)) s w W G P)
    (regular : Regular own (s.Beside self (some d)) s w) (here : s.contains self = true)
    (actor : a.Within W logger backlog)
    (failed : outcome = .fail ∨ (w.store.transaction d.transaction).isFailed = true)
    (run : (a.settle self d outcome w).run s = ((a', w'), s')) :
    a' = a ∧ ∃ P', Borders logger (s'.Beside self none) s' w' W (G ∪ P self) P' := by
  obtain ⟨hmessage, hf⟩ := h.deliveries self d (.inl ⟨rfl, rfl⟩)
  have hgood := regular.good self d (.inl ⟨rfl, rfl⟩)
  obtain ⟨store, hw', _, _, _, hother⟩ := Regular.settle_frame hgood.transaction run
  obtain ⟨wakeups, -, hrun⟩ := Actor.run_settle_failed a self failed s
  rw [hrun] at run
  cases run
  have hstore : store = { (w.store.onTransaction d.transaction (·.revert)).2.close
      d.task.context.task with wakeups := #[] } := (congrArg World.store hw').symm
  have hheap : store.heap = w.store.heap := by
    rw [hstore]
    exact (Store.close_frame ..).1
  have hsub : W ∪ P self ⊆ W ∪ (G ∪ P self) := union_subset_union_right _ subset_union_right
  set exception := (w.store.transaction d.transaction).revert.1.getD .undefined with hexception
  have hparts : exception.parts ⊆ W ∪ P self := by
    have htx := hf.transaction
    rw [hgood.transaction] at htx
    rw [hexception]
    cases htransaction : w.store.transaction d.transaction with
    | gathering e => exact empty_subset _
    | failed x =>
      rw [htransaction] at htx
      exact htx
  obtain ⟨hregistry, _⟩ := postAll_frame (a.trace self d.message
    (.pair (.symbol "exception") exception)) s
  refine ⟨rfl, ?_⟩
  rw [hw']
  refine h.ends regular hother (hheap ▸ .refl _) (hheap ▸ h.code)
    (fun i => by rw [hheap]) (fun R hR _ => hheap ▸ hR) subset_rfl h.world (union_assoc ..).symm
    ?_ ?_ ?_ ?_
  · intro id
    rw [h.registered]
    exact iff_of_eq (congrArg (· = true) (contains_congr hregistry id).symm)
  · intro e he
    refine (carries_postAll he).imp_right ?_
    rintro ⟨x, hx, htarget, rfl⟩
    refine ⟨(contains_congr hregistry _).trans htarget, .inr ?_⟩
    obtain ⟨l, hl, rfl⟩ := mem_map.1 hx
    refine ⟨⟨actor.logger l (Option.mem_toList.1 hl), _, _, _, rfl⟩, ?_⟩
    refine union_subset (union_subset ?_ ?_) (union_subset (empty_subset _) ?_)
    · exact hmessage.trans subset_union_left
    · exact singleton_subset_iff.2 (.inl ((h.registered self).2 here))
    · exact hparts.trans hsub
  · exact fun x hx => .inl (hregistry ▸ hx)
  · obtain ⟨name, hfound⟩ := h.reports
    refine ⟨name, ?_⟩
    rw [← hfound, Scheduler.find?, Scheduler.find?, hregistry]

/-- A delivery is committed: what it has made becomes part of the world. -/
lemma commit (h : Borders logger (s.Beside self (some d)) s w W G P)
    (regular : Regular own (s.Beside self (some d)) s w) (here : s.contains self = true)
    (actor : a.Within W logger backlog) (answer : d.task.answer? = some outcome)
    (gathered : w.store.transaction d.transaction = .gathering e) (sound : outcome ≠ .fail)
    (run : (a.settle self d outcome w).run s = ((a', w'), s')) :
    a'.Within (W ∪ P self) logger backlog ∧
      ∃ P', Borders logger (s'.Beside self none) s' w' (W ∪ P self) G P' := by
  obtain ⟨hmessage, hf⟩ := h.deliveries self d (.inl ⟨rfl, rfl⟩)
  have hgood := regular.good self d (.inl ⟨rfl, rfl⟩)
  have hdefines := Actor.heap_settle_committed sound gathered run
  obtain ⟨store, rfl, _, _, _, hother⟩ := Regular.settle_frame hgood.transaction run
  obtain ⟨_, dicts, _, hheap', hw', _, _⟩ := Actor.exists_of_run_settle run
  have hheap : store.heap = { w.store.heap with dicts } :=
    (congrArg (fun w : World => w.store.heap) hw').trans hheap'
  obtain ⟨wakeups, -, hrun⟩ := Actor.run_settle_committed a self gathered sound s
  have ha' : a' = a.next outcome := congrArg (·.1.1) (run.symm.trans hrun)
  have hs' : s' = _ := congrArg Prod.snd (run.symm.trans hrun)
  set sends := e.sends.toList ++ a.trace self d.message e.report with hsends
  -- what was asked for mentions the world and what the delivery has made
  have heffects : e.parts ⊆ W ∪ P self := by
    have htx := hf.transaction
    rw [hgood.transaction, gathered] at htx
    exact htx
  have hevolves : w.store.heap.Evolves (W ∪ P self)ᶜ (W ∪ P self) store.heap := by
    rw [show store.heap = _ from hdefines]
    refine Heap.evolves_defines (actor.env.trans subset_union_left) (fun x hx => ?_) _
    exact (parts_define (Array.mem_toList_iff.1 hx)).trans heffects
  have hself : Part.actor self ∈ W := (h.registered self).2 here
  have hparts : ∀ x ∈ sends, x.message.parts ⊆ W ∪ P self := by
    intro x hx
    rcases List.mem_append.1 hx with hx | hx
    · exact ((subset_insert ..).trans (parts_send (Array.mem_toList_iff.1 hx))).trans heffects
    · obtain ⟨l, hl, rfl⟩ := List.mem_map.1 hx
      refine union_subset (union_subset ?_ ?_) (parts_report.trans heffects)
      · exact hmessage.trans subset_union_left
      · exact singleton_subset_iff.2 (.inl hself)
  refine ⟨⟨?_, ?_, ?_, ?_⟩, h.ends regular hother (hheap ▸ .of_shape rfl rfl rfl)
    (hheap ▸ h.code.of_eq rfl rfl) (fun i => by rw [hheap]; rfl) (fun R hR hsub => ?_)
    subset_union_left hf.closed (union_right_comm ..) ?_ ?_ ?_ ?_⟩
  · rw [ha']
    cases outcome with
    | become v => exact hf.parts_answer answer (.value v) (List.mem_cons_self ..)
    | _ => exact actor.behavior.trans subset_union_left
  · rw [ha', show (a.next outcome).env = a.env by cases outcome <;> rfl]
    exact actor.env.trans subset_union_left
  · exact fun m hm => (actor.backlog m hm).trans subset_union_left
  · rw [ha', show (a.next outcome).logger = a.logger by cases outcome <;> rfl]
    exact actor.logger
  · rw [← union_empty R]
    exact hR.grow hevolves (hsub.trans subset_union_left) fun _ hp => hp.elim
  · intro id
    rw [hs']
    refine Iff.trans ⟨fun hid => ?_, ?_⟩ (contains_flush id).symm
    · have hstaged := hf.staged answer (by rw [hgood.transaction, gathered]; rfl) hid
      rw [hgood.transaction, gathered] at hstaged
      exact hstaged.imp_right mem_staged
    · rintro (hid | ⟨b, hb, rfl⟩)
      · exact .inl ((h.registered id).2 hid)
      · exact heffects (parts_created (Array.mem_toList_iff.1 hb) (mem_insert ..))
  · intro e' he'
    rw [hs'] at he' ⊢
    refine (carries_flush he').imp_right ?_
    rintro ⟨x, hx, htarget, rfl⟩
    exact ⟨htarget, .inl (hparts x hx)⟩
  · intro x hx
    rw [hs'] at hx
    refine (mem_flush hx).imp_right ?_
    rintro ⟨b, hb, rfl⟩
    have hb' := (parts_created (Array.mem_toList_iff.1 hb)).trans heffects
    have hb'' := (subset_insert ..).trans hb'
    exact ⟨_, _, rfl, rfl, subset_union_left.trans hb'', subset_union_right.trans hb'',
      fun m hm => absurd hm List.not_mem_nil, actor.logger⟩
  · obtain ⟨name, hfound⟩ := h.reports
    rw [hs']
    exact ⟨name, find?_flush hfound⟩

/-- A delivery that has finished is settled. The world only grows. -/
lemma settle (h : Borders logger (s.Beside self (some d)) s w W G P)
    (regular : Regular own (s.Beside self (some d)) s w) (here : s.contains self = true)
    (actor : a.Within W logger backlog) (answer : d.task.answer? = some outcome)
    (run : (a.settle self d outcome w).run s = ((a', w'), s')) :
    ∃ W' G' P', W ⊆ W' ∧ a'.Within W' logger backlog ∧
      Borders logger (s'.Beside self none) s' w' W' G' P' := by
  rcases Actor.failed_or_gathered outcome
    (w.store.transaction d.transaction) with hfailed | ⟨e, he, hsound⟩
  · obtain ⟨rfl, P', hends⟩ := h.revert regular here actor hfailed run
    exact ⟨W, _, P', subset_rfl, actor, hends⟩
  · obtain ⟨hactor, P', hends⟩ := h.commit regular here actor answer he hsound run
    exact ⟨_, G, P', subset_union_left, hactor, hends⟩

/-- Whoever a delivery has sent to is registered once its actors are. -/
lemma accepts (h : Borders logger D s w W G P) (hd : D self d) (good : d.Good own w.store)
    (answer : d.task.answer? = some outcome)
    (gathered : w.store.transaction d.transaction = .gathering e) {x : PendingSend}
    (hx : x ∈ e.sends) (reporting : Option ActorId) :
    (e.created.toList.foldl (seat reporting) s).contains x.target = true := by
  obtain ⟨_, hf⟩ := h.deliveries self d hd
  have hparts := hf.transaction
  have hstaged := hf.staged answer
  rw [good.transaction, gathered] at hparts hstaged
  rw [contains_seatAll]
  refine (hstaged rfl (hparts (parts_send hx (mem_insert ..)))).imp_right ?_
  exact mem_staged

/-- Only the scheduler and the record of traces change. -/
lemma reschedule (h : Borders logger D s w W G P) {D' : ActorId → Delivery → Prop}
    (fewer : ∀ id d, D' id d → D id d) (store : w'.store = w.store)
    (registered : ∀ id, s'.contains id = s.contains id)
    (mail : ∀ e, s'.Carries e → s.Carries e ∨ s.contains e.target = true ∧ e.message.parts ⊆ W)
    (programs : ∀ id name a, (id, ⟨name, .program a⟩) ∈ s'.registry →
      (∃ name', (id, ⟨name', .program a⟩) ∈ s.registry) ∨ a.Within W logger a.backlog)
    (reports : ∃ name, s'.find? logger = some ⟨name, .logger⟩)
    (traces : ∀ v ∈ w'.traces, v ∈ w.traces ∨ v.parts ⊆ W ∪ G) :
    ∃ P', Borders logger D' s' w' W G P' := by
  refine h.change W G fewer (fun _ _ _ => store ▸ .refl _) (store ▸ .refl _) (store ▸ h.code)
    (fun R _ hR hW => ?_) (store ▸ h.grave) subset_rfl subset_rfl (fun p hp => .inl hp)
    (fun i _ _ => by rw [store]) ?_ (fun e he => ?_) programs reports traces
  · rwa [union_eq_self_of_subset_right hW, store]
  · intro id
    rw [registered]
    exact h.registered id
  · rw [registered]
    exact (mail e he).imp_right (And.imp_right .inl)

lemma enter {name : String} (h : Borders logger s.Waiting s w W G P)
    (found : s.find? self = some ⟨name, .program a⟩) (registry : s'.registry = s.registry)
    (mail : ∀ e, s'.Carries e → s.Carries e) :
    ∃ P', Borders logger (s'.Beside self a.current) s' w W G P' := by
  obtain ⟨name', hreports⟩ := h.reports
  refine h.reschedule ?_ rfl (contains_congr registry) (fun e he => .inl (mail e he))
    (fun id name a ha => .inl ⟨name, registry ▸ ha⟩) ⟨name', ?_⟩ fun v hv => .inl hv
  · rintro id d (⟨rfl, hd⟩ | ⟨_, name, b, hb, hd⟩)
    · exact ⟨name, a, mem_of_find? found, hd⟩
    · exact ⟨name, b, registry ▸ hb, hd⟩
  · rw [← hreports, Scheduler.find?, Scheduler.find?, registry]

lemma leave {p : Performer} {current : Option Delivery}
    (h : Borders logger (s.Beside self current) s w W G P)
    (actor : ∀ a, p = .program a → a.current = current ∧ a.Within W logger a.backlog)
    (same : self = logger → p = .logger) :
    ∃ P', Borders logger (s.setBehavior self p).Waiting (s.setBehavior self p) w W G P' := by
  obtain ⟨name', hreports⟩ := h.reports
  refine h.reschedule (fun id d hd => ?_) rfl (fun id => ?_) (fun e he => .inl he)
    (fun id name b hb => ?_)
    ⟨name', ?_⟩ fun v hv => .inl hv
  · refine (waiting_setBehavior hd).imp_left fun ⟨hid, b, hb, hd⟩ => ⟨hid, ?_⟩
    rw [← (actor b hb).1, hd]
  · rw [Scheduler.contains, Scheduler.contains, Scheduler.find?_setBehavior]
    split <;> simp
  · obtain ⟨e, he, heq⟩ := mem_setBehavior hb
    by_cases hid : id = self
    · rw [if_pos hid] at heq
      exact .inr (actor b (congrArg Entry.behavior heq).symm).2
    · rw [if_neg hid] at heq
      cases heq
      exact .inl ⟨name, he⟩
  · rw [find?_setBehavior, hreports]
    split
    · rename_i heq
      rw [same heq.symm]
      rfl
    · rfl

end Borders

/-- At every point of the run of an actor, everything keeps to its side. -/
theorem Actor.Runs.borders {own : ActorId → Option Nat} {m : Moment}
    {s0 : Stage} {w0 w : World} {a0 : Actor} {current : Option Delivery}
    {G : Set Part} {P : ActorId → Set Part} (h : Runs m s0 w0 a0 s w a current backlog)
    (regular : Regular own (s0.Beside m.self a0.current) s0 w0)
    (start : Borders logger (s0.Beside m.self a0.current) s0 w0 W G P)
    (here : s0.contains m.self = true) (actor : a0.Within W logger a0.backlog) :
    ∃ W' G' P', W ⊆ W' ∧ a.Within W' logger backlog ∧
      Borders logger (s.Beside m.self current) s w W' G' P' := by
  have hself : Part.actor m.self ∈ W := (start.registered _).2 here
  induction h with
  | begun => exact ⟨W, G, P, subset_rfl, actor, start⟩
  | started _ ih =>
    obtain ⟨W', G', P', hW, ha, hb⟩ := ih
    refine ⟨W', G', P', hW, ?_, hb.start ((hb.registered _).1 (hW hself)) ha⟩
    exact ⟨ha.behavior, ha.env, fun m hm => ha.backlog m (mem_cons_of_mem _ hm), ha.logger⟩
  | advanced before run alive ih =>
    obtain ⟨W', G', P', hW, ha, hb⟩ := ih
    obtain ⟨own', hregular⟩ := before.regular regular
    obtain ⟨P'', hb'⟩ := hb.advance hregular run alive
    exact ⟨W', G', P'', hW, ha, hb'⟩
  | settled before answer run ih =>
    obtain ⟨W', G', P', hW, ha, hb⟩ := ih
    obtain ⟨own', hregular⟩ := before.regular regular
    obtain ⟨W'', G'', P'', hW', ha', hb'⟩ :=
      hb.settle hregular ((hb.registered _).1 (hW hself)) ha answer run
    exact ⟨W'', G'', P'', hW.trans hW', ha', hb'⟩

end Troupe
