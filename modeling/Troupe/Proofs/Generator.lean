import Troupe.Actor
import Troupe.Proofs.Arithmetic

/-!
The generator never collapses, and the service that draws from it answers every request it can.

The step is linear over the exclusive or, so it is injective as soon as it maps only zero to zero.
Its three parts are of the form `x ^^^ shift x`. What such a part maps to zero is left unchanged by
the shift, and shifting it again and again pushes all its bits out.

* `Rng.Call` and `Rng.after`: a generator after any sequence of calls.
* `Turn` and `Performer.takeAll`: the service takes messages one after the other, each in the
  surroundings it arrives in.
* `Rng.never_collapses`: the laws of the generator and of the service.
-/

namespace Troupe

open Function List Value

namespace Rng

variable {r : Rng} {x : UInt64}

/-! ### The step -/

/-- The exclusive or of a word with a shifted copy determines the word. -/
lemma xor_shift_injective {shift : UInt64 → UInt64} {n : Nat}
    (hxor : ∀ x y, shift (x ^^^ y) = shift x ^^^ shift y) (hzero : ∀ x, shift^[n] x = 0) :
    Injective fun x => x ^^^ shift x := by
  intro x y (h : x ^^^ shift x = y ^^^ shift y)
  have hsum : x ^^^ y ^^^ shift (x ^^^ y) = 0 := by
    rw [hxor, ← UInt64.xor_eq_zero_iff.2 h]
    ac_rfl
  have hfix : IsFixedPt shift (x ^^^ y) := (UInt64.xor_eq_zero_iff.1 hsum).symm
  rw [← UInt64.xor_eq_zero_iff, ← hfix.iterate n, hzero]

lemma step_injective : Injective step := by
  have h13 : Injective fun x : UInt64 => x ^^^ x <<< 13 :=
    xor_shift_injective (n := 5) (fun _ _ => UInt64.shiftLeft_xor) fun x => by
      simp [← UInt64.toBitVec_inj]
  have h7 : Injective fun x : UInt64 => x ^^^ x >>> 7 :=
    xor_shift_injective (n := 10) (fun _ _ => UInt64.shiftRight_xor) fun x => by
      simp [← UInt64.toBitVec_inj, BitVec.ushiftRight_eq_zero]
  have h17 : Injective fun x : UInt64 => x ^^^ x <<< 17 :=
    xor_shift_injective (n := 4) (fun _ _ => UInt64.shiftLeft_xor) fun x => by
      simp [← UInt64.toBitVec_inj]
  exact h17.comp (h7.comp h13)

lemma step_eq_zero_iff : step x = 0 ↔ x = 0 := step_injective.eq_iff' (rfl : step 0 = 0)

/-! ### Sequences of calls -/

/-- A call of a generator. -/
inductive Call where
  | next
  | below (bound : UInt64)

/-- The call draws a number; there is none below zero. -/
def Call.draws : Call → Bool
  | next => true
  | below bound => bound ≠ 0

/-- The generator after a call. -/
def call (r : Rng) : Call → Rng
  | .next => r.next.2
  | .below bound => (r.below bound).2

/-- The generator after a sequence of calls. -/
def after (r : Rng) (calls : List Call) : Rng := calls.foldl call r

lemma below_of_pos {bound : UInt64} (h : 0 < bound) :
    r.below bound = (some (step r.state % bound), ⟨step r.state⟩) :=
  if_neg (UInt64.pos_iff_ne_zero.1 h)

lemma call_state (r : Rng) (c : Call) :
    (r.call c).state = if c.draws then step r.state else r.state := by
  cases c with
  | next => rfl
  | below bound => by_cases h : bound = 0 <;> simp [call, below, next, Call.draws, h]

/-- A generator after some calls has made one step for each number they drew. -/
lemma after_state (r : Rng) (calls : List Call) :
    (r.after calls).state = step^[calls.countP Call.draws] r.state := by
  induction calls generalizing r with
  | nil => rfl
  | cons c calls ih =>
    rw [after, foldl_cons, ← after, ih, call_state, countP_cons]
    split
    · rw [iterate_succ_apply]
    · rfl

lemma state_ofSeed_ne_zero (seed : UInt64) : (ofSeed seed).state ≠ 0 := by
  rw [ofSeed]
  split
  · decide
  · assumption

lemma iterate_step_ne_zero (n : Nat) (h : x ≠ 0) : step^[n] x ≠ 0 := fun hx =>
  h (step_injective.iterate n (hx.trans (iterate_fixed (step_eq_zero_iff.2 rfl) n).symm))

end Rng

/-! ### The service -/

/-- The customer and the range of a request for a number. -/
def Value.request? : Value → Option (ActorId × Int64)
  | .pair (.actor customer) (.number range) =>
    if 0 < range.toInt then some (customer, range) else none
  | _ => none

/-- A message to a performer, with the surroundings it arrives in. -/
structure Turn where
  moment : Moment
  message : Value
  world : World
  stage : Stage

/-- A number was asked for. -/
def Turn.asks (t : Turn) : Bool := t.message.request?.isSome

/-- The surroundings after a request was answered: nothing changed but that the customer, if it is
registered, was sent one number below the range. -/
def Turn.Answered (t : Turn) (after : World × Stage) : Prop :=
  after.1 = t.world ∧
    match t.message.request? with
    | some (customer, range) =>
      if t.stage.contains customer then
        ∃ n : Int64, 0 ≤ n.toInt ∧ n.toInt < range.toInt ∧
          t.stage.send (.number n) customer = .ok after.2
      else after.2 = t.stage
    | none => after.2 = t.stage

namespace Performer

variable {customer : ActorId} {range : Int64}

/-- A performer takes messages one after the other. Others may act in between, so each message
arrives in surroundings of its own; answered are those it leaves. -/
def takeAll (p : Performer) : List Turn → List (World × Stage) × Performer
  | [] => ([], p)
  | t :: ts =>
    let ((p, w), s) := (p.receive t.moment t.message t.world).run t.stage
    let (afters, p) := p.takeAll ts
    ((w, s) :: afters, p)

/-- A number below a range is a number of the language. -/
lemma exists_draw (rng : Rng) (h : 0 < range.toInt) :
    ∃ x : UInt64, rng.below (.ofNat range.toInt.toNat) = (some x, rng.next.2) ∧
      ∃ n : Int64, ofInt? x.toNat = some (.number n) ∧ 0 ≤ n.toInt ∧ n.toInt < range.toInt := by
  have hlt := range.toInt_lt
  have hrange : (UInt64.ofNat range.toInt.toNat).toNat = range.toInt.toNat :=
    UInt64.toNat_ofNat_of_lt' (by rw [UInt64.size]; omega)
  have hbound : 0 < UInt64.ofNat range.toInt.toNat := by
    rw [UInt64.lt_iff_toNat_lt, hrange, UInt64.toNat_zero]
    omega
  obtain ⟨x, hx⟩ : ∃ x, Rng.step rng.state % .ofNat range.toInt.toNat = x := ⟨_, rfl⟩
  have hdraw : x.toNat < range.toInt.toNat :=
    hrange ▸ UInt64.lt_iff_toNat_lt.1 (hx ▸ UInt64.mod_lt _ hbound)
  have hint : (Int64.ofInt x.toNat).toInt = x.toNat :=
    Int64.toInt_ofInt_of_le (by omega) (by omega)
  refine ⟨x, hx ▸ Rng.below_of_pos hbound, .ofInt x.toNat, ?_, by omega, by omega⟩
  exact congrArg (Option.map number) (int64?_eq_some_iff.2 hint)

lemma serveRandom_of_request {m : Value} (rng : Rng) (h : m.request? = some (customer, range)) :
    ∃ n : Int64, 0 ≤ n.toInt ∧ n.toInt < range.toInt ∧
      serveRandom rng m = .send (.number n) customer fun _ => .done rng.next.2 := by
  unfold request? at h
  split at h
  · split at h
    · rename_i hpos
      cases h
      obtain ⟨x, hx, n, hn, hle, hlt⟩ := exists_draw rng hpos
      exact ⟨n, hle, hlt, by simp only [serveRandom, natural?, if_pos hpos.le, hx, hn]⟩
    · cases h
  · cases h

lemma serveRandom_of_no_request {m : Value} (rng : Rng) (h : m.request? = none) :
    serveRandom rng m = .done rng := by
  unfold serveRandom
  split
  · rename_i customer v
    split
    · rename_i k hk
      obtain rfl : k = 0 := by
        cases v with
        | number range =>
          have hpos : ¬ 0 < range.toInt := fun hpos => by simp [request?, hpos] at h
          obtain ⟨-, hk⟩ := Option.ite_none_right_eq_some.1 hk
          cases hk
          omega
        | _ => cases hk
      rfl
    · rfl
  · rfl

lemma take_answered (rng : Rng) (t : Turn) :
    ∃ after, ((random rng).receive t.moment t.message t.world).run t.stage =
      ((random (if t.asks then rng.next.2 else rng), after.1), after.2) ∧ t.Answered after := by
  have hrun : ((random rng).receive t.moment t.message t.world).run t.stage =
      ((serveRandom rng t.message).bind fun rng => .done (random rng, t.world)).run t.stage := rfl
  unfold Turn.Answered Turn.asks
  cases h : t.message.request? with
  | none =>
    refine ⟨(t.world, t.stage), ?_, rfl, rfl⟩
    rw [hrun, serveRandom_of_no_request rng h]
    rfl
  | some request =>
    obtain ⟨n, hle, hlt, heq⟩ := serveRandom_of_request rng h
    rw [hrun, heq]
    refine ⟨(t.world, (Script.settle t.stage (t.stage.send (.number n) request.1)).2), rfl, rfl, ?_⟩
    unfold Scheduler.send
    by_cases hmem : t.stage.contains request.1
    · simp only [hmem, if_true]
      exact ⟨n, hle, hlt, rfl⟩
    · simp only [hmem]
      rfl

/-- The service answers its turns, and its generator makes one step for each that asks. -/
lemma takeAll_answered (rng : Rng) (turns : List Turn) :
    ∃ afters, Forall₂ Turn.Answered turns afters ∧
      (random rng).takeAll turns =
        (afters, .random ⟨Rng.step^[turns.countP Turn.asks] rng.state⟩) := by
  induction turns generalizing rng with
  | nil => exact ⟨[], .nil, rfl⟩
  | cons t ts ih =>
    obtain ⟨after, heq, hafter⟩ := take_answered rng t
    obtain ⟨afters, hafters, hall⟩ := ih (if t.asks then rng.next.2 else rng)
    refine ⟨after :: afters, .cons hafter hafters, ?_⟩
    rw [takeAll, heq]
    simp only [hall, countP_cons]
    split <;> rfl

end Performer

/-- The step is injective and maps only zero to zero. So a generator made from a seed never has the
state zero, and generators that differ keep differing as long as they draw equally many numbers.
Below a positive bound one number is drawn. The random service sends one number below the range for
each request from a registered customer; what asks for no number leaves its generator as it is. -/
theorem Rng.never_collapses :
    (Injective step ∧ ∀ x, step x = 0 ↔ x = 0) ∧
    (∀ seed calls, ((ofSeed seed).after calls).state ≠ 0) ∧
    (∀ r r' : Rng, r.state ≠ r'.state → ∀ calls calls' : List Call,
      calls.countP Call.draws = calls'.countP Call.draws →
        (r.after calls).state ≠ (r'.after calls').state) ∧
    (∀ (r : Rng) (bound : UInt64), 0 < bound →
      ∃ n < bound, r.below bound = (some n, ⟨step r.state⟩)) ∧
    ∀ (rng : Rng) (turns : List Turn), ∃ afters, Forall₂ Turn.Answered turns afters ∧
      (Performer.random rng).takeAll turns =
        (afters, .random ⟨step^[turns.countP Turn.asks] rng.state⟩) := by
  refine ⟨⟨step_injective, fun _ => step_eq_zero_iff⟩, fun seed calls => ?_, ?_, ?_,
    Performer.takeAll_answered⟩
  · rw [after_state]
    exact iterate_step_ne_zero _ (state_ofSeed_ne_zero seed)
  · intro r r' hne calls calls' hcount heq
    rw [after_state, after_state, hcount] at heq
    exact hne (step_injective.iterate _ heq)
  · exact fun r bound h => ⟨_, UInt64.mod_lt _ h, below_of_pos h⟩

/-- The seed zero, and two generators of which the second is also called where nothing is below. -/
theorem Rng.zero_seed_never_zero :
    ((ofSeed 0).after [.next, .below 6, .below 0]).state ≠ 0 ∧
      ((ofSeed 42).after [.next]).state ≠ ((ofSeed 43).after [.below 0, .below 6]).state ∧
      ∃ n < 6, (ofSeed 42).below 6 = (some n, ⟨step 42⟩) :=
  have ⟨_, hzero, happart, hbelow, _⟩ := never_collapses
  ⟨hzero 0 _, happart _ _ (by decide) _ _ (by decide), hbelow _ 6 (by decide)⟩

end Troupe
