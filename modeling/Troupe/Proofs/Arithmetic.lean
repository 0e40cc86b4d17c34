import Mathlib
import Troupe.Operation

/-!
The functions of numbers answer the exact result, or `?` where 64 bits do not hold it.

* `Operation.arithmetic_exact`: sums, differences, products, quotients and negation.
* `Operation.tupleToNumber_positional`: numbers from their digits in some base. A partial result is
  at most the number that all digits write, so no number that fits is lost on the way.
-/

namespace Troupe

open Int64 List Nat Operation Option Value

lemma Value.int64?_eq_some_iff {n : Int} {m : Int64} : int64? n = some m ↔ m.toInt = n := by
  rw [int64?, toInt_minValue, toInt_maxValue]
  constructor
  · intro h
    split at h
    · rename_i hn
      rw [← some.inj h, toInt_ofInt_of_le hn.1 (by omega)]
    · cases h
  · rintro rfl
    have hlt := m.toInt_lt
    rw [if_pos ⟨m.le_toInt, by omega⟩, ofInt_toInt]

/-- A sequence of numbers, ended by `NIL` or by the last of them. -/
inductive Value.Numbers : Value → List Int64 → Prop where
  | nil : Numbers .nil []
  | last (d : Int64) : Numbers (.number d) [d]
  | cons (d : Int64) {v : Value} {ds : List Int64} :
    Numbers v ds → Numbers (.pair (.number d) v) (d :: ds)

namespace Operation

variable {o : Operation} {v w : Value} {a b q n m base d : Int64} {ds : List Int64}

/-- A function whose answers are numbers. -/
lemma apply_number_iff {P : Int64 → Prop}
    (h : ∀ w, o.answer? v = some w ↔ ∃ n, w = .number n ∧ P n) :
    (∀ n, o.apply v = .number n ↔ P n) ∧ ((∀ n, ¬ P n) → o.apply v = .undefined) := by
  rw [apply]
  cases hw : o.answer? v with
  | none =>
    have hnone : ∀ n, ¬ P n := fun n hn => nomatch hw.symm.trans ((h _).2 ⟨n, rfl, hn⟩)
    simp [hnone]
  | some w =>
    obtain ⟨n, rfl, hn⟩ := (h w).1 hw
    refine ⟨fun m => ⟨fun hm => ?_, fun hm => ?_⟩, fun hnone => absurd hn (hnone n)⟩
    · cases hm
      exact hn
    · exact some.inj (hw.symm.trans ((h _).2 ⟨m, rfl, hm⟩))

/-! ### Division -/

lemma fdiv_eq_floor (a b : Int) : a.fdiv b = ⌊(a : ℚ) / b⌋ := by
  have hnat : ∀ (a : Int) (b : ℕ), a.fdiv b = ⌊(a : ℚ) / (b : Int)⌋ := fun a b => by
    rw [Int.fdiv_eq_ediv_of_nonneg a (Int.natCast_nonneg b)]
    exact (Rat.floor_intCast_div_natCast a b).symm
  obtain ⟨b, rfl | rfl⟩ := b.eq_nat_or_neg
  · exact hnat a b
  · rw [← Int.neg_fdiv_neg, neg_neg, hnat, Int.cast_neg, Int.cast_neg, div_neg, neg_div]

/-- Rounding down takes one off where there is a remainder and the signs differ. -/
lemma fdiv_eq_tdiv_sub {a b : Int} (hb : b ≠ 0) : a.fdiv b =
    if a.tmod b ≠ 0 ∧ decide (a < 0) ≠ decide (b < 0) then a.tdiv b - 1 else a.tdiv b := by
  simp only [Int.fdiv_eq_tdiv, Int.dvd_iff_tmod_eq_zero]
  rcases lt_or_gt_of_ne hb with hneg | hpos
  · rw [Int.sign_eq_neg_one_of_neg hneg]
    grind
  · rw [Int.sign_eq_one_of_pos hpos]
    grind

/-- With a remainder, the divisor is at least two. -/
lemma two_mul_natAbs_tdiv_le {a b : Int} (h : a.tmod b ≠ 0) : 2 * (a.tdiv b).natAbs ≤ a.natAbs := by
  have hone : b.natAbs ≠ 1 := fun hone => by
    rcases Int.natAbs_eq_iff.1 hone with rfl | rfl <;> simp at h
  rw [Int.natAbs_tdiv]
  change 2 * (a.natAbs / b.natAbs) ≤ a.natAbs
  obtain hzero | htwo : b.natAbs = 0 ∨ 2 ≤ b.natAbs := by omega
  · simp [hzero]
  · have := div_le_div_left htwo two_pos (a := a.natAbs)
    omega

lemma mod_eq_zero_iff : a % b = 0 ↔ a.toInt.tmod b.toInt = 0 := by
  rw [← toInt_mod, ← toInt_zero, toInt_inj]

lemma quotient?_eq_some_iff : quotient? a b = some q ↔ b ≠ 0 ∧ q.toInt = a.toInt.tdiv b.toInt := by
  unfold quotient?
  split <;> simp_all [int64?_eq_some_iff]

/-- With a remainder there is a quotient, and one less than it still fits. -/
lemma exists_quotient? (h : a % b ≠ 0) (hb : b ≠ 0) :
    ∃ q, quotient? a b = some q ∧ minValue < q := by
  have hhalf := two_mul_natAbs_tdiv_le (mt mod_eq_zero_iff.2 h)
  have hlow := a.le_toInt
  have hhigh := a.toInt_lt
  have hq := toInt_ofInt_of_le (n := a.toInt.tdiv b.toInt) (by omega) (by omega)
  refine ⟨.ofInt (a.toInt.tdiv b.toInt), quotient?_eq_some_iff.2 ⟨hb, hq⟩, ?_⟩
  rw [lt_iff_toInt_lt, hq, toInt_minValue]
  omega

lemma floorDiv?_eq_some_iff :
    floorDiv? a b = some n ↔ b ≠ 0 ∧ n.toInt = ⌊(a.toInt : ℚ) / b.toInt⌋ := by
  by_cases hb : b = 0
  · simp [floorDiv?, quotient?, hb]
  have hb' : b.toInt ≠ 0 := fun h => hb (toInt_inj.1 (h.trans toInt_zero.symm))
  rw [← fdiv_eq_floor, fdiv_eq_tdiv_sub hb', floorDiv?]
  simp only [Ne, mod_eq_zero_iff, lt_iff_toInt_lt, toInt_zero]
  by_cases hrem : a.toInt.tmod b.toInt = 0
  · simp [hrem, quotient?_eq_some_iff]
  · obtain ⟨q, hq, -⟩ := exists_quotient? (mt mod_eq_zero_iff.1 hrem) hb
    rw [hq, bind_some, ← (quotient?_eq_some_iff.1 hq).2]
    split
    · simp [hb, int64?_eq_some_iff]
    · simp [hb, eq_comm, ← toInt_inj]

/-! ### Arithmetic -/

/-- The exact result of an arithmetic function, among all whole numbers. -/
inductive Exact : Operation → Value → Int → Prop where
  | add (a b : Int64) : Exact add (.pair (.number a) (.number b)) (a.toInt + b.toInt)
  | sub (a b : Int64) : Exact sub (.pair (.number a) (.number b)) (a.toInt - b.toInt)
  | mul (a b : Int64) : Exact mul (.pair (.number a) (.number b)) (a.toInt * b.toInt)
  | div (a b : Int64) : b ≠ 0 →
    Exact div (.pair (.number a) (.number b)) ⌊(a.toInt : ℚ) / b.toInt⌋
  | neg (a : Int64) : Exact neg (.number a) (-a.toInt)

lemma Exact.answer? (h : Exact o v n.toInt) : o.answer? v = some (.number n) := by
  generalize hn : n.toInt = m at h
  cases h with
  | add | sub | mul => simp [answer?, arithmetic, int64?_eq_some_iff, hn]
  | div a b hb => simp [answer?, arithmetic, floorDiv?_eq_some_iff, hb, hn]
  | neg => simp [answer?, ofInt?, int64?_eq_some_iff, hn]

lemma exists_of_arithmetic {f : Int64 → Int64 → Option Int64} (h : arithmetic f v = some w) :
    ∃ a b n, v = .pair (.number a) (.number b) ∧ f a b = some n ∧ w = .number n := by
  unfold arithmetic at h
  split at h
  · obtain ⟨n, hn, rfl⟩ := map_eq_some_iff.1 h
    exact ⟨_, _, n, rfl, hn, rfl⟩
  · cases h

lemma exact_of_answer? (ho : o ∈ [add, sub, mul, div, neg]) (h : o.answer? v = some w) :
    ∃ n : Int64, w = .number n ∧ Exact o v n.toInt := by
  simp only [mem_cons, not_mem_nil, or_false] at ho
  obtain rfl | rfl | rfl | rfl | rfl := ho
  · obtain ⟨a, b, n, rfl, hn, rfl⟩ := exists_of_arithmetic h
    exact ⟨n, rfl, int64?_eq_some_iff.1 hn ▸ .add a b⟩
  · obtain ⟨a, b, n, rfl, hn, rfl⟩ := exists_of_arithmetic h
    exact ⟨n, rfl, int64?_eq_some_iff.1 hn ▸ .sub a b⟩
  · obtain ⟨a, b, n, rfl, hn, rfl⟩ := exists_of_arithmetic h
    exact ⟨n, rfl, int64?_eq_some_iff.1 hn ▸ .mul a b⟩
  · obtain ⟨a, b, n, rfl, hn, rfl⟩ := exists_of_arithmetic h
    obtain ⟨hb, hn⟩ := floorDiv?_eq_some_iff.1 hn
    exact ⟨n, rfl, hn ▸ .div a b hb⟩
  · cases v with
    | number a =>
      obtain ⟨n, hn, rfl⟩ := map_eq_some_iff.1 h
      exact ⟨n, rfl, int64?_eq_some_iff.1 hn ▸ .neg a⟩
    | _ => cases h

/-- **Arithmetic is exact or undefined.** A function answers the number that its exact result is,
and `?` if there is no such number. Where division asks for the remainder, there is one; and where
there is a remainder, one less than the quotient fits. -/
theorem arithmetic_exact (ho : o ∈ [add, sub, mul, div, neg]) (v : Value) :
    (∀ n : Int64, o.apply v = .number n ↔ Exact o v n.toInt) ∧
    ((∀ n : Int64, ¬ Exact o v n.toInt) → o.apply v = .undefined) ∧
    ∀ a b q, quotient? a b = some q → b ≠ 0 ∧ ¬(a = minValue ∧ b = -1) ∧
      (a % b ≠ 0 → minValue < q) := by
  obtain ⟨hnumber, hnone⟩ := apply_number_iff fun w => ⟨exact_of_answer? ho (v := v), fun h => by
    obtain ⟨n, rfl, hn⟩ := h
    exact hn.answer?⟩
  refine ⟨hnumber, hnone, fun a b q hq => ?_⟩
  obtain ⟨hb, hq'⟩ := quotient?_eq_some_iff.1 hq
  refine ⟨hb, ?_, fun hrem => ?_⟩
  · rintro ⟨rfl, rfl⟩
    exact absurd (hq' ▸ q.toInt_lt) (by decide)
  · obtain ⟨q', hq'', hlt⟩ := exists_quotient? hrem hb
    cases hq.symm.trans hq''
    exact hlt

theorem quotient_rounded_down :
    div.apply (.pair (.number (-7)) (.number 2)) = .number (-4) ∧
      Exact div (.pair (.number (-7)) (.number 2)) (-4) :=
  ⟨by decide, ((arithmetic_exact (by decide) _).1 (-4)).1 (by decide)⟩

/-! ### Digits -/

/-- The number `d` is the code of a character that stands for the digit `x`. -/
def IsCode (d : Int) (x : ℕ) : Prop :=
  x < 10 ∧ d = '0'.toNat + x ∨
  10 ≤ x ∧ x < 36 ∧ (d + 10 = 'A'.toNat + x ∨ d + 10 = 'a'.toNat + x)

/-- The digit that a number denotes. -/
def Denotes (d : Int64) (x : ℕ) : Prop :=
  IsCode d.toInt x ∨ d.toInt = x ∧ ∀ y, ¬ IsCode d.toInt y

/-- The digits of the number `n` in a base, the first of them the highest. -/
def Spells (base : Int64) (ds : List Int64) (n : Int64) : Prop :=
  ∃ (b : ℕ) (xs : List ℕ), base.toInt = b ∧ 2 ≤ b ∧ b ≤ 36 ∧ List.Forall₂ Denotes ds xs ∧
    (∀ x ∈ xs, x < b) ∧ n.toInt = Nat.ofDigits b xs.reverse

/-- A base and the digits of `n` in it, or no digits for zero. -/
def Writes (v : Value) (n : Int64) : Prop :=
  ∃ base digits ds, v = .pair (.number base) digits ∧ digits.Numbers ds ∧
    (ds = [] ∧ n = 0 ∨ Spells base ds n)

lemma IsCode.digitValue {d : Int} {x : ℕ} (h : IsCode d x) : digitValue d = x := by
  simp only [IsCode, show '0'.toNat = 48 from rfl, show 'A'.toNat = 65 from rfl,
    show 'a'.toNat = 97 from rfl] at h
  rw [Operation.digitValue]
  split_ifs <;> omega

/-- A number that is no such code is its own value. -/
lemma digitValue_of_forall_not_isCode {d : Int} (h : ∀ x, ¬ IsCode d x) : digitValue d = d := by
  simp only [IsCode, show '0'.toNat = 48 from rfl, show 'A'.toNat = 65 from rfl,
    show 'a'.toNat = 97 from rfl] at h
  rw [digitValue]
  split_ifs with h0 hA ha
  · exact absurd (h (d - 48).toNat) (by omega)
  · exact absurd (h (d - 55).toNat) (by omega)
  · exact absurd (h (d - 87).toNat) (by omega)
  · rfl

lemma denotes_iff {x : ℕ} : Denotes d x ↔ digitValue d.toInt = x := by
  by_cases hcode : ∃ y, IsCode d.toInt y
  · obtain ⟨y, hy⟩ := hcode
    refine ⟨fun h => ?_, fun h => .inl ?_⟩
    · rcases h with h | ⟨-, h⟩
      · exact h.digitValue
      · exact absurd hy (h y)
    · rwa [← Int.natCast_inj.1 (hy.digitValue.symm.trans h)]
  · have hnone : ∀ y, ¬ IsCode d.toInt y := not_exists.1 hcode
    simp [Denotes, hnone, digitValue_of_forall_not_isCode hnone]

lemma digit?_eq_some_iff {x : Int} : digit? base.toInt d.toInt = some x ↔
    2 ≤ base.toInt ∧ base.toInt ≤ 36 ∧ ∃ k : ℕ, Denotes d k ∧ k < base.toInt ∧ x = k := by
  simp only [denotes_iff, digit?]
  constructor
  · intro h
    split at h
    · rename_i hv
      obtain ⟨k, hk⟩ := Int.eq_ofNat_of_zero_le hv.2.2.1
      exact ⟨hv.1, hv.2.1, k, hk, hk ▸ hv.2.2.2, (some.inj h).symm.trans hk⟩
    · cases h
  · rintro ⟨hlow, hhigh, k, hk, hlt, rfl⟩
    rw [if_pos (by omega), hk]

/-- A digit is pushed if the number with it fits: the product without it then fits, too. -/
lemma pushDigit?_eq_some_iff (hn : 0 ≤ n.toInt) :
    pushDigit? base n d = some m ↔ 2 ≤ base.toInt ∧ base.toInt ≤ 36 ∧
      ∃ k : ℕ, Denotes d k ∧ k < base.toInt ∧ m.toInt = n.toInt * base.toInt + k := by
  simp only [pushDigit?, bind_eq_some_iff, digit?_eq_some_iff, int64?_eq_some_iff]
  constructor
  · rintro ⟨_, ⟨hlow, hhigh, k, hd, hk, rfl⟩, p, hp, hm⟩
    exact ⟨hlow, hhigh, k, hd, hk, hp ▸ hm⟩
  · rintro ⟨hlow, hhigh, k, hd, hk, hm⟩
    have hpos : 0 ≤ n.toInt * base.toInt := mul_nonneg hn (by omega)
    have hmlt := m.toInt_lt
    have hp := toInt_ofInt_of_le (n := n.toInt * base.toInt) (by omega) (by omega)
    exact ⟨k, ⟨hlow, hhigh, k, hd, hk, rfl⟩, .ofInt (n.toInt * base.toInt), hp, by rw [hp, hm]⟩

/-- Reading pushes the numbers of a sequence one by one. -/
lemma readDigits?_eq_some_iff : readDigits? base n v = some m ↔
    ∃ ds, v.Numbers ds ∧ ds.foldlM (pushDigit? base) n = some m := by
  fun_induction readDigits? base n v with
  | case1 n => exact ⟨fun h => ⟨[], .nil, h⟩, by rintro ⟨_, ⟨⟩, h⟩; exact h⟩
  | case2 n d =>
    refine ⟨fun h => ⟨[d], .last d, by simpa using h⟩, ?_⟩
    rintro ⟨_, ⟨⟩, h⟩
    simpa using h
  | case3 n d rest ih =>
    constructor
    · intro h
      obtain ⟨n', hn', h⟩ := bind_eq_some_iff.1 h
      obtain ⟨ds, hds, h⟩ := (ih n').1 h
      exact ⟨d :: ds, .cons d hds, by simp [hn', h]⟩
    · rintro ⟨_, ⟨⟩, h⟩
      rename_i ds hds
      rw [foldlM_cons] at h
      obtain ⟨n', hn', h⟩ := bind_eq_some_iff.1 h
      exact bind_eq_some_iff.2 ⟨n', hn', (ih n').2 ⟨ds, hds, h⟩⟩
  | case4 n v hnil hnumber hpair =>
    refine ⟨nofun, ?_⟩
    rintro ⟨_, hds, -⟩
    cases hds with
    | nil => exact absurd rfl hnil
    | last d => exact absurd rfl (hnumber d)
    | cons d => exact absurd rfl (hpair d _)

/-- Digits pushed behind the number `k` leave it in front of them. -/
lemma foldlM_pushDigit?_eq_some_iff {b k : ℕ} (hbase : base.toInt = b) (hlow : 2 ≤ b)
    (hhigh : b ≤ 36) (hn : n.toInt = k) :
    ds.foldlM (pushDigit? base) n = some m ↔ ∃ xs : List ℕ, Forall₂ Denotes ds xs ∧
      (∀ x ∈ xs, x < b) ∧ m.toInt = ofDigits b (xs.reverse ++ [k]) := by
  induction ds generalizing n k with
  | nil => simp [eq_comm, ← toInt_inj, hn]
  | cons d ds ih =>
    have hpush : ∀ xs x, ofDigits b ((x :: xs).reverse ++ [k]) =
        ofDigits b (xs.reverse ++ [k * b + x]) := fun xs x => by
      simp only [reverse_cons, append_assoc, singleton_append, ofDigits_append,
        ofDigits_cons, ofDigits_nil]
      ring
    simp only [foldlM_cons, bind_eq_bind, bind_eq_some_iff,
      pushDigit?_eq_some_iff (hn ▸ k.cast_nonneg), forall₂_cons_left_iff]
    constructor
    · rintro ⟨n', ⟨-, -, x, hd, hx, hn'⟩, h⟩
      obtain ⟨xs, hxs, hlt, hm⟩ := (ih (k := k * b + x) (by simp [hn', hn, hbase])).1 h
      exact ⟨_, ⟨x, xs, hd, hxs, rfl⟩, forall_mem_cons.2 ⟨by omega, hlt⟩, hpush xs x ▸ hm⟩
    · rintro ⟨_, ⟨x, xs, hd, hxs, rfl⟩, hlt, hm⟩
      rw [hpush] at hm
      have hle : k * b + x ≤ ofDigits b (xs.reverse ++ [k * b + x]) := by
        rw [ofDigits_append, ofDigits_singleton]
        exact le_add_left (Nat.le_mul_of_pos_left _ (by positivity))
      have hmlt := m.toInt_lt
      have hn' := toInt_ofInt_of_le (n := (k * b + x : ℕ)) (by omega) (by omega)
      obtain ⟨hx, hlt⟩ := forall_mem_cons.1 hlt
      refine ⟨_, ⟨by omega, by omega, x, hd, by omega, ?_⟩, (ih hn').2 ⟨xs, hxs, hlt, hm⟩⟩
      rw [hn', hn, hbase, cast_add, cast_mul]

lemma readDigits?_zero : readDigits? base 0 v = some n ↔
    ∃ ds, v.Numbers ds ∧ (ds = [] ∧ n = 0 ∨ Spells base ds n) := by
  rw [readDigits?_eq_some_iff]
  refine exists_congr fun ds => and_congr_right fun _ => ⟨fun h => ?_, ?_⟩
  · cases ds with
    | nil => exact .inl ⟨rfl, (some.inj h).symm⟩
    | cons d ds =>
      have hfirst := h
      rw [foldlM_cons] at hfirst
      obtain ⟨_, hpush, -⟩ := bind_eq_some_iff.1 hfirst
      obtain ⟨hlow, hhigh, -⟩ := (pushDigit?_eq_some_iff (by decide)).1 hpush
      obtain ⟨b, hb⟩ := Int.eq_ofNat_of_zero_le (by omega : 0 ≤ base.toInt)
      obtain ⟨xs, hxs, hlt, hn⟩ :=
        (foldlM_pushDigit?_eq_some_iff (k := 0) hb (by omega) (by omega) rfl).1 h
      exact .inr ⟨b, xs, hb, by omega, by omega, hxs, hlt, by simpa [ofDigits_append] using hn⟩
  · rintro (⟨rfl, rfl⟩ | ⟨b, xs, hb, hlow, hhigh, hxs, hlt, hn⟩)
    · rfl
    · exact (foldlM_pushDigit?_eq_some_iff (k := 0) hb hlow hhigh rfl).2
        ⟨xs, hxs, hlt, by simpa [ofDigits_append] using hn⟩

lemma tupleToNumber_eq_some_iff :
    tupleToNumber.answer? v = some w ↔ ∃ n, w = .number n ∧ Writes v n := by
  cases v with
  | pair head digits =>
    cases head with
    | number base =>
      have hwrites : ∀ n, Writes (.pair (.number base) digits) n ↔
          readDigits? base 0 digits = some n := fun n => by simp [Writes, readDigits?_zero]
      simp [answer?, hwrites, eq_comm, and_comm]
    | _ => simp [answer?, Writes]
  | _ => simp [answer?, Writes]

/-- **Digits convert exactly.** A base and digits give the number they write and everything else
gives `?`, among it digits of numbers that 64 bits do not hold. So a number written in a base, with
zeros in front of it or not, is read back. -/
theorem tupleToNumber_positional (v : Value) :
    (∀ n, tupleToNumber.apply v = .number n ↔ Writes v n) ∧
    ((∀ n, ¬ Writes v n) → tupleToNumber.apply v = .undefined) ∧
    ∀ (base n : Int64) (b m zeros : ℕ) (ds : List Int64) (digits : Value),
      base.toInt = b → 2 ≤ b → b ≤ 36 → n.toInt = m → digits.Numbers ds →
      List.Forall₂ Denotes ds (List.replicate zeros 0 ++ (b.digits m).reverse) →
      tupleToNumber.apply (.pair (.number base) digits) = .number n := by
  have hread : ∀ v, (∀ n, tupleToNumber.apply v = .number n ↔ Writes v n) ∧
      ((∀ n, ¬ Writes v n) → tupleToNumber.apply v = .undefined) := fun v =>
    apply_number_iff fun w => tupleToNumber_eq_some_iff
  refine ⟨(hread v).1, (hread v).2, fun base n b m zeros ds digits hb hlow hhigh hn hds hxs => ?_⟩
  refine ((hread _).1 n).2 ⟨base, digits, ds, rfl, hds, .inr ⟨b, _, hb, hlow, hhigh, hxs, ?_, ?_⟩⟩
  · intro x hx
    rcases List.mem_append.1 hx with hzero | hdigit
    · rw [List.eq_of_mem_replicate hzero]
      omega
    · exact Nat.digits_lt_base (by omega) (List.mem_reverse.1 hdigit)
  · simp [Nat.ofDigits_append, Nat.ofDigits_digits, hn]

/-- The greatest number in base 36, with a zero in front of it and letters of both cases. -/
theorem tupleToNumber_greatest :
    tupleToNumber.apply (.pair (.number 36) (.tuple ([0, 1, 121, 50, 80, 0, 73, 74, 51, 50, 101,
      56, 101, 55].map .number))) = .number maxValue := by
  refine (tupleToNumber_positional .nil).2.2 36 maxValue 36 (2 ^ 63 - 1) 1 _ _ rfl (by decide)
    (by decide) rfl (by repeat constructor) ?_
  simp [denotes_iff]
  decide

end Operation

end Troupe
