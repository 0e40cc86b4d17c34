import Mathlib
import Troupe.Value.Text

/-!
The text of data says what it is.

Pairs are written flat along their tails, so a text does not show at once where a pair begins. It
does show where the head of a pair ends: at the first comma if the head is an atom, as atoms are
free of commas, and otherwise at the parenthesis that closes it. So a text is read from left to
right, and what follows the text of a value is nothing, or the parenthesis behind a head.

* `Value.atom_inj`: atoms with one text are one.
* `Value.chars_append_inj`: the characters of a value, with what follows them, determine the value.
* `Value.text_injective_of_isData`
-/

namespace Troupe.Value

open Bool List

/-- The character does not divide the parts of pairs. -/
def isPlain (c : Char) : Bool := c != ',' && c != '(' && c != ')'

/-- The value is free of code, and its symbols are free of the characters that divide pairs. -/
def isData : Value → Bool
  | undefined | nil | bool _ | number _ | actor _ => true
  | symbol s => s.toList.all isPlain
  | pair h t => h.isData && t.isData
  | closure _ | native _ | block _ => false

variable {v w : Value} {c : Char} {l l' r r' : List Char}

/-! ### Atoms -/

/-- Numbers are written with digits and a sign. -/
lemma mem_number {n : Int} (h : c ∈ (toString n).toList) : c.isDigit = true ∨ c = '-' := by
  have hnat : ∀ m : Nat, c ∈ m.repr.toList → c.isDigit = true := fun m hc =>
    Nat.isDigit_of_mem_toDigits (by decide) (by decide) (Nat.toList_repr ▸ hc)
  cases n with
  | ofNat m => exact .inl (hnat m h)
  | negSucc m =>
    have hc : c ∈ ("-" ++ (m + 1).repr).toList := h
    rw [String.toList_append, mem_append] at hc
    exact hc.symm.imp (hnat _) (by simp)

lemma eq_number {n : Int64} (h : v.number? = some n) : v = number n := by
  cases v with
  | number m => exact congrArg number (Option.some.inj h)
  | _ => cases h

/-- What is no number is written with other characters, too. -/
lemma number_ne_atom (hw : w.isData) (hp : w.isPair = false) (hn : w.number? = none) (n : Int) :
    toString n ≠ w.atom := by
  have hne : ∀ c ∈ w.atom.toList, c.isDigit = false → c ≠ '-' → toString n ≠ w.atom := by
    intro c hc hdigit hsign heq
    rcases mem_number (heq ▸ hc) with h | h
    · simp [hdigit] at h
    · exact hsign h
  cases w with
  | undefined => exact hne '?' (by simp [atom]) rfl (by decide)
  | nil => exact hne 'N' (by simp [atom]) rfl (by decide)
  | bool b => cases b <;> exact hne 'E' (by simp [atom]) rfl (by decide)
  | symbol s => exact hne '#' (by simp [atom]) rfl (by decide)
  | actor id => exact hne '@' (by simp [atom]) rfl (by decide)
  | number n => cases hn
  | pair h t => cases hp
  | closure _ | native _ | block _ => cases hw

/-- Atoms with one text are one. -/
lemma atom_inj (hv : v.isData) (hw : w.isData) (hpv : v.isPair = false) (hpw : w.isPair = false)
    (h : v.atom = w.atom) : v = w := by
  cases hnv : v.number? with
  | some n =>
    obtain rfl := eq_number hnv
    cases hnw : w.number? with
    | some m =>
      obtain rfl := eq_number hnw
      rw [Int64.toInt_inj.1 (Int.repr_injective h)]
    | none => exact absurd h (number_ne_atom hw hpw hnw _)
  | none =>
    cases hnw : w.number? with
    | some m =>
      obtain rfl := eq_number hnw
      exact absurd h.symm (number_ne_atom hv hpv hnv _)
    | none =>
      -- the first characters tell the other atoms apart
      have hdigits : ∀ a b : Nat, Nat.toDigits 10 a = Nat.toDigits 10 b → a = b := fun a b hab => by
        rwa [← Nat.toList_repr, ← Nat.toList_repr, String.toList_inj, Nat.repr_inj] at hab
      rw [String.ext_iff] at h
      rcases v with _ | _ | ⟨_ | _⟩ | _ | s | _ | ⟨⟨a⟩⟩ | _ | _ | _ <;>
        rcases w with _ | _ | ⟨_ | _⟩ | _ | s' | _ | ⟨⟨b⟩⟩ | _ | _ | _ <;>
        simp_all [atom, isPair, isData, number?, String.toList_inj]
      exact hdigits a b h

/-- Atoms are not empty, and do not hold what divides pairs. -/
lemma atom_plain (hv : v.isData) (hp : v.isPair = false) :
    v.atom.toList ≠ [] ∧ ∀ c ∈ v.atom.toList, isPlain c = true := by
  have hnumber : ∀ n : Int, ∀ c ∈ (toString n).toList, isPlain c = true := by
    intro n c hc
    rcases mem_number hc with h | rfl
    · by_contra hdivides
      have hc : c = ',' ∨ c = '(' ∨ c = ')' := by
        simp only [isPlain, bne, and_eq_true, not_eq_true', beq_eq_false_iff_ne] at hdivides
        tauto
      rcases hc with rfl | rfl | rfl <;> cases h
    · rfl
  cases v with
  | number n =>
    refine ⟨?_, hnumber n.toInt⟩
    rw [atom]
    cases n.toInt <;> simp [toString, Int.repr]
  | actor id =>
    refine ⟨by simp [atom], fun c hc => ?_⟩
    have hc' : c = '@' ∨ c ∈ (toString (id.raw : Int)).toList := by
      rw [atom, String.toList_append, mem_append] at hc
      exact hc.imp_left (by simp)
    rcases hc' with rfl | hc'
    · rfl
    · exact hnumber _ c hc'
  | symbol s =>
    refine ⟨by simp [atom], ?_⟩
    have hs : ∀ c ∈ s.toList, isPlain c = true := all_eq_true.1 hv
    simpa [atom] using ⟨rfl, hs⟩
  | bool b => cases b <;> simp [atom, isPlain]
  | undefined | nil => simp [atom, isPlain]
  | pair h t => cases hp
  | closure _ | native _ | block _ => cases hv

/-! ### Texts -/

/-- The characters of a text. -/
def chars (v : Value) : List Char := v.text.toList

lemma chars_atom (hp : v.isPair = false) : v.chars = v.atom.toList := by
  cases v with
  | pair h t => cases hp
  | _ => simp [chars, text, write]

lemma chars_pair (h t : Value) : (pair h t).chars =
    (if h.isPair then '(' :: (h.chars ++ [')']) else h.chars) ++ ',' :: ' ' :: t.chars := by
  rw [chars, text_pair]
  split <;> simp [chars]

/-- A text without dividing characters ends where the first such character stands. -/
lemma plain_append_inj (hl : ∀ c ∈ l, isPlain c = true) (hl' : ∀ c ∈ l', isPlain c = true)
    (hr : r.takeWhile isPlain = []) (hr' : r'.takeWhile isPlain = [])
    (h : l ++ r = l' ++ r') : l = l' ∧ r = r' := by
  have htake := congrArg (takeWhile isPlain) h
  rw [takeWhile_append_of_pos hl, takeWhile_append_of_pos hl', hr, hr', append_nil,
    append_nil] at htake
  subst htake
  exact ⟨rfl, append_cancel_left h⟩

/-- What may follow the text of a value: nothing, or the parenthesis behind a head. -/
def Follows (r : List Char) : Prop := r = [] ∨ ∃ r', r = ')' :: r'

lemma Follows.takeWhile (h : Follows r) : r.takeWhile isPlain = [] := by
  rcases h with rfl | ⟨r', rfl⟩ <;> rfl

/-- An atom is not empty, so it does not begin with a parenthesis. -/
lemma chars_append_ne (hv : v.isData) (hp : v.isPair = false) : v.chars ++ r ≠ '(' :: r' := by
  obtain ⟨hne, hplain⟩ := atom_plain hv hp
  rw [chars_atom hp]
  obtain ⟨c, cs, hcs⟩ := exists_cons_of_ne_nil hne
  rw [hcs] at hplain ⊢
  rintro ⟨⟩
  exact absurd (hplain '(' mem_cons_self) (by decide)

/-- An atom and what follows it. -/
lemma atom_append_inj (hv : v.isData) (hw : w.isData) (hp : v.isPair = false) (hr : Follows r)
    (hr' : Follows r') (h : v.chars ++ r = w.chars ++ r') : v = w ∧ r = r' := by
  have hplain : ∀ u : Value, u.isData → u.isPair = false → ∀ c ∈ u.chars, isPlain c = true :=
    fun u hu hpu => chars_atom hpu ▸ (atom_plain hu hpu).2
  cases w with
  | pair head tail =>
    rw [isData, and_eq_true] at hw
    rw [chars_pair, append_assoc] at h
    split at h
    · exact absurd h (chars_append_ne hv hp)
    · rename_i hhead
      -- the atom ends at the comma, but what follows a value is no comma
      obtain ⟨-, rfl⟩ := plain_append_inj (hplain v hv hp)
        (hplain head hw.1 (eq_false_iff.2 hhead)) hr.takeWhile rfl h
      rcases hr with hr | ⟨r', hr⟩ <;> simp at hr
  | _ =>
    obtain ⟨hchars, rfl⟩ := plain_append_inj (hplain v hv hp) (hplain _ hw rfl) hr.takeWhile
      hr'.takeWhile h
    rw [chars_atom hp, chars_atom rfl] at hchars
    exact ⟨atom_inj hv hw hp rfl (String.toList_inj.1 hchars), rfl⟩

/-- Texts are read from left to right: two values with what follows them. -/
lemma chars_append_inj (hv : v.isData) (hw : w.isData) (hr : Follows r) (hr' : Follows r')
    (h : v.chars ++ r = w.chars ++ r') : v = w ∧ r = r' := by
  induction v generalizing w r r' with
  | pair head tail ihhead ihtail =>
    cases w with
    | pair head' tail' =>
      rw [isData, and_eq_true] at hv hw
      rw [chars_pair, chars_pair, append_assoc, append_assoc] at h
      obtain ⟨rfl, hrest⟩ : head = head' ∧ tail.chars ++ r = tail'.chars ++ r' := by
        split at h <;> split at h <;> rename_i hhead hhead'
        · have hcut : head.chars ++ ')' :: ',' :: ' ' :: (tail.chars ++ r) =
              head'.chars ++ ')' :: ',' :: ' ' :: (tail'.chars ++ r') := by simpa using h
          simpa using ihhead hv.1 hw.1 (.inr ⟨_, rfl⟩) (.inr ⟨_, rfl⟩) hcut
        · exact absurd h.symm (chars_append_ne hw.1 (eq_false_iff.2 hhead'))
        · exact absurd h (chars_append_ne hv.1 (eq_false_iff.2 hhead))
        · rw [not_eq_true] at hhead hhead'
          rw [chars_atom hhead, chars_atom hhead'] at h
          obtain ⟨hatom, hrest⟩ := plain_append_inj (atom_plain hv.1 hhead).2
            (atom_plain hw.1 hhead').2 rfl rfl h
          exact ⟨atom_inj hv.1 hw.1 hhead hhead' (String.toList_inj.1 hatom), by simpa using hrest⟩
      obtain ⟨rfl, rfl⟩ := ihtail hv.2 hw.2 hr hr' hrest
      exact ⟨rfl, rfl⟩
    | _ =>
      obtain ⟨heq, rfl⟩ := atom_append_inj hw hv rfl hr' hr h.symm
      exact ⟨heq.symm, rfl⟩
  | _ => exact atom_append_inj hv hw rfl hr hr' h

/-- **Printing is unambiguous**: values that are data are equal if they have the same text. -/
theorem text_injective_of_isData (hv : v.isData) (hw : w.isData) (h : v.text = w.text) : v = w := by
  refine (chars_append_inj hv hw (.inl rfl : Follows []) (.inl rfl : Follows []) ?_).1
  rw [append_nil, append_nil, chars, chars, h]

/-- A tuple with a list in front, and the pair that it stands for. -/
theorem tuple_eq_of_text :
    let v := tuple [list [bool true, number (-1)], symbol "a b"]
    let w := pair (pair (bool true) (pair (number (-1)) nil)) (symbol "a b")
    v.isData = true ∧ w.isData = true ∧ v.text = "(TRUE, -1, NIL), #a b" ∧ v = w := by
  have hv : (tuple [list [bool true, number (-1)], symbol "a b"]).isData = true := by decide
  have htext : (tuple [list [bool true, number (-1)], symbol "a b"]).text =
      "(TRUE, -1, NIL), #a b" := by
    decide +kernel
  exact ⟨hv, hv, htext, text_injective_of_isData hv hv rfl⟩

end Troupe.Value
