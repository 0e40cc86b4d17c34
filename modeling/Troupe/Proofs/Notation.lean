import Mathlib
import Troupe.Settings.Text

/-!
Settings and their notation.

A text writes tokens if it has them one after the other, with blanks and comments between them
(`Datum.Written`), and reading a text gives the tokens that it writes. The tokens of a record name
some of its fields, each with what stands for its value (`Datum.IsRecord`).

* `Settings.parse?_render`: settings are read back, and so is every part of them.
-/

namespace Troupe

open List Nat Numeral Option Prod

namespace Datum

variable {c : Char} {g text cs : List Char} {ts : List Token}

/-! ### Comments -/

/-- What follows the start of a comment, up to its end. Comments nest; a `/` or a `*` that neither
starts nor ends one is a character like any other. -/
inductive IsComment : List Char → Prop where
  | stop : IsComment ['*', '/']
  | char {c : Char} {text : List Char} : (c = '*' → text.head? ≠ some '/') →
    (c = '/' → text.head? ≠ some '*') → IsComment text → IsComment (c :: text)
  | nested {inside text : List Char} : IsComment inside → IsComment text →
    IsComment ('/' :: '*' :: (inside ++ text))

/-- A step that ends no token. -/
lemma lexFrom_cons {m : Mode} (m' : Mode) (h : step? m c = some ([], m')) :
    lexFrom m (c :: cs) = lexFrom m' cs := by
  simp [lexFrom, h]

/-- The characters that go on with a token are read. -/
lemma lexFrom_append {m : List Char → Mode}
    (h : ∀ c ∈ text, ∀ chars, step? (m chars) c = some ([], m (c :: chars))) (chars : List Char) :
    lexFrom (m chars) (text ++ cs) = lexFrom (m (text.reverse ++ chars)) cs := by
  induction text generalizing chars with
  | nil => rfl
  | cons c text ih =>
    rw [cons_append, lexFrom_cons _ (h c mem_cons_self chars),
      ih fun c hc => h c (mem_cons_of_mem _ hc)]
    simp

lemma lexFrom_line (h : '\n' ∉ text) : lexFrom .line (text ++ cs) = lexFrom .line cs := by
  refine lexFrom_append (m := fun _ => .line) (fun c hc _ => ?_) []
  have hne : c ≠ '\n' := ne_of_mem_of_not_mem hc h
  simp [step?, hne]

/-- A comment is read without a trace, if its first character does not end or start another one
together with the `last` before it. -/
lemma lexFrom_comment (h : IsComment text) (depth : Nat) (last : Char)
    (hstar : last = '*' → text.head? ≠ some '/') (hslash : last = '/' → text.head? ≠ some '*') :
    lexFrom (.comment depth last) (text ++ cs) = lexFrom (match depth with
      | 0 => .between
      | depth + 1 => .comment depth ' ') cs := by
  induction h generalizing depth last cs with
  | stop =>
    have hlast : last ≠ '/' := fun h => hslash h rfl
    rw [cons_append, lexFrom_cons (.comment depth '*') (by simp [step?, hlast])]
    exact lexFrom_cons _ rfl
  | @char c text star slash _ ih =>
    have hopen : ¬ (last = '/' ∧ c = '*') := fun h => hslash h.1 (by rw [h.2]; rfl)
    have hclose : ¬ (last = '*' ∧ c = '/') := fun h => hstar h.1 (by rw [h.2]; rfl)
    rw [cons_append, lexFrom_cons (.comment depth c) (by simp [step?, hopen, hclose]),
      ih depth c star slash]
  | @nested inside text _ _ ihinside ihtext =>
    have hlast : last ≠ '*' := fun h => hstar h rfl
    simp only [cons_append, append_assoc]
    rw [lexFrom_cons (.comment depth '/') (by simp [step?, hlast]),
      lexFrom_cons (.comment (depth + 1) ' ') rfl,
      ihinside (depth + 1) ' ' (absurd · (by decide)) (absurd · (by decide)),
      ihtext depth ' ' (absurd · (by decide)) (absurd · (by decide))]

/-! ### Tokens -/

/-- A character that ends words and numbers: a mark, a blank or the start of a comment. -/
def isStop (c : Char) : Bool := [':', ',', ')', '(', '/'].contains c || isBlank c

/-- A name: a character that opens a word and others that continue it. -/
def IsName (name : String) : Prop :=
  ∃ c cs, name.toList = c :: cs ∧ open? c = some ([], .word [c]) ∧ cs.all continuesName = true

/-- A digit of some base, of either case, and its value. -/
def IsDigit (base : Nat) (c : Char) (d : Nat) : Prop :=
  d < base ∧ (c = digitChar d ∨ c = (digitChar d).toUpper)

/-- A text of `k` digits and what divides them, and its value: a digit with `k` others behind it
counts `base ^ k` times. -/
inductive IsDigits (base : Nat) : List Char → Nat → Nat → Prop where
  | nil : IsDigits base [] 0 0
  | digit {c : Char} {d k n : Nat} {cs : List Char} : IsDigit base c d → IsDigits base cs k n →
    IsDigits base (c :: cs) (k + 1) (d * base ^ k + n)
  | divided {k n : Nat} {cs : List Char} : IsDigits base cs k n → IsDigits base ('_' :: cs) k n

/-- A spelling of a number without sign and type: the mark of a base other than ten, and digits. -/
inductive IsMagnitude : List Char → Nat → Prop where
  | decimal {c : Char} {k n : Nat} {cs : List Char} : c ≠ '_' → IsDigits 10 (c :: cs) k n →
    IsMagnitude (c :: cs) n
  | marked {mark c : Char} {base k n : Nat} {cs : List Char} :
    (mark, base) ∈ [('x', 16), ('o', 8), ('b', 2)] → c ≠ '_' → IsDigits base (c :: cs) k n →
    IsMagnitude ('0' :: mark :: c :: cs) n

/-- A spelling of the number `n`: a sign and the type of the number may stand at its ends. -/
def IsNumeral (text : List Char) (n : UInt64) : Prop :=
  ∃ sign body type, text = sign ++ body ++ type ∧
  (sign = [] ∨ sign = ['+'] ∨ sign = ['-'] ∧ n = 0) ∧
    IsMagnitude body n.toNat ∧ (type = [] ∨ type = ['u', '6', '4'])

/-- The text has the tokens, and between them blanks and comments. -/
inductive Written : List Token → List Char → Prop where
  | nil : Written [] []
  | blank {c : Char} {cs : List Char} {ts : List Token} : isBlank c = true → Written ts cs →
    Written ts (c :: cs)
  | line {text cs : List Char} {ts : List Token} : '\n' ∉ text → Written ts cs →
    Written ts ('/' :: '/' :: (text ++ '\n' :: cs))
  | lastLine {text : List Char} : '\n' ∉ text → Written [] ('/' :: '/' :: text)
  | comment {text cs : List Char} {ts : List Token} : IsComment text → Written ts cs →
    Written ts ('/' :: '*' :: (text ++ cs))
  | mark {c : Char} {cs : List Char} {ts : List Token} : c ∈ [')', ':', ','] → Written ts cs →
    Written (.mark c :: ts) (c :: cs)
  | paren {c : Char} {cs : List Char} {ts : List Token} : c ≠ ')' → Written ts (c :: cs) →
    Written (.mark '(' :: ts) ('(' :: c :: cs)
  | unit {cs : List Char} {ts : List Token} : Written ts cs →
    Written (.unit :: ts) ('(' :: ')' :: cs)
  | word {name : String} {c : Char} {cs : List Char} {ts : List Token} : IsName name →
    isStop c = true → Written ts (c :: cs) → Written (.word false name :: ts)
    (name.toList ++ c :: cs)
  | number {n : UInt64} {c : Char} {text cs : List Char} {ts : List Token} : IsNumeral text n →
    isStop c = true → Written ts (c :: cs) → Written (.number text :: ts) (text ++ c :: cs)

/-! ### Numbers -/

section Numerals

variable {base d k n : Nat} {type : List Char}

lemma IsDigit.facts (h : IsDigit base c d) (hbase : base ≤ 16) : digit? 16 c = some d ∧
    (c.isDigit || c.isAlpha) = true ∧ (d < 10 → c.isDigit = true) := by
  obtain ⟨hd, hc⟩ := h
  have hlt : d < 16 := by omega
  interval_cases d <;> rcases hc with rfl | rfl <;> decide +kernel

lemma IsDigits.characters (h : IsDigits base cs k n) (hbase : base ≤ 16) (hc : c ∈ cs) :
    isDigitLike c = true ∧ (c.isDigit || c.isAlpha || c == '_') = true ∧
      (base = 10 → (c.isDigit || c == '_') = true) := by
  induction h with
  | nil => cases hc
  | @digit _ d _ _ _ hdigit _ ih =>
    rcases mem_cons.1 hc with rfl | hc
    · obtain ⟨hread, halpha, hsmall⟩ := hdigit.facts hbase
      refine ⟨by simp [isDigitLike, hread], by simp [halpha], ?_⟩
      rintro rfl
      simp [hsmall hdigit.1]
    · exact ih hc
  | divided _ ih =>
    rcases mem_cons.1 hc with rfl | hc
    · exact ⟨rfl, rfl, fun _ => rfl⟩
    · exact ih hc

lemma IsDigits.read (h : IsDigits base cs k n) (hbase : base ≤ 16) (acc : Nat) :
    digitsFrom? base acc cs = some (acc * base ^ k + n) := by
  induction h generalizing acc with
  | nil => simp [digitsFrom?]
  | @digit c d k n cs hdigit _ ih =>
    obtain ⟨hread, halpha, -⟩ := hdigit.facts hbase
    have hne : c ≠ '_' := by rintro rfl; cases halpha
    have hdigit? : digit? base c = some d := by
      simp only [digit?, bind_eq_some_iff] at hread ⊢
      obtain ⟨v, hv, hif⟩ := hread
      split at hif <;> cases hif
      exact ⟨d, hv, if_pos hdigit.1⟩
    rw [digitsFrom?.eq_3 _ _ _ _ (by simpa using hne), hdigit?]
    dsimp only
    rw [ih]
    ring_nf
  | divided _ ih => exact ih acc

lemma typed?_eq (h : IsDigits base (c :: cs) k n) (hbase : base ≤ 16) (hc : c ≠ '_')
    (htype : type = [] ∨ type = ['u', '6', '4']) :
    typed? base (c :: cs ++ type) = some (n, type) := by
  have hlike : ∀ x ∈ c :: cs, isDigitLike x = true := fun x hx => (h.characters hbase hx).1
  have hstop : type.takeWhile isDigitLike = [] ∧
      type.dropWhile isDigitLike = type := by
    rcases htype with rfl | rfl <;> decide +kernel
  rw [typed?, takeWhile_append_of_pos hlike, dropWhile_append_of_pos hlike, hstop.1, hstop.2,
    append_nil, digits?.eq_3 _ _ (by simp) (by simpa using hc), h.read hbase]
  simp

lemma IsMagnitude.read (h : IsMagnitude text n) (htype : type = [] ∨ type = ['u', '6', '4']) :
    magnitude? (text ++ type) = some (n, type) := by
  cases h with
  | @decimal c _ _ cs hc hdigits =>
    have hletters : ∀ x ∈ c :: cs ++ type, (x.isDigit || x == '_' || x == 'u') = true := by
      intro x hx
      rcases mem_append.1 hx with hx | hx
      · simp [(hdigits.characters (by decide) hx).2.2 rfl]
      · rcases htype with rfl | rfl <;> simp at hx
        rcases hx with rfl | rfl | rfl <;> rfl
    unfold magnitude?
    split
    · rename_i heq
      cases hletters 'x' (heq ▸ by simp)
    · rename_i heq
      cases hletters 'o' (heq ▸ by simp)
    · rename_i heq
      cases hletters 'b' (heq ▸ by simp)
    · exact typed?_eq hdigits (by decide) hc htype
  | marked hmark hc hdigits =>
    simp only [mem_cons, not_mem_nil, or_false, Prod.mk.injEq] at hmark
    rcases hmark with ⟨rfl, rfl⟩ | ⟨rfl, rfl⟩ | ⟨rfl, rfl⟩ <;>
      exact typed?_eq hdigits (by decide) hc htype

lemma IsMagnitude.characters (h : IsMagnitude text n) :
    (∃ c cs, text = c :: cs ∧ c.isDigit = true) ∧
      ∀ x ∈ text, (x.isDigit || x.isAlpha || x == '_') = true := by
  cases h with
  | decimal hc hdigits =>
    have hdigit := (hdigits.characters (by decide) mem_cons_self).2.2 rfl
    exact ⟨⟨_, _, rfl, by simpa [hc] using hdigit⟩, fun x hx =>
      (hdigits.characters (by decide) hx).2.1⟩
  | marked hmark hc hdigits =>
    refine ⟨⟨_, _, rfl, rfl⟩, ?_⟩
    simp only [mem_cons, not_mem_nil, or_false, Prod.mk.injEq] at hmark
    rcases hmark with ⟨rfl, rfl⟩ | ⟨rfl, rfl⟩ | ⟨rfl, rfl⟩ <;>
      exact forall_mem_cons.2 ⟨rfl, forall_mem_cons.2 ⟨rfl, fun x hx =>
        (hdigits.characters (by decide) hx).2.1⟩⟩

end Numerals

lemma open?_of_isDigit (h : c.isDigit = true) : open? c = some ([], .number [c]) := by
  obtain ⟨hlow, hhigh⟩ := Char.isDigit_iff_toNat.1 h
  change 48 ≤ c.toNat at hlow
  change c.toNat ≤ 57 at hhigh
  rw [← Char.ofNat_toNat c]
  interval_cases c.toNat <;> rfl

/-- A number is a token of its own. -/
lemma IsNumeral.characters {n : UInt64} (h : IsNumeral text n) : ∃ c cs, text = c :: cs ∧
    open? c = some ([], .number [c]) ∧
      ∀ x ∈ text, (startsNumber x || x.isAlpha || x == '_') = true := by
  obtain ⟨sign, body, type, rfl, hsign, hbody, htype⟩ := h
  obtain ⟨⟨c, cs, rfl, hc⟩, hall⟩ := hbody.characters
  have hbody : ∀ x ∈ c :: cs, (startsNumber x || x.isAlpha || x == '_') = true := by
    intro x hx
    simp only [startsNumber]
    grind
  have htypes : ∀ x ∈ type, (startsNumber x || x.isAlpha || x == '_') = true := by
    rcases htype with rfl | rfl
    · exact forall_mem_nil _
    · simp only [forall_mem_cons]
      exact ⟨rfl, rfl, rfl, forall_mem_nil _⟩
  have hend := forall_mem_append.2 ⟨hbody, htypes⟩
  rcases hsign with rfl | rfl | ⟨rfl, -⟩
  · exact ⟨c, cs ++ type, rfl, open?_of_isDigit hc, hend⟩
  all_goals exact ⟨_, _, rfl, rfl, forall_mem_cons.2 ⟨rfl, hend⟩⟩

/-- A spelling is read as the number that it stands for, with its type. -/
lemma IsNumeral.integer? {n : UInt64} (h : IsNumeral text n) : ∃ type,
    integer? text = some (.ofNat n.toNat, type) ∧ (type = [] ∨ type = ['u', '6', '4']) := by
  obtain ⟨sign, body, type, rfl, hsign, hbody, htype⟩ := h
  refine ⟨type, ?_, htype⟩
  have hread := hbody.read htype
  rcases hsign with rfl | rfl | ⟨rfl, rfl⟩
  · obtain ⟨⟨c, cs, rfl, hc⟩, -⟩ := hbody.characters
    rw [integer?.eq_3, nil_append, hread]
    · rfl
    all_goals
      rintro _ heq
      cases heq
      cases hc
  all_goals simp [integer?, hread]

lemma IsNumeral.word? {n : UInt64} (h : IsNumeral text n) : word? text = some n := by
  obtain ⟨type, hinteger, htype⟩ := h.integer?
  have hlt : n.toNat < UInt64.size := n.toNat_lt
  rw [Numeral.word?, hinteger]
  simp [hlt, htype]

lemma IsNumeral.isNumber {n : UInt64} (h : IsNumeral text n) : isNumber text = true := by
  obtain ⟨type, hinteger, htype⟩ := h.integer?
  have hbounds : ∃ least, least ≤ 0 ∧
      types.lookup (String.ofList type) = some (least, 0xffffffffffffffff) := by
    rcases htype with rfl | rfl
    · exact ⟨-0x8000000000000000, by decide, by decide⟩
    · exact ⟨0, by decide, by decide⟩
  obtain ⟨least, hleast, hlookup⟩ := hbounds
  have hlt := n.toNat_lt
  have hfits : isInteger text = true := by
    rw [isInteger, hinteger]
    simp only [hlookup, Bool.and_eq_true, decide_eq_true_eq, Int.ofNat_eq_natCast]
    omega
  rw [Numeral.isNumber, Numeral.isSingle, hfits]
  rfl

/-- A step that ends a token is a step between tokens. -/
lemma lexFrom_openAfter {m : Mode} {t : Token} (h : step? m c = openAfter? t c) :
    lexFrom m (c :: cs) = (lexFrom .between (c :: cs)).map (t :: ·) := by
  rw [lexFrom, h, openAfter?, lexFrom, step?]
  cases open? c with
  | none => rfl
  | some x => simp [Function.comp_def]

/-- What ends a word or a number neither goes on with it nor makes it a quote. -/
lemma stops (h : isStop c = true) : continuesName c = false ∧ startsNumber c = false ∧
    c.isAlpha = false ∧ c ∉ ['_', '=', '"', '\'', '#'] := by
  simp only [isStop, isBlank, Bool.or_eq_true, contains_iff_mem, mem_cons,
    not_mem_nil, or_false] at h
  rcases h with (h | h | h | h | h) | h | h | h | h | h | h | h | h | h | h | h <;> subst h <;>
    decide +kernel

lemma quoteAfter?_of_stop (h : isStop c = true) (letters : List Char) :
    quoteAfter? letters c = none := by
  obtain ⟨-, -, -, hc⟩ := stops h
  simp only [mem_cons, not_or] at hc
  simp [quoteAfter?, hc.2.2.1, hc.2.2.2.1, hc.2.2.2.2.1]

lemma continuesNumber_of_stop (h : isStop c = true) (chars : List Char) :
    continuesNumber chars c = false := by
  obtain ⟨-, hnumber, halpha, hc⟩ := stops h
  simp only [mem_cons, not_or] at hc
  simp [continuesNumber, hnumber, halpha, hc.1, hc.2.1]

/-- Reading a text gives the tokens that it writes. -/
theorem lexFrom_of_written (h : Written ts cs) : lexFrom .between cs = some ts := by
  induction h with
  | nil => rfl
  | @blank c cs ts hc _ ih => rw [lexFrom_cons .between (by simp [step?, open?, hc]), ih]
  | @line text cs ts htext _ ih =>
    rw [lexFrom_cons .slash rfl, lexFrom_cons .line rfl, lexFrom_line htext,
      lexFrom_cons .between rfl, ih]
  | @lastLine text htext =>
    rw [lexFrom_cons .slash rfl, lexFrom_cons .line rfl, ← append_nil text, lexFrom_line htext]
    rfl
  | @comment text cs ts htext _ ih =>
    rw [lexFrom_cons .slash rfl, lexFrom_cons (.comment 0 ' ') rfl,
      lexFrom_comment htext 0 ' ' (absurd · (by decide)) (absurd · (by decide)), ih]
  | @mark c cs ts hc _ ih =>
    simp only [mem_cons, not_mem_nil, or_false] at hc
    rcases hc with rfl | rfl | rfl <;> simp [lexFrom, step?, open?, isBlank, isMark, ih]
  | @paren c cs ts hc _ ih =>
    rw [lexFrom_cons .paren rfl, lexFrom_openAfter (t := .mark '(') (by simp [step?, hc]), ih]
    rfl
  | @unit cs ts _ ih =>
    rw [lexFrom_cons .paren rfl]
    simp [lexFrom, step?, ih]
  | @word name c cs ts hname hc _ ih =>
    obtain ⟨n, ns, hcons, hopen, hcontinue⟩ := hname
    rw [hcons, cons_append, lexFrom_cons (m := .between) _ hopen,
      lexFrom_append fun c hc _ => by simp [step?, all_eq_true.1 hcontinue c hc],
      lexFrom_openAfter (by simp only [step?, (stops hc).1, quoteAfter?_of_stop hc]; rfl), ih]
    simp [← hcons]
  | @number n c text cs ts hnum hc _ ih =>
    obtain ⟨d, ds, rfl, hopen, hcontinue⟩ := hnum.characters
    rw [cons_append, lexFrom_cons (m := .between) _ hopen,
      lexFrom_append fun c hc _ => by simp [step?, continuesNumber,
        hcontinue c (mem_cons_of_mem d hc)],
      lexFrom_openAfter (by simp only [step?, continuesNumber_of_stop hc]; rfl), ih]
    simp

/-! ### Records -/

/-- Fields with their values up to the closing parenthesis; a comma may follow the last. -/
inductive IsFields (value : String → List Token → Prop) : List String → List Token → Prop where
  | nil : IsFields value [] [.mark ')']
  | last {name : String} {ts : List Token} : value name ts →
    IsFields value [name] (.word false name :: .mark ':' :: (ts ++ [.mark ')']))
  | cons {name : String} {names : List String} {ts us : List Token} : value name ts →
    IsFields value names us →
    IsFields value (name :: names) (.word false name :: .mark ':' :: (ts ++ .mark ',' :: us))

/-- A record with these fields; its title may be missing. -/
def IsRecord (title : String) (value : String → List Token → Prop) (names : List String)
    (ts : List Token) : Prop :=
  ∃ body, (ts = body ∨ ts = .word false title :: body) ∧
    (names = [] ∧ body = [.unit] ∨ ∃ us, body = .mark '(' :: us ∧ IsFields value names us)

/-- The fields that were read have these names, and good values. -/
def Covers (good : String → Datum → Prop) (names : List String) (xs : List (String × Datum)) :
    Prop :=
  xs.map Prod.fst = names ∧ ∀ name x, (name, x) ∈ xs → good name x

/-- The tokens are read as a datum, whatever comes after them. -/
def Reads (room : Nat) (shape : Shape) (ts : List Token) (x : Datum) : Prop :=
  ∀ rest fuel, ts.length ≤ fuel → value? {} fuel shape room (ts ++ rest) = some (x, rest)

variable {value : String → List Token → Prop} {f : String → Shape} {good : String → Datum → Prop}
  {room : Nat} {names : List String} {title : String}

lemma IsFields.read (h : IsFields value names ts)
    (read : ∀ name ts, value name ts → ∃ x, good name x ∧ Reads room (f name) ts x) :
    ∃ xs, Covers good names xs ∧
      ∀ rest fuel, ts.length ≤ fuel →
        fields? {} fuel f (room + 1) (ts ++ rest) = some (xs, rest) := by
  induction h with
  | nil =>
    refine ⟨[], ⟨rfl, nofun⟩, fun rest fuel hfuel => ?_⟩
    obtain ⟨fuel, rfl⟩ := Nat.exists_eq_add_of_le' hfuel
    rfl
  | @last name ts hvalue =>
    obtain ⟨x, hgood, hx⟩ := read name ts hvalue
    refine ⟨[(name, x)], ⟨rfl, by simpa using hgood⟩, fun rest fuel hfuel => ?_⟩
    cases fuel with
    | zero => simp at hfuel
    | succ fuel =>
      have := hx (.mark ')' :: rest) fuel (by simp at hfuel; omega)
      simp [fields?, this]
  | @cons name names ts us hvalue _ ih =>
    obtain ⟨x, hgood, hx⟩ := read name ts hvalue
    obtain ⟨xs, ⟨hnames, hall⟩, hxs⟩ := ih
    refine ⟨(name, x) :: xs, ⟨by simp [hnames], ?_⟩, fun rest fuel hfuel => ?_⟩
    · rintro name' x' (_ | ⟨_, hx'⟩)
      · exact hgood
      · exact hall name' x' hx'
    cases fuel with
    | zero => simp at hfuel
    | succ fuel =>
      simp only [length_cons, length_append] at hfuel
      have hfirst := hx (.mark ',' :: (us ++ rest)) fuel (by omega)
      have hrest := hxs rest fuel (by omega)
      simp [fields?, hfirst, hrest]

lemma IsRecord.read (h : IsRecord title value names ts)
    (read : ∀ name ts, value name ts → ∃ x, good name x ∧ Reads room (f name) ts x) :
    ∃ xs, Covers good names xs ∧ Reads (room + 2) (.record title f) ts (.record xs) := by
  obtain ⟨body, hts, ⟨rfl, rfl⟩ | ⟨us, rfl, hfields⟩⟩ := h
  · refine ⟨[], ⟨rfl, nofun⟩, fun rest fuel hfuel => ?_⟩
    cases fuel with
    | zero => rcases hts with rfl | rfl <;> simp at hfuel
    | succ fuel => rcases hts with rfl | rfl <;> simp [value?, afterName?]
  · obtain ⟨xs, hcovers, hxs⟩ := hfields.read read
    refine ⟨xs, hcovers, fun rest fuel hfuel => ?_⟩
    cases fuel with
    | zero => rcases hts with rfl | rfl <;> simp at hfuel
    | succ fuel =>
      have hread := hxs rest fuel (by rcases hts with rfl | rfl <;> simp at hfuel <;> omega)
      rcases hts with rfl | rfl <;> simp [value?, afterName?, hread]

/-- The reading of a field that is named at most once. -/
lemma field?_eq {α : Type} {xs : List (String × Datum)} {name : String} {v : α} (default : α)
    {read : Datum → Option α} (nodup : (xs.map fst).Nodup)
    (good : ∀ x, (name, x) ∈ xs → read x = some v) :
    field? xs name default read = some (if name ∈ xs.map fst then v else default) := by
  induction xs with
  | nil => rfl
  | cons y xs ih =>
    rw [map_cons, nodup_cons] at nodup
    by_cases hy : y.1 = name
    · have hnone : xs.filter (·.1 == name) = [] := filter_eq_nil_iff.2 fun z hz heq =>
        nodup.1 (hy ▸ beq_iff_eq.1 heq ▸ mem_map_of_mem hz)
      have hread := good y.2 (hy ▸ mem_cons_self)
      simp [field?, hy, hnone, hread]
    · have hmem : name ∈ (y :: xs).map fst ↔ name ∈ xs.map fst := by simp [Ne.symm hy]
      have hrest := ih nodup.2 fun x hx => good x (mem_cons_of_mem _ hx)
      simp only [hmem, ← hrest, field?]
      rw [filter_cons_of_neg (by simpa using hy)]

lemma IsNumeral.reads {text : List Char} {n : UInt64} (h : IsNumeral text n) (room : Nat) :
    Reads room .any [.number text] (.number text) := by
  intro rest fuel hfuel
  cases fuel with
  | zero => simp at hfuel
  | succ fuel => simp [value?, any?, h.isNumber]

/-! ### Writing -/

lemma Written.blanks (h : Written ts cs) (hg : g.all isBlank = true) : Written ts (g ++ cs) := by
  induction g with
  | nil => exact h
  | cons c g ih =>
    rw [all_cons, Bool.and_eq_true] at hg
    exact .blank hg.1 (ih hg.2)

/-- The text of a value, in front of a comma. -/
def WritesValue (value : List Char) (ts : List Token) : Prop :=
  ∀ {us cs}, Written us (',' :: cs) → Written (ts ++ us) (value ++ ',' :: cs)

lemma Written.fieldLine {value : String} {us : List Token} (h : Written us ('\n' :: cs))
    (indent name : String) (hindent : indent.toList.all isBlank = true) (hname : IsName name)
    (hvalue : WritesValue value.toList ts) :
    Written (.word false name :: .mark ':' :: (ts ++ .mark ',' :: us))
      ('\n' :: ((fieldLine indent name value).toList ++ cs)) := by
  have hcomma : Written (.mark ',' :: us) (',' :: '\n' :: cs) := .mark (by simp) h
  have hcolon : Written (.mark ':' :: (ts ++ .mark ',' :: us))
      (':' :: ([' '] ++ (value.toList ++ ',' :: '\n' :: cs))) :=
    .mark (by simp) ((hvalue hcomma).blanks rfl)
  have hline := ((Written.word hname rfl hcolon).blanks hindent).blanks (g := ['\n']) rfl
  simpa [Troupe.fieldLine] using hline

lemma isDigit_of_isDigit (h : c.isDigit = true) : IsDigit 10 c (c.toNat - '0'.toNat) := by
  obtain ⟨hlow, hhigh⟩ := Char.isDigit_iff_toNat.1 h
  change 48 ≤ c.toNat at hlow
  change c.toNat ≤ 57 at hhigh
  rw [← Char.ofNat_toNat c]
  interval_cases c.toNat <;> exact ⟨by decide, .inl rfl⟩

lemma exists_isDigits (h : ∀ c ∈ cs, c.isDigit = true) :
    ∃ k n, IsDigits 10 cs k n ∧ ∀ acc, ofDigitChars 10 cs acc = acc * 10 ^ k + n := by
  induction cs with
  | nil => exact ⟨0, 0, .nil, by simp⟩
  | cons c cs ih =>
    obtain ⟨k, n, hdigits, hvalue⟩ := ih fun c hc => h c (mem_cons_of_mem _ hc)
    refine ⟨_, _, .digit (isDigit_of_isDigit (h c mem_cons_self)) hdigits, fun acc => ?_⟩
    rw [ofDigitChars_cons, hvalue]
    ring

lemma isNumeral_toString (n : UInt64) : IsNumeral (toString n).toList n := by
  have htext : (toString n).toList = toDigits 10 n.toNat := toList_repr
  have hdigits : ∀ c ∈ toDigits 10 n.toNat, c.isDigit = true := fun c =>
    isDigit_of_mem_toDigits (by decide) (by decide)
  have hnumber : ofDigitChars 10 (toDigits 10 n.toNat) 0 = n.toNat :=
    ofDigitChars_ten_toDigits
  obtain ⟨d, ds, hcons⟩ := exists_cons_of_ne_nil (toDigits_ne_nil)
  rw [htext]
  rw [hcons] at hdigits hnumber ⊢
  obtain ⟨k, m, hm, hvalue⟩ := exists_isDigits hdigits
  have hne : d ≠ '_' := by
    rintro rfl
    cases hdigits '_' mem_cons_self
  rw [hvalue, zero_mul, zero_add] at hnumber
  exact ⟨[], _, [], (append_nil _).symm, .inl rfl, .decimal hne (hnumber ▸ hm), .inl rfl⟩

lemma writesValue_toString (n : UInt64) :
    WritesValue (toString n).toList [.number (toString n).toList] := fun h =>
  .number (isNumeral_toString n) rfl h

lemma writesValue_flag (b : Bool) : WritesValue (if b then "true" else "false").toList
    [.word false (if b then "true" else "false")] := fun h => by
  refine .word ?_ rfl h
  cases b <;> exact ⟨_, _, rfl, rfl, rfl⟩

end Datum

/-! ### Settings -/

/-- The tokens of a field of journal settings. -/
inductive JournalSettings.Field (j : JournalSettings) : String → List Datum.Token → Prop where
  | recording : Field j "recording_enabled" [.word false (if j.recording then "true" else "false")]
  | maxEntries {text : List Char} : Datum.IsNumeral text j.maxEntries →
    Field j "max_entries" [.number text]

/-- The fields that are named, and the defaults of the others. -/
def JournalSettings.only (j : JournalSettings) (names : List String) : JournalSettings where
  recording := if "recording_enabled" ∈ names then j.recording else false
  maxEntries := if "max_entries" ∈ names then j.maxEntries else 0

namespace Settings

open Datum

variable {s : Settings} {j : JournalSettings} {names members : List String} {name : String}
  {ts : List Token}

/-- The tokens of a field of settings; `members` are the fields of the journal settings. -/
inductive Field (s : Settings) (members : List String) : String → List Token → Prop where
  | batchLimit {text : List Char} : IsNumeral text s.batchLimit →
    Field s members "batch_limit" [.number text]
  | periodMs {text : List Char} : IsNumeral text s.periodMs →
    Field s members "period_ms" [.number text]
  | seed {text : List Char} : IsNumeral text s.seed → Field s members "seed" [.number text]
  | journal {ts : List Token} : IsRecord "JournalConfig" s.journal.Field members ts →
    Field s members "journal" ts

/-- The fields that are named, at both levels, and the defaults of the others. -/
def only (s : Settings) (names members : List String) : Settings where
  batchLimit := if "batch_limit" ∈ names then s.batchLimit else ({} : Settings).batchLimit
  periodMs := if "period_ms" ∈ names then s.periodMs else ({} : Settings).periodMs
  seed := if "seed" ∈ names then s.seed else ({} : Settings).seed
  journal := if "journal" ∈ names then s.journal.only members else {}

/-- The text is a record that names these fields once each, with their values. -/
def Spells (s : Settings) (names members : List String) (text : String) : Prop :=
  names.Nodup ∧ members.Nodup ∧ ∃ ts, IsRecord "Settings" (s.Field members) names ts ∧
    Written ts text.toList

/-- What reading a field comes to. -/
lemma exists_read_journal (h : j.Field name ts) (room : Nat) :
    ∃ x, ((name = "recording_enabled" → x.bool? = some j.recording) ∧
      (name = "max_entries" → x.word64? = some j.maxEntries)) ∧ Reads room .any ts x := by
  cases h with
  | recording =>
    refine ⟨.flag j.recording, ⟨fun _ => rfl, nofun⟩, fun rest fuel hfuel => ?_⟩
    cases fuel with
    | zero => simp at hfuel
    | succ fuel => cases j.recording <;> rfl
  | @maxEntries text hn => exact ⟨.number text, ⟨nofun, fun _ => hn.word?⟩, hn.reads room⟩

/-- Journal settings are read with the fields that are named. -/
lemma ofDatum?_journal (nodup : members.Nodup) (room : Nat)
    (h : IsRecord "JournalConfig" j.Field members ts) :
    ∃ x, JournalSettings.ofDatum? x = some (j.only members) ∧
      Reads (room + 2) JournalSettings.shape ts x := by
  obtain ⟨xs, ⟨rfl, hgood⟩, hread⟩ := h.read fun name ts hts =>
    exists_read_journal hts room
  refine ⟨.record xs, ?_, hread⟩
  have hrecording := field?_eq false nodup fun x hx => (hgood _ x hx).1 rfl
  have hmax := field?_eq 0 nodup fun x hx => (hgood _ x hx).2 rfl
  simp [JournalSettings.ofDatum?, Datum.fieldsOf?, hrecording, hmax, JournalSettings.only]

lemma exists_read (h : s.Field members name ts) (nodup : members.Nodup) (room : Nat) :
    ∃ x, ((name = "batch_limit" → x.word64? = some s.batchLimit) ∧
      (name = "period_ms" → x.word64? = some s.periodMs) ∧
      (name = "seed" → x.word64? = some s.seed) ∧
      (name = "journal" → JournalSettings.ofDatum? x = some (s.journal.only members))) ∧
      Reads (room + 2) (if name = "journal" then JournalSettings.shape else .any) ts x := by
  cases h with
  | @batchLimit text hn =>
    exact ⟨.number text, ⟨fun _ => hn.word?, nofun, nofun, nofun⟩, hn.reads _⟩
  | @periodMs text hn => exact ⟨.number text, ⟨nofun, fun _ => hn.word?, nofun, nofun⟩, hn.reads _⟩
  | @seed text hn => exact ⟨.number text, ⟨nofun, nofun, fun _ => hn.word?, nofun⟩, hn.reads _⟩
  | journal hrecord =>
    obtain ⟨x, hx, hread⟩ := ofDatum?_journal nodup room hrecord
    exact ⟨x, ⟨nofun, nofun, nofun, fun _ => hx⟩, hread⟩

/-- A record has no header. -/
lemma header?_of_isRecord {title : String} {value : String → List Token → Prop}
    (h : IsRecord title value names ts) (n : Nat) : Datum.header? n {} ts = some ({}, ts) := by
  obtain ⟨_, rfl | rfl, ⟨-, rfl⟩ | ⟨us, rfl, -⟩⟩ := h <;> cases n <;> rfl

/-- A record that names some fields gives the settings with these fields. -/
lemma parse?_of_spells {text : String} (h : s.Spells names members text) :
    parse? text = some (s.only names members) := by
  obtain ⟨nodup, nodup', ts, hrecord, hwritten⟩ := h
  obtain ⟨xs, ⟨rfl, hgood⟩, hread⟩ := hrecord.read
   
    fun name ts hts => exists_read hts nodup' 124
  have hlex : Datum.lex text = some ts := Datum.lexFrom_of_written hwritten
  have hvalue := hread [] (3 * ts.length + 3) (by omega)
  rw [append_nil] at hvalue
  have hdatum : Datum.read? shape text = some (.record xs) := by
    simp only [Datum.read?, hlex, header?_of_isRecord hrecord]
    rw [shape, Datum.maxDepth, hvalue]
  have hbatch := field?_eq ({} : Settings).batchLimit nodup fun x hx => (hgood _ x hx).1 rfl
  have hperiod := field?_eq ({} : Settings).periodMs nodup fun x hx => (hgood _ x hx).2.1 rfl
  have hseed := field?_eq ({} : Settings).seed nodup fun x hx => (hgood _ x hx).2.2.1 rfl
  have hjournal := field?_eq {} nodup fun x hx => (hgood _ x hx).2.2.2 rfl
  rw [parse?, hdatum, bind_some]
  simp only [ofDatum?, Datum.fieldsOf?, hbatch, hperiod, hseed, hjournal, bind_eq_bind,
    Option.bind_some, Option.pure_def]
  rfl

lemma exists_writesValue (j : JournalSettings) : ∃ ts,
    IsRecord "JournalConfig" j.Field ["recording_enabled", "max_entries"] ts ∧
    WritesValue ("(\n" ++
      fieldLine "        " "recording_enabled" (if j.recording then "true" else "false") ++
      fieldLine "        " "max_entries" (toString j.maxEntries) ++ "    )").toList ts := by
  refine ⟨_, ⟨_, .inl rfl, .inr ⟨_, rfl, .cons .recording (.cons (.maxEntries
    (isNumeral_toString _)) .nil)⟩⟩, fun {us cs} h => ?_⟩
  have hend : Written (.mark ')' :: us) ('\n' :: ("    )".toList ++ ',' :: cs)) :=
    (Written.mark (by simp) h).blanks (g := "\n    ".toList) rfl
  have hmax := hend.fieldLine "        " "max_entries" rfl ⟨_, _, rfl, rfl, rfl⟩
    (writesValue_toString j.maxEntries)
  have hrecording := hmax.fieldLine "        " "recording_enabled" rfl ⟨_, _, rfl, rfl, rfl⟩
    (writesValue_flag j.recording)
  simpa using Written.paren (by decide) hrecording

lemma spells_render (s : Settings) : s.Spells ["batch_limit", "period_ms", "seed", "journal"]
    ["recording_enabled", "max_entries"] s.render := by
  obtain ⟨ts, hrecord, hvalue⟩ := exists_writesValue s.journal
  refine ⟨by decide, by decide, _, ⟨_, .inl rfl, .inr ⟨_, rfl, .cons
    (.batchLimit (isNumeral_toString _)) (.cons (.periodMs (isNumeral_toString _)) (.cons
    (.seed (isNumeral_toString _)) (.cons (.journal hrecord) .nil)))⟩⟩, ?_⟩
  have hend : Written [.mark ')'] ('\n' :: ")".toList) :=
    (Written.mark (by simp) .nil).blanks (g := ['\n']) rfl
  have hjournal := hend.fieldLine "    " "journal" rfl ⟨_, _, rfl, rfl, rfl⟩ hvalue
  have hseed := hjournal.fieldLine "    " "seed" rfl ⟨_, _, rfl, rfl, rfl⟩
    (writesValue_toString s.seed)
  have hperiod := hseed.fieldLine "    " "period_ms" rfl ⟨_, _, rfl, rfl, rfl⟩
    (writesValue_toString s.periodMs)
  have hbatch := hperiod.fieldLine "    " "batch_limit" rfl ⟨_, _, rfl, rfl, rfl⟩
    (writesValue_toString s.batchLimit)
  simpa [render] using Written.paren (by decide) hbatch

/-- **Settings survive their notation.** -/
theorem parse?_render (s : Settings) : parse? s.render = some s ∧
    ∀ names members text, s.Spells names members text →
      parse? text = some (s.only names members) := by
  refine ⟨?_, fun names members text => parse?_of_spells⟩
  rw [parse?_of_spells s.spells_render]
  simp [only, JournalSettings.only]

theorem parse?_journal_only : parse? "(journal:(max_entries:3))" =
    some { journal := { maxEntries := 3 } } := by
  have hjournal : IsName "journal" := ⟨_, _, rfl, rfl, rfl⟩
  have hentries : IsName "max_entries" := ⟨_, _, rfl, rfl, rfl⟩
  refine (parse?_render { journal := { maxEntries := 3 } }).2 ["journal"] ["max_entries"] _
    ⟨by decide, by decide, _, ⟨_, .inl rfl, .inr ⟨_, rfl, .last (.journal ⟨_, .inl rfl,
      .inr ⟨_, rfl, .last (.maxEntries (isNumeral_toString 3))⟩⟩)⟩⟩, ?_⟩
  exact .paren (by decide) (.word hjournal rfl (.mark (by simp)
    (.paren (by decide) (.word hentries rfl (.mark (by simp)
      (.number (isNumeral_toString 3) rfl (.mark (by simp) (.mark (by simp)
        .nil))))))))

end Settings

end Troupe
