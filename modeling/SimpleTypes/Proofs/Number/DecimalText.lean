import SimpleTypes.Proofs.Number.DecimalValue

/-!
# Decimal numerals

Which texts are decimal numerals, and what they denote.

* `Decimal.Written`: a numeral as it is written. It has an optional sign, and digits with
  at most one point, which has a digit beside it.
* `Written.parse?_eq_some` and `exists_written`: these are the texts that are read.
* `denotes_iff`: a text that is read denotes one number, the value of what is read.
* `parse?_integerText`: integers are read from their numerals.
* `parse?_isFaithful`: the order and the canonical texts of what is read are those of the
  numbers that the texts denote.
-/

namespace SimpleTypes

/-! ## Signs -/

/-- The sign in front of a numeral, which may be absent. -/
inductive Sign where
  | absent
  | plus
  | minus
  deriving DecidableEq, Repr

namespace Sign

/-- The character of a sign. -/
def text : Sign → List Char
  | absent => []
  | plus => ['+']
  | minus => ['-']

/-- Whether a sign makes a number negative. -/
def isMinus : Sign → Bool
  | minus => true
  | _ => false

/-- What a sign makes of the number behind it. -/
def apply {α : Type} [Neg α] (sign : Sign) (magnitude : α) : α :=
  if sign.isMinus then -magnitude else magnitude

end Sign

/-! ## Numerals -/

namespace Decimal

/-- A decimal numeral as it is written: a sign, digits, and perhaps a point with digits
after it. There is a digit before the point or after it. -/
structure Written where
  sign : Sign
  whole : List Char
  fraction? : Option (List Char)
  wholeDigits : ∀ c ∈ whole, c.isDigit = true
  fractionDigits : ∀ c ∈ fraction?.getD [], c.isDigit = true
  someDigit : whole ≠ [] ∨ fraction?.getD [] ≠ []

/-- A point and the digits after it, or nothing. -/
def pointText : Option (List Char) → List Char
  | none => []
  | some digits => '.' :: digits

namespace Written

/-- The characters of a numeral. -/
def text (n : Written) : List Char := n.sign.text ++ (n.whole ++ pointText n.fraction?)

/-- The number that a numeral stands for. -/
def value (n : Written) : ℚ := n.sign.apply (natOfDigits n.whole + fractionValue (n.fraction?.getD []))

/-- What is read from a numeral. -/
def decimal (n : Written) : Decimal := ofDigits n.sign.isMinus n.whole (n.fraction?.getD [])

end Written

/-- Whether a text is a numeral of a number. -/
def Denotes (text : List Char) (q : ℚ) : Prop := ∃ n : Written, n.text = text ∧ n.value = q

/-! ## Reading -/

variable {a b : Decimal} {text : List Char} {q : ℚ}

theorem readSign_text (sign : Sign) {rest : List Char} (hminus : rest.head? ≠ some '-')
    (hplus : rest.head? ≠ some '+') : readSign (sign.text ++ rest) = (sign.isMinus, rest) := by
  cases sign with
  | plus | minus => rfl
  | absent =>
    rw [Sign.text, List.nil_append]
    unfold readSign
    split
    · exact absurd rfl hminus
    · exact absurd rfl hplus
    · rfl

theorem exists_sign (text : List Char) :
    ∃ sign : Sign, text = sign.text ++ (readSign text).2 ∧ sign.isMinus = (readSign text).1 := by
  unfold readSign
  split
  · exact ⟨.minus, rfl, rfl⟩
  · exact ⟨.plus, rfl, rfl⟩
  · exact ⟨.absent, rfl, rfl⟩

theorem splitAtPoint_append {whole : List Char} (h : ∀ c ∈ whole, c.isDigit = true)
    (fraction? : Option (List Char)) :
    splitAtPoint (whole ++ pointText fraction?) = (whole, fraction?.getD []) := by
  have hpoint := ne_point_of_isDigit h
  rw [splitAtPoint, List.takeWhile_append_of_pos hpoint, List.dropWhile_append_of_pos hpoint]
  cases fraction? <;> simp [pointText]

theorem exists_fraction? (text : List Char) :
    ∃ fraction?, text = (splitAtPoint text).1 ++ pointText fraction? ∧
      fraction?.getD [] = (splitAtPoint text).2 := by
  have hparts : text.takeWhile (· != '.') ++ text.dropWhile (· != '.') = text :=
    List.takeWhile_append_dropWhile
  cases hrest : text.dropWhile (· != '.') with
  | nil =>
    rw [hrest] at hparts
    exact ⟨none, hparts.symm, by simp [splitAtPoint, hrest]⟩
  | cons c rest =>
    have hc : c = '.' := by
      have := List.head?_dropWhile_not (· != '.') text
      rw [hrest] at this
      simpa using this
    rw [hrest, hc] at hparts
    exact ⟨some rest, hparts.symm, by simp [splitAtPoint, hrest]⟩

namespace Written

variable (n : Written)

/-- A numeral goes on with a digit or a point after its sign, whatever follows it. -/
theorem readSign_append (tail : List Char) :
    readSign (n.text ++ tail) = (n.sign.isMinus, n.whole ++ (pointText n.fraction? ++ tail)) := by
  have hhead : ∀ c ∈ (n.whole ++ (pointText n.fraction? ++ tail)).head?,
      c.isDigit = true ∨ c = '.' := by
    cases hwhole : n.whole with
    | cons d rest =>
      rintro _ ⟨⟩
      exact .inl (n.wholeDigits d (by rw [hwhole]; exact List.mem_cons_self))
    | nil =>
      cases hfraction : n.fraction? with
      | none =>
        have hsome := n.someDigit
        simp [hwhole, hfraction] at hsome
      | some digits =>
        rintro _ ⟨⟩
        exact .inr rfl
  rw [text, List.append_assoc, List.append_assoc]
  refine Decimal.readSign_text n.sign ?_ ?_
  · intro h
    exact absurd (hhead _ h) (by decide)
  · intro h
    exact absurd (hhead _ h) (by decide)

theorem readSign_text : readSign n.text = (n.sign.isMinus, n.whole ++ pointText n.fraction?) := by
  have h := n.readSign_append []
  rwa [List.append_nil, List.append_nil] at h

/-- A numeral is read, unless it has too many zeros at its end. -/
theorem parse?_eq_some :
    parse? n.text = some a ↔ a.trailingZeros < countBound ∧ a = n.decimal := by
  rw [Decimal.parse?_eq_some, n.readSign_text, splitAtPoint_append n.wholeDigits]
  exact ⟨fun ⟨_, _, _, hzeros, ha⟩ => ⟨hzeros, ha⟩,
    fun ⟨hzeros, ha⟩ => ⟨n.someDigit, n.wholeDigits, n.fractionDigits, hzeros, ha⟩⟩

/-- A short numeral is read. -/
theorem parse?_text (h : n.text.length < countBound) : parse? n.text = some n.decimal := by
  refine n.parse?_eq_some.mpr ⟨lt_of_le_of_lt ?_ h, rfl⟩
  calc
    n.decimal.trailingZeros ≤ (n.fraction?.getD []).length := Nat.sub_le _ _
    _ ≤ (pointText n.fraction?).length := by cases n.fraction? <;> simp [pointText]
    _ ≤ n.text.length := by
      rw [text, List.length_append, List.length_append]
      omega

theorem value_decimal : n.decimal.value = n.value := value_ofDigits _ _ _

end Written

/-- Only numerals are read. -/
theorem exists_written (h : parse? text = some a) : ∃ n : Written, n.text = text := by
  obtain ⟨hne, hwhole, hfraction, -, -⟩ := parse?_eq_some.mp h
  obtain ⟨sign, htext, -⟩ := exists_sign text
  obtain ⟨fraction?, hbody, hvalue⟩ := exists_fraction? (readSign text).2
  rw [← hvalue] at hne hfraction
  exact ⟨⟨sign, _, fraction?, hwhole, hfraction, hne⟩, by rw [Written.text, ← hbody, ← htext]⟩

/-- A text that is read denotes one number, the value of what is read. -/
theorem denotes_iff (h : parse? text = some a) : Denotes text q ↔ a.value = q := by
  constructor
  · rintro ⟨n, rfl, rfl⟩
    obtain ⟨-, rfl⟩ := n.parse?_eq_some.mp h
    exact n.value_decimal
  · rintro rfl
    obtain ⟨n, rfl⟩ := exists_written h
    obtain ⟨-, rfl⟩ := n.parse?_eq_some.mp h
    exact ⟨n, rfl, n.value_decimal.symm⟩

/-! ## Canonical texts -/

theorem canonical_trimmed (a : Decimal) : a.trimmed.canonical = a.canonical := rfl

/-- The canonical text denotes the number. -/
theorem IsProper.denotes_canonical (h : a.IsProper) : Denotes a.canonical a.value :=
  (denotes_iff h.parse?_canonical).mpr rfl

/-- Two decimals have one canonical text if they have one value. -/
theorem IsProper.canonical_eq_iff (ha : a.IsProper) (hb : b.IsProper) :
    a.canonical = b.canonical ↔ a.value = b.value := by
  rw [ha.value_eq_iff hb]
  constructor
  · intro h
    have hread := ha.parse?_canonical
    rw [h, hb.parse?_canonical] at hread
    exact (Option.some.inj hread).symm
  · intro h
    rw [← canonical_trimmed a, h, canonical_trimmed]

/-! ## Integers -/

/-- The numeral of an integer, without a plus sign and without idle zeros. -/
def integerText (n : Int) : List Char := (if n < 0 then ['-'] else []) ++ numeral n.natAbs

theorem ofInt_isProper (n : Int) : (ofInt n).IsProper := by
  refine ⟨?_, by simp [ofInt], ?_, by simp [ofInt, NoTrailingZero], ?_⟩
  · intro c hc
    simp only [ofInt] at hc
    split at hc
    · cases hc
    · exact isDigit_of_mem_numeral hc
  · simp only [ofInt]
    split
    · simp [NoLeadingZero]
    · exact numeral_head_ne_zero (by omega)
  · intro hnegative
    have hlt : n < 0 := by simpa [ofInt] using hnegative
    simp only [ofInt, hlt.ne, if_false]
    exact .inl (numeral_ne_nil _)

theorem canonical_ofInt (n : Int) : (ofInt n).canonical = integerText n := by
  rcases eq_or_ne n 0 with rfl | hne
  · rfl
  · simp [canonical, ofInt, integerText, hne, numeral_ne_nil]

/-- An integer is read from its numeral. -/
theorem parse?_integerText (n : Int) : parse? (integerText n) = some (ofInt n) := by
  rw [← canonical_ofInt]
  exact (ofInt_isProper n).parse?_canonical

theorem valueEq_of_isProper (h : a.IsProper) : valueEq a a = true := by
  rw [valueEq, h.order_eq_compare_value h, compare_eq_iff_eq.mpr rfl]
  rfl

/-! ## Texts -/

/-- A decimal stands for the number that its text denotes. All numerals that are not too
long are read, and only numerals. The order of what is read is that of the numbers, and
numerals of one number, and only they, have one canonical text, which denotes the number
again. Integers are what is read from their numerals. -/
theorem parse?_isFaithful :
    (∀ text a, parse? text = some a → ∃ n : Written, n.text = text) ∧
    (∀ text, (∃ n : Written, n.text = text) → text.length < countBound →
      ∃ a, parse? text = some a) ∧
    (∀ s t a b p q, parse? s = some a → parse? t = some b → Denotes s p → Denotes t q →
      a.order b = compare p q ∧ (a.canonical = b.canonical ↔ p = q)) ∧
    (∀ text a q, parse? text = some a → Denotes text q →
      Denotes a.canonical q ∧ ∃ b, parse? a.canonical = some b ∧ b.canonical = a.canonical) ∧
    ∀ n : Int, ∃ a, parse? (integerText n) = some a ∧ valueEq (ofInt n) a = true ∧
      (ofInt n).canonical = a.canonical := by
  refine ⟨fun _ _ => exists_written, ?_, ?_, ?_, ?_⟩
  · rintro _ ⟨n, rfl⟩ hlength
    exact ⟨_, n.parse?_text hlength⟩
  · intro s t a b p q ha hb hp hq
    obtain rfl := (denotes_iff ha).mp hp
    obtain rfl := (denotes_iff hb).mp hq
    have ha := parse?_isProper ha
    have hb := parse?_isProper hb
    exact ⟨ha.order_eq_compare_value hb, ha.canonical_eq_iff hb⟩
  · intro text a q ha hq
    obtain rfl := (denotes_iff ha).mp hq
    have ha := parse?_isProper ha
    exact ⟨ha.denotes_canonical, a.trimmed, ha.parse?_canonical, a.canonical_trimmed⟩
  · intro n
    exact ⟨ofInt n, parse?_integerText n, valueEq_of_isProper (ofInt_isProper n), rfl⟩

/-- `-01.50`, a numeral of minus one and a half. -/
def paddedNegative : Written :=
  ⟨.minus, ['0', '1'], some ['5', '0'], by simp, by simp, by decide⟩

/-- `+.75`, a numeral of three quarters. -/
def threeQuarters : Written := ⟨.plus, [], some ['7', '5'], by simp, by simp, by decide⟩

theorem parse?_isFaithful_paddedNegative :
    parse? ['-', '0', '1', '.', '5', '0'] = some ⟨true, ['1'], ['5'], 1⟩ ∧
      parse? ['+', '.', '7', '5'] = some ⟨false, [], ['7', '5'], 0⟩ ∧
      Denotes ['-', '0', '1', '.', '5', '0'] (-3 / 2) ∧ Denotes ['+', '.', '7', '5'] (3 / 4) ∧
      order ⟨true, ['1'], ['5'], 1⟩ ⟨false, [], ['7', '5'], 0⟩ = compare (-3 / 2 : ℚ) (3 / 4) ∧
      Denotes ['-', '1', '.', '5'] (-3 / 2) ∧ ∃ a, parse? threeQuarters.text = some a := by
  have ha : parse? ['-', '0', '1', '.', '5', '0'] = some ⟨true, ['1'], ['5'], 1⟩ := by decide
  have hb : parse? ['+', '.', '7', '5'] = some ⟨false, [], ['7', '5'], 0⟩ := by decide
  have hp : Denotes ['-', '0', '1', '.', '5', '0'] (-3 / 2) := by
    have hwhole : natOfDigits ['0', '1'] = 1 := rfl
    have hfraction : natOfDigits ['5', '0'] = 50 := rfl
    refine ⟨paddedNegative, rfl, ?_⟩
    norm_num [Written.value, paddedNegative, Sign.apply, Sign.isMinus, fractionValue, hwhole,
      hfraction]
  have hq : Denotes ['+', '.', '7', '5'] (3 / 4) := by
    have hfraction : natOfDigits ['7', '5'] = 75 := rfl
    refine ⟨threeQuarters, rfl, ?_⟩
    norm_num [Written.value, threeQuarters, Sign.apply, Sign.isMinus, fractionValue,
      natOfDigits_nil, hfraction]
  obtain ⟨-, hread, horder, hcanonical, -⟩ := parse?_isFaithful
  exact ⟨ha, hb, hp, hq, (horder _ _ _ _ _ _ ha hb hp hq).1, (hcanonical _ _ _ ha hp).1,
    hread _ ⟨threeQuarters, rfl⟩ (by decide)⟩

end Decimal

end SimpleTypes
