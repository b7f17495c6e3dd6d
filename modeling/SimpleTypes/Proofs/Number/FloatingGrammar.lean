import SimpleTypes.Proofs.Number.DecimalText
import SimpleTypes.Proofs.Number.Nearest
import SimpleTypes.Proofs.Text.Words

/-!
# Numerals with an exponent

Which texts are read as numerals of binary floating point, and for which number each
stands.

* `Numeral.Written`: a numeral as it is written, a decimal numeral and perhaps an exponent
  with a sign of its own.
* `Numeral.parse?_eq_some`: these are the texts that are read, each as what it shows.
* `Numeral.code_eq_round`: a numeral is rounded by its exact value, however far out of
  range that is.
* `Written.code_isNearest`: so its code is that of the number nearest to its own.
-/

namespace SimpleTypes.Numeral

open Decimal (pointText)

/-! ## Exponents -/

/-- An exponent as it is written: a letter, a sign and digits. -/
structure Exponent where
  letter : Char
  sign : Sign
  digits : List Char
  isLetter : letter = 'e' ∨ letter = 'E'
  areDigits : ∀ c ∈ digits, c.isDigit = true
  someDigit : digits ≠ []

namespace Exponent

/-- The characters of an exponent, which may be absent. -/
def text : Option Exponent → List Char
  | none => []
  | some e => e.letter :: (e.sign.text ++ e.digits)

/-- The power of ten of an exponent. -/
def power : Option Exponent → Int
  | none => 0
  | some e => e.sign.apply (natOfDigits e.digits)

/-- Neither a digit nor a point can be taken for the start of an exponent. -/
theorem head?_text (e? : Option Exponent) {c : Char} (h : (text e?).head? = some c) :
    c.isDigit = false ∧ c ≠ '.' := by
  cases e? with
  | none => cases h
  | some e =>
    obtain rfl : e.letter = c := Option.some.inj h
    rcases e.isLetter with hletter | hletter <;> rw [hletter] <;> decide

theorem not_startsWithDigit_text (e? : Option Exponent) : ¬ StartsWithDigit (text e?) := by
  rintro ⟨c, hc, hdigit⟩
  rw [(head?_text e? hc).1] at hdigit
  cases hdigit

end Exponent

/-! ## Numerals -/

/-- A numeral as it is written: a decimal numeral, and perhaps an exponent. -/
structure Written where
  significand : Decimal.Written
  exponent? : Option Exponent

namespace Written

variable (n : Written)

/-- The characters of a numeral. -/
def text : List Char := n.significand.text ++ Exponent.text n.exponent?

/-- The number that a numeral stands for. -/
def value : ℚ := n.significand.value * 10 ^ Exponent.power n.exponent?

/-- What is read from a numeral. -/
def numeral : Numeral where
  negative := n.significand.sign.isMinus
  whole := n.significand.whole
  fraction := n.significand.fraction?.getD []
  exponent := Exponent.power n.exponent?

theorem areDigits_numeral : ∀ c ∈ n.numeral.whole ++ n.numeral.fraction, c.isDigit = true :=
  List.forall_mem_append.mpr ⟨n.significand.wholeDigits, n.significand.fractionDigits⟩

/-- A numeral has no blanks. -/
theorem isWord_text : IsWord n.text := by
  have hsign (s : Sign) : BlankFree s.text := by
    cases s <;> decide
  have hpoint : BlankFree (pointText n.significand.fraction?) := by
    have hdigits := n.significand.fractionDigits
    cases hfraction : n.significand.fraction? with
    | none => exact blankFree_nil
    | some digits =>
      rw [hfraction] at hdigits
      exact .cons (by rfl) (blankFree_of_isDigit hdigits)
  have hexponent : BlankFree (Exponent.text n.exponent?) := by
    cases n.exponent? with
    | none => exact blankFree_nil
    | some e =>
      have hletter : isBlank e.letter = false := by
        rcases e.isLetter with hletter | hletter <;> rw [hletter] <;> rfl
      exact .cons hletter ((hsign e.sign).append (blankFree_of_isDigit e.areDigits))
  refine ⟨fun hnil => ?_, .append (.append (hsign _)
    (.append (blankFree_of_isDigit n.significand.wholeDigits) hpoint)) hexponent⟩
  rw [text, List.append_eq_nil_iff, Decimal.Written.text, List.append_eq_nil_iff,
    List.append_eq_nil_iff] at hnil
  rcases n.significand.someDigit with hwhole | hfraction
  · exact hwhole hnil.1.2.1
  · have hempty := hnil.1.2.2
    cases hcase : n.significand.fraction? with
    | none => exact hfraction (by rw [hcase]; rfl)
    | some digits =>
      rw [hcase] at hempty
      cases hempty

end Written

/-! ## Reading -/

variable {text : List Char} {power : Int} {m : Numeral}

/-- The sign is found as in a decimal numeral. -/
theorem exists_sign (text : List Char) :
    ∃ s : Sign, text = s.text ++ (sign text).2 ∧ s.isMinus = (sign text).1 :=
  Decimal.exists_sign text

theorem exponentPart?_text (e? : Option Exponent) :
    exponentPart? (Exponent.text e?) = some (Exponent.power e?) := by
  cases e? with
  | none => rfl
  | some e =>
    have hhead {c : Char} (hc : c.isDigit = false) : e.digits.head? ≠ some c :=
      fun h => notMem_of_isDigit hc e.areDigits (List.mem_of_head? h)
    have hsign : sign (e.sign.text ++ e.digits) = (e.sign.isMinus, e.digits) :=
      Decimal.readSign_text e.sign (hhead (by decide)) (hhead (by decide))
    have hletter : (e.letter == 'e' || e.letter == 'E') = true := by
      simpa using e.isLetter
    have hdigits : e.digits.all Char.isDigit = true := List.all_eq_true.mpr e.areDigits
    have hempty : e.digits.isEmpty = false := List.isEmpty_eq_false_iff.mpr e.someDigit
    simp only [Exponent.text, exponentPart?, hsign, hletter, hempty, hdigits]
    rfl

/-- Only exponents are read, each as its power. -/
theorem exponentPart?_eq_some :
    exponentPart? text = some power ↔
      ∃ e?, Exponent.text e? = text ∧ Exponent.power e? = power := by
  constructor
  · intro h
    cases text with
    | nil => exact ⟨none, rfl, Option.some.inj h⟩
    | cons c rest =>
      obtain ⟨s, hrest, hminus⟩ := exists_sign rest
      simp only [exponentPart?, Option.ite_none_right_eq_some, Bool.and_eq_true, Bool.or_eq_true,
        beq_iff_eq, Bool.not_eq_true', List.isEmpty_eq_false_iff, List.all_eq_true] at h
      obtain ⟨⟨⟨hletter, hne⟩, hdigits⟩, hpower⟩ := h
      refine ⟨some ⟨c, s, _, hletter, hdigits, hne⟩, congrArg (c :: ·) hrest.symm, ?_⟩
      rw [← Option.some.inj hpower, ← hminus]
      rfl
  · rintro ⟨e?, rfl, rfl⟩
    exact exponentPart?_text e?

/-- The digits after a point are found whole in front of what is neither a digit nor a
point. -/
theorem fractionPart_append {fraction? : Option (List Char)} {tail : List Char}
    (hdigits : ∀ c ∈ fraction?.getD [], c.isDigit = true)
    (htail : ∀ c, tail.head? = some c → c.isDigit = false ∧ c ≠ '.') :
    fractionPart (pointText fraction? ++ tail) = (fraction?.getD [], tail) := by
  have hstart : ¬ StartsWithDigit tail := by
    rintro ⟨c, hc, hdigit⟩
    rw [(htail c hc).1] at hdigit
    cases hdigit
  cases fraction? with
  | some digits => exact spanDigits_append hdigits hstart
  | none =>
    rw [pointText, List.nil_append]
    unfold fractionPart
    split
    · exact absurd rfl (htail _ rfl).2
    · rfl

theorem exists_fractionPart (text : List Char) :
    ∃ fraction?, text = pointText fraction? ++ (fractionPart text).2 ∧
      fraction?.getD [] = (fractionPart text).1 := by
  unfold fractionPart
  split
  · exact ⟨some _, congrArg ('.' :: ·) (spanDigits_eq_append _).symm, rfl⟩
  · exact ⟨none, rfl, rfl⟩

theorem isDigit_fractionPart (text : List Char) :
    ∀ c ∈ (fractionPart text).1, c.isDigit = true := by
  unfold fractionPart
  split
  · exact isDigit_spanDigits _
  · exact fun _ h => absurd h List.not_mem_nil

/-- A numeral is read as what it shows. -/
theorem parse?_text (n : Written) : parse? n.text = some n.numeral := by
  have hbody :
      ¬ StartsWithDigit (pointText n.significand.fraction? ++ Exponent.text n.exponent?) := by
    cases n.significand.fraction? with
    | none => exact Exponent.not_startsWithDigit_text _
    | some digits => exact not_startsWithDigit_cons (by decide)
  have hsign : sign n.text = _ := n.significand.readSign_append (Exponent.text n.exponent?)
  have hfraction := fractionPart_append n.significand.fractionDigits
    (fun c => Exponent.head?_text n.exponent? (c := c))
  have hsome : ¬ (n.significand.whole.isEmpty
      && (n.significand.fraction?.getD []).isEmpty) = true := by
    simpa [imp_iff_not_or] using n.significand.someDigit
  simp only [parse?, hsign, spanDigits_append n.significand.wholeDigits hbody, hfraction,
    if_neg hsome, exponentPart?_text]
  rfl

/-- Numerals are the texts that are read, each as what it shows. -/
theorem parse?_eq_some : parse? text = some m ↔ ∃ n : Written, n.text = text ∧ n.numeral = m := by
  constructor
  · intro h
    obtain ⟨s, htext, hminus⟩ := exists_sign text
    obtain ⟨fraction?, hpoint, hfraction⟩ := exists_fractionPart (spanDigits (sign text).2).2
    simp only [parse?, Option.ite_none_left_eq_some, Option.map_eq_some_iff] at h
    obtain ⟨hsome, power, hpower, rfl⟩ := h
    obtain ⟨e?, hexponent, rfl⟩ := exponentPart?_eq_some.mp hpower
    have hdigits := isDigit_fractionPart (spanDigits (sign text).2).2
    rw [← hfraction] at hdigits hsome
    refine ⟨⟨⟨s, (spanDigits (sign text).2).1, fraction?, isDigit_spanDigits _, hdigits, ?_⟩, e?⟩,
      ?_, ?_⟩
    · simpa [imp_iff_not_or] using hsome
    · rw [Written.text, Decimal.Written.text, hexponent, List.append_assoc, List.append_assoc,
        ← hpoint, spanDigits_eq_append, ← htext]
    · rw [← hminus, ← hfraction]
      rfl
  · rintro ⟨n, rfl, rfl⟩
    exact parse?_text n

/-! ## Rounding -/

section Rounding

variable {format : Format} {n : Numeral}

/-- All digits as one number. -/
def digitsValue (n : Numeral) : Nat := natOfDigits (n.whole ++ n.fraction)

/-- The power of ten that the last digit counts. -/
def lastPower (n : Numeral) : Int := n.exponent - n.fraction.length

/-- A numeral is rounded by its exact value. The cuts far out of range make no
difference. -/
theorem code_eq_round (hrange : format.IsInRange)
    (hdigits : ∀ c ∈ n.whole ++ n.fraction, c.isDigit = true) :
    n.code format =
      format.round (n.digitsValue * 10 ^ n.lastPower.toNat) (10 ^ (-n.lastPower).toNat) := by
  have hvalue := natOfDigits_dropLeadingZeros (n.whole ++ n.fraction)
  have hshown := fun c => isDigit_of_mem_dropLeadingZeros (c := c) hdigits
  have hlead := noLeadingZero_dropLeadingZeros (n.whole ++ n.fraction)
  rw [← digitsValue] at hvalue
  have hpower : n.exponent - n.fraction.length = n.lastPower := rfl
  simp only [code, hpower]
  generalize dropLeadingZeros (n.whole ++ n.fraction) = shown at hvalue hshown hlead
  rw [← hvalue]
  split
  case isTrue hempty =>
    rw [List.isEmpty_iff.mp hempty, natOfDigits_nil, Nat.zero_mul]
    exact (Format.round_eq_zero hrange (by rw [Nat.zero_mul]; positivity)).symm
  case isFalse hne =>
    have hshownNe : shown ≠ [] := by simpa using hne
    have hlength : 0 < shown.length := List.length_pos_of_ne_nil hshownNe
    split_ifs with hlarge hsmall hwhole
    · refine (Format.round_eq_infinity hrange (by positivity) ?_).symm
      calc
        10 ^ exponentRange * 10 ^ (-n.lastPower).toNat
            = 10 ^ (exponentRange + (-n.lastPower).toNat) := (Nat.pow_add _ _ _).symm
        _ ≤ 10 ^ (shown.length - 1 + n.lastPower.toNat) :=
          Nat.pow_le_pow_right (by decide) (by omega)
        _ = 10 ^ (shown.length - 1) * 10 ^ n.lastPower.toNat := Nat.pow_add _ _ _
        _ ≤ natOfDigits shown * 10 ^ n.lastPower.toNat :=
          Nat.mul_le_mul_right _ (pow_le_natOfDigits hshown hshownNe hlead)
    · refine (Format.round_eq_zero hrange ?_).symm
      calc
        natOfDigits shown * 10 ^ n.lastPower.toNat * 10 ^ exponentRange
            = natOfDigits shown * 10 ^ (n.lastPower.toNat + exponentRange) := by
          rw [Nat.mul_assoc, ← Nat.pow_add]
        _ < 10 ^ shown.length * 10 ^ (n.lastPower.toNat + exponentRange) :=
          (Nat.mul_lt_mul_right (by positivity)).mpr (natOfDigits_lt hshown)
        _ = 10 ^ (shown.length + (n.lastPower.toNat + exponentRange)) := (Nat.pow_add _ _ _).symm
        _ ≤ 10 ^ (-n.lastPower).toNat := Nat.pow_le_pow_right (by decide) (by omega)
    · rw [Int.toNat_eq_zero.mpr (by omega : -n.lastPower ≤ 0), Nat.pow_zero]
      rfl
    · rw [Int.toNat_eq_zero.mpr (by omega : n.lastPower ≤ 0), Nat.pow_zero, Nat.mul_one]
      rfl

theorem code_le_infinity (n : Numeral) (format : Format) :
    n.code format ≤ format.infinity := by
  simp only [code]
  split_ifs
  · exact Nat.zero_le _
  · exact Nat.le_refl _
  · exact Nat.zero_le _
  · exact Format.round_le_infinity _ _ _
  · exact Format.round_le_infinity _ _ _

end Rounding

/-! ## Numbers -/

/-- The number of a numeral without its sign is that of its digits, counted by the last of
them. -/
theorem Written.abs_value (n : Written) :
    |n.value| = n.numeral.digitsValue * 10 ^ n.numeral.lastPower := by
  have habs (s : Sign) (x : ℚ) : |s.apply x| = |x| := by
    cases s
    · rfl
    · rfl
    · exact abs_neg x
  have hnonneg : 0 ≤ (natOfDigits n.significand.whole : ℚ)
      + fractionValue (n.significand.fraction?.getD []) :=
    add_nonneg (Nat.cast_nonneg _) (fractionValue_nonneg _)
  rw [value, Decimal.Written.value, abs_mul, habs, abs_of_nonneg hnonneg,
    abs_of_pos (zpow_pos (by norm_num) _), digitsValue, natOfDigits_append, lastPower,
    zpow_sub₀ (by norm_num), zpow_natCast, fractionValue]
  simp only [numeral]
  push_cast
  field_simp

/-- The code of a numeral is that of the number nearest to its own. -/
theorem Written.code_isNearest {format : Format} (n : Written) (hrange : format.IsInRange) :
    format.IsNearest |n.value| (n.numeral.code format) := by
  have hround := Format.round_isNearest hrange.one_lt_precision
    (n.numeral.digitsValue * 10 ^ n.numeral.lastPower.toNat)
    (by positivity : 0 < 10 ^ (-n.numeral.lastPower).toNat)
  rw [← code_eq_round hrange n.areDigits_numeral] at hround
  have hpower : n.numeral.lastPower
      = (n.numeral.lastPower.toNat : Int) - (-n.numeral.lastPower).toNat := by omega
  rw [abs_value, hpower, zpow_sub₀ (by norm_num), zpow_natCast, zpow_natCast, mul_div_assoc']
  exact_mod_cast hround

end SimpleTypes.Numeral
