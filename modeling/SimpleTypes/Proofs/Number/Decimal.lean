import Mathlib.Data.List.TakeWhile
import SimpleTypes.Proofs.Number.Digits
import SimpleTypes.Proofs.Outcome
import SimpleTypes.Proofs.Text.Words

/-!
# Decimals and back

The canonical text of a decimal is read as the same decimal, less the count of
the zeros at the end of the text it was first read from.

* `parse?_isProper`: what is read has no zeros at its ends, and zero no sign.
* `parse?_canonical`: the round trip.
* `isIntegerNumeral_canonical`: an integer is written as an integer.
* `readDecimal_eq_ok`: what it takes to read a decimal under a rule.
-/

namespace SimpleTypes

namespace Decimal

/-- What holds of the digits and the sign of a decimal that was read. -/
structure IsProper (a : Decimal) : Prop where
  wholeDigits : ∀ c ∈ a.whole, c.isDigit = true
  fractionDigits : ∀ c ∈ a.fraction, c.isDigit = true
  noLeadingZero : NoLeadingZero a.whole
  noTrailingZero : NoTrailingZero a.fraction
  sign : a.negative = true → a.whole ≠ [] ∨ a.fraction ≠ []

/-- The decimal as it is read from its canonical text. -/
def trimmed (a : Decimal) : Decimal := { a with trailingZeros := 0 }

variable {a : Decimal} {text : List Char}

/-! ## Reading -/

theorem ofDigits_isProper (negative : Bool) {whole fraction : List Char}
    (hwhole : ∀ c ∈ whole, c.isDigit = true) (hfraction : ∀ c ∈ fraction, c.isDigit = true) :
    (ofDigits negative whole fraction).IsProper := by
  refine ⟨fun c => isDigit_of_mem_dropLeadingZeros hwhole,
    fun c => isDigit_of_mem_dropTrailingZeros hfraction, noLeadingZero_dropLeadingZeros whole,
    noTrailingZero_dropTrailingZeros fraction, ?_⟩
  intro hsign
  simp only [ofDigits, Bool.and_eq_true, Bool.not_eq_true', Bool.and_eq_false_iff,
    List.isEmpty_eq_false_iff] at hsign
  exact hsign.2

/-- A text is read if its parts are digits, and not both empty. -/
theorem parse?_eq_some : parse? text = some a ↔
    ((splitAtPoint (readSign text).2).1 ≠ [] ∨ (splitAtPoint (readSign text).2).2 ≠ []) ∧
      (∀ c ∈ (splitAtPoint (readSign text).2).1, c.isDigit = true) ∧
      (∀ c ∈ (splitAtPoint (readSign text).2).2, c.isDigit = true) ∧
      a.trailingZeros < countBound ∧
      a = ofDigits (readSign text).1 (splitAtPoint (readSign text).2).1
        (splitAtPoint (readSign text).2).2 := by
  simp only [parse?]
  generalize (splitAtPoint (readSign text).2).1 = whole
  generalize (splitAtPoint (readSign text).2).2 = fraction
  simp only [Option.ite_none_left_eq_some, Option.ite_none_right_eq_some, Option.some.injEq,
    Bool.or_eq_true, Bool.and_eq_true, Bool.not_eq_true', List.isEmpty_iff, not_or, not_and_or,
    Bool.not_eq_false, List.all_eq_true]
  constructor
  · rintro ⟨⟨⟨hne, hwhole⟩, hfraction⟩, hzeros, rfl⟩
    exact ⟨hne, hwhole, hfraction, hzeros, rfl⟩
  · rintro ⟨hne, hwhole, hfraction, hzeros, rfl⟩
    exact ⟨⟨⟨hne, hwhole⟩, hfraction⟩, hzeros, rfl⟩

theorem parse?_isProper (h : parse? text = some a) : a.IsProper := by
  obtain ⟨-, hwhole, hfraction, -, rfl⟩ := parse?_eq_some.mp h
  exact ofDigits_isProper _ hwhole hfraction

/-! ## Writing -/

/-- The whole digits as they are written: one zero if there is none. -/
def shownWhole (a : Decimal) : List Char := if a.whole.isEmpty then ['0'] else a.whole

/-- The point and the digits after it, if there are any. -/
def shownFraction (a : Decimal) : List Char :=
  if a.fraction.isEmpty then [] else '.' :: a.fraction

theorem canonical_eq (a : Decimal) :
    a.canonical = (if a.negative then ['-'] else []) ++ (a.shownWhole ++ a.shownFraction) := by
  simp only [canonical, shownWhole, shownFraction, List.append_assoc]

theorem shownWhole_ne_nil (a : Decimal) : a.shownWhole ≠ [] := by
  unfold shownWhole
  split
  case isTrue => simp
  case isFalse hne => simpa using hne

theorem IsProper.isDigit_shownWhole (h : a.IsProper) : ∀ c ∈ a.shownWhole, c.isDigit = true := by
  intro c hc
  unfold shownWhole at hc
  split at hc
  · obtain rfl : c = '0' := by simpa using hc
    rfl
  · exact h.wholeDigits c hc

theorem IsProper.dropLeadingZeros_shownWhole (h : a.IsProper) :
    dropLeadingZeros a.shownWhole = a.whole := by
  unfold shownWhole
  split
  case isTrue hempty =>
    rw [List.isEmpty_iff.mp hempty]
    rfl
  case isFalse => exact dropLeadingZeros_eq_self h.noLeadingZero

theorem readSign_of_isDigit {c : Char} (hc : c.isDigit = true) (rest : List Char) :
    readSign (c :: rest) = (false, c :: rest) := by
  unfold readSign
  split
  case h_1 heq =>
    obtain ⟨rfl, -⟩ := by simpa using heq
    exact absurd hc (by decide)
  case h_2 heq =>
    obtain ⟨rfl, -⟩ := by simpa using heq
    exact absurd hc (by decide)
  case h_3 => rfl

/-- The sign is found again, since digits stand behind it. -/
theorem IsProper.readSign_canonical (h : a.IsProper) :
    readSign a.canonical = (a.negative, a.shownWhole ++ a.shownFraction) := by
  rw [canonical_eq]
  cases a.negative with
  | true => rfl
  | false =>
    obtain ⟨c, rest, hwhole⟩ := List.exists_cons_of_ne_nil a.shownWhole_ne_nil
    have hc := h.isDigit_shownWhole c (by rw [hwhole]; exact List.mem_cons_self)
    rw [hwhole]
    exact readSign_of_isDigit hc _

theorem ne_point_of_isDigit {digits : List Char} (h : ∀ c ∈ digits, c.isDigit = true) :
    ∀ c ∈ digits, (c != '.') = true := by
  intro c hc
  rw [bne_iff_ne]
  rintro rfl
  exact absurd (h _ hc) (by decide)

/-- The point is found again, since no digit is a point. -/
theorem IsProper.splitAtPoint_shown (h : a.IsProper) :
    splitAtPoint (a.shownWhole ++ a.shownFraction) = (a.shownWhole, a.fraction) := by
  have hpoint := ne_point_of_isDigit h.isDigit_shownWhole
  rw [splitAtPoint, List.takeWhile_append_of_pos hpoint, List.dropWhile_append_of_pos hpoint]
  unfold shownFraction
  split
  case isTrue hempty => simp [List.isEmpty_iff.mp hempty]
  case isFalse => simp

/-- A decimal that was read is read again from its canonical text. -/
theorem IsProper.parse?_canonical (h : a.IsProper) : parse? a.canonical = some a.trimmed := by
  have hvalue : ofDigits a.negative a.shownWhole a.fraction = a.trimmed := by
    have hsign : (a.negative && !(a.whole.isEmpty && a.fraction.isEmpty)) = a.negative := by
      cases hnegative : a.negative with
      | false => rfl
      | true => simpa [Bool.and_eq_false_iff] using h.sign hnegative
    simp only [ofDigits, h.dropLeadingZeros_shownWhole, dropTrailingZeros_eq_self h.noTrailingZero,
      hsign, Nat.sub_self]
    rfl
  rw [parse?_eq_some, h.readSign_canonical, h.splitAtPoint_shown]
  exact ⟨.inl a.shownWhole_ne_nil, h.isDigit_shownWhole, h.fractionDigits,
    (by decide : 0 < countBound), hvalue.symm⟩

theorem IsProper.isWord_canonical (h : a.IsProper) : IsWord a.canonical := by
  rw [canonical_eq]
  constructor
  · simp [shownWhole_ne_nil]
  · refine BlankFree.append ?_ (.append (blankFree_of_isDigit h.isDigit_shownWhole) ?_)
    · split
      · exact .cons (by rfl) blankFree_nil
      · exact blankFree_nil
    · unfold shownFraction
      split
      · exact blankFree_nil
      · exact .cons (by rfl) (blankFree_of_isDigit h.fractionDigits)

/-! ## Integers -/

/-- The digits of an integer have no point among them. -/
theorem splitAtPoint_of_isDigit (h : ∀ c ∈ text, c.isDigit = true) :
    splitAtPoint text = (text, []) := by
  have hpoint := ne_point_of_isDigit h
  simp [splitAtPoint, List.takeWhile_eq_self_iff.mpr hpoint, List.dropWhile_eq_nil_iff.mpr hpoint]

theorem fraction_of_isIntegerNumeral (hinteger : isIntegerNumeral text = true)
    (h : parse? text = some a) : a.fraction = [] := by
  obtain ⟨-, -, -, -, rfl⟩ := parse?_eq_some.mp h
  simp only [isIntegerNumeral, Bool.and_eq_true] at hinteger
  rw [splitAtPoint_of_isDigit (List.all_eq_true.mp hinteger.2)]
  rfl

/-- An integer is written as an integer. -/
theorem IsProper.isIntegerNumeral_canonical (h : a.IsProper) (hfraction : a.fraction = []) :
    isIntegerNumeral a.canonical = true := by
  have hshown : a.shownFraction = [] := by simp [shownFraction, hfraction]
  rw [isIntegerNumeral, h.readSign_canonical, hshown, List.append_nil]
  simp only [Bool.and_eq_true, Bool.not_eq_true', List.isEmpty_eq_false_iff]
  exact ⟨a.shownWhole_ne_nil, List.all_eq_true.mpr h.isDigit_shownWhole⟩

end Decimal

/-! ## Reading under a rule -/

section Rule

variable {rule : LexicalRule} {text : String} {limits : Limits} {value : Decimal}

theorem readDecimal_eq_ok : readDecimal rule text limits = .ok value ↔
    limits.checkDecimalDigits (text.toList.countP Char.isDigit) = .ok () ∧
      (rule = .integer → isIntegerNumeral text.toList = true) ∧
      Decimal.parse? text.toList = some value := by
  rw [readDecimal, then_eq_ok, Error.ofLimit_eq_ok]
  refine and_congr_right ?_
  intro _
  by_cases hrule : rule = .integer
  · cases hnumeral : isIntegerNumeral text.toList with
    | true => simp [hrule, Error.ofInvalid_eq_ok, orInvalid_eq_ok]
    | false =>
      simp only [hrule, decide_true, Bool.not_false, Bool.and_true, if_true, forall_const,
        Bool.false_eq_true, false_and, iff_false]
      rintro ⟨⟩
  · simp [hrule, Error.ofInvalid_eq_ok, orInvalid_eq_ok]

theorem gives_readDecimal (hinteger : rule = .integer → isIntegerNumeral text.toList = true)
    (hparse : Decimal.parse? text.toList = some value) :
    Gives (readDecimal rule text limits) value := by
  cases hlimit : limits.checkDecimalDigits (text.toList.countP Char.isDigit) with
  | ok => exact .inr (readDecimal_eq_ok.mpr ⟨hlimit, hinteger, hparse⟩)
  | error fault => exact .inl ⟨fault, by rw [readDecimal, hlimit]; rfl⟩

end Rule

end SimpleTypes
