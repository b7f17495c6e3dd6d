import SimpleTypes.Proofs.Number.Magnitude

/-!
# Numerals of scaled decimals

The text of a scaled decimal, and what is read from it.

* `text_congr`: equal numbers have the same text.
* `IsMagnitude.exists_digits`: the text of a magnitude consists of digits, and the
  number that is read from them is the same.
-/

namespace SimpleTypes

/-! ## Zeros at the end -/

theorem numeral_mul_ten {n : Nat} (h : 0 < n) : numeral (n * 10) = numeral n ++ ['0'] := by
  have happend := Nat.toDigits_append_toDigits (b := 10) (by decide) h (by decide : 0 < 10)
  rw [Nat.add_zero, Nat.mul_comm] at happend
  exact happend.symm

theorem numeral_mul_pow {n : Nat} (h : 0 < n) (zeros : Nat) :
    numeral (n * 10 ^ zeros) = numeral n ++ List.replicate zeros '0' := by
  induction zeros with
  | zero => rw [Nat.pow_zero, Nat.mul_one, List.replicate_zero, List.append_nil]
  | succ zeros ih =>
    rw [Nat.pow_succ, ← Nat.mul_assoc, numeral_mul_ten (by positivity), ih, List.append_assoc,
      ← List.replicate_succ']

/-- Ten times a number has one digit more. -/
theorem paddedNumeral_mul_ten {width : Nat} (hw : 0 < width) (n : Nat) :
    paddedNumeral (width + 1) (n * 10) = paddedNumeral width n ++ ['0'] := by
  rcases Nat.eq_zero_or_pos n with rfl | hn
  · have hzero : numeral 0 = ['0'] := rfl
    obtain ⟨width, rfl⟩ := Nat.exists_eq_succ_of_ne_zero hw.ne'
    simp [paddedNumeral, hzero, List.replicate_succ']
  · rw [paddedNumeral, paddedNumeral, numeral_mul_ten hn, List.length_append, List.length_singleton,
      Nat.add_sub_add_right, List.append_assoc]

namespace Scaled

/-! ## Texts of equal numbers -/

theorem splitDigits_mul_ten (magnitude scale : Nat) :
    splitDigits (magnitude * 10) (scale + 1)
      = ((splitDigits magnitude scale).1, (splitDigits magnitude scale).2 ++ ['0']) := by
  have hlength : (paddedNumeral (scale + 1) magnitude).length - scale
      ≤ (paddedNumeral (scale + 1) magnitude).length := Nat.sub_le _ _
  simp only [splitDigits, paddedNumeral_mul_ten (Nat.succ_pos scale), List.length_append,
    List.length_singleton, Nat.add_sub_add_right, List.take_append_of_le_length hlength,
    List.drop_append_of_le_length hlength]

/-- Equal numbers have the same text. -/
theorem text_congr {a b : Scaled} (h : a.value = b.value) : a.text = b.text := by
  refine congr_of_value (f := text) (fun n scale => ?_) h
  have hsign : n * 10 < 0 ↔ n < 0 := by omega
  have habs : (n * 10).natAbs = n.natAbs * 10 := Int.natAbs_mul n 10
  simp only [text, hsign, habs, splitDigits_mul_ten, dropTrailingZeros_append_zero]

/-! ## Reading -/

theorem le_ofDigitChars (digits : List Char) (n : Nat) : n ≤ Nat.ofDigitChars 10 digits n := by
  rw [Nat.ofDigitChars_eq_ofDigitChars_zero]
  exact (Nat.le_mul_of_pos_left n (by positivity)).trans (Nat.le_add_right _ _)

/-- Digits that all fit are all taken. -/
theorem appendFraction_of_fits {fraction : List Char} {n scale : Nat}
    (hscale : scale + fraction.length ≤ maxScale)
    (hfits : Nat.ofDigitChars 10 fraction n < bound) :
    appendFraction n scale fraction
      = some ⟨Nat.ofDigitChars 10 fraction n, scale + fraction.length⟩ := by
  induction fraction generalizing n scale with
  | nil => rfl
  | cons d rest ih =>
    rw [List.length_cons] at hscale ⊢
    have hdigit : n * 10 + natOfDigits [d] = 10 * n + (d.toNat - '0'.toNat) := by
      rw [natOfDigits_singleton, Nat.mul_comm]
      rfl
    rw [Nat.ofDigitChars_cons] at hfits ⊢
    have hlt := (le_ofDigitChars rest _).trans_lt hfits
    rw [appendFraction, hdigit, if_pos ⟨by omega, hlt⟩, ih (by omega) hfits]
    congr 2
    omega

theorem ofDigits?_of_fits {whole fraction : List Char} (hscale : fraction.length ≤ maxScale)
    (hfits : natOfDigits (whole ++ fraction) < bound) :
    ofDigits? whole fraction = some ⟨natOfDigits (whole ++ fraction), fraction.length⟩ := by
  rw [natOfDigits, Nat.ofDigitChars_append] at hfits ⊢
  have hwhole := (le_ofDigitChars fraction _).trans_lt hfits
  rw [ofDigits?, natOfDigits]
  rw [if_pos hwhole, appendFraction_of_fits (by omega) hfits, Nat.zero_add]

/-- The digits of a magnitude, of which `scale` stand after the point. -/
theorem splitDigits_eq {magnitude scale : Nat} {whole fraction : List Char}
    (h : splitDigits magnitude scale = (whole, fraction)) :
    natOfDigits (whole ++ fraction) = magnitude ∧ fraction.length = scale ∧ whole ≠ [] ∧
      ∀ c ∈ whole ++ fraction, c.isDigit = true := by
  obtain ⟨rfl, rfl⟩ := Prod.mk.inj h
  have hlength : scale + 1 ≤ (paddedNumeral (scale + 1) magnitude).length := by
    rw [paddedNumeral_length]
    exact le_max_left _ _
  rw [List.take_append_drop]
  refine ⟨natOfDigits_paddedNumeral _ _, ?_, ?_, fun _ => isDigit_of_mem_paddedNumeral⟩
  · rw [List.length_drop]
    omega
  · rw [← List.length_pos_iff, List.length_take]
    omega

/-- The text of a magnitude consists of digits, and the number that is read from
them is the same. -/
theorem IsMagnitude.exists_digits {a : Scaled} (h : a.IsMagnitude) :
    ∃ whole fraction read, a.text = whole ++ (if fraction.isEmpty then [] else '.' :: fraction) ∧
      whole ≠ [] ∧ (∀ c ∈ whole, c.isDigit = true) ∧ (∀ c ∈ fraction, c.isDigit = true) ∧
      ofDigits? whole fraction = some read ∧ read.value = a.value ∧ read.scale ≤ a.scale := by
  obtain ⟨n, hn⟩ := Int.eq_ofNat_of_zero_le h.nonneg
  have hlt : n < bound := by have := h.lt; omega
  obtain ⟨whole, fraction, hsplit⟩ : ∃ whole fraction, splitDigits n a.scale = (whole, fraction) :=
    ⟨_, _, rfl⟩
  obtain ⟨hvalue, hlength, hne, hdigits⟩ := splitDigits_eq hsplit
  obtain ⟨hwhole, hfraction⟩ := List.forall_mem_append.mp hdigits
  obtain ⟨zeros, hzeros⟩ := exists_dropTrailingZeros_append fraction
  have hscale : (dropTrailingZeros fraction).length + zeros = a.scale := by
    rw [← hlength, ← List.length_replicate (n := zeros) (a := '0'), ← List.length_append, ← hzeros]
  have hshown : natOfDigits (whole ++ dropTrailingZeros fraction) * 10 ^ zeros = n := by
    rw [← natOfDigits_append_zeros, List.append_assoc, ← hzeros, hvalue]
  have hfits : natOfDigits (whole ++ dropTrailingZeros fraction) < bound :=
    (Nat.le_mul_of_pos_right _ (by positivity)).trans_lt (hshown.trans_lt hlt)
  refine ⟨whole, dropTrailingZeros fraction, _, ?_, hne, hwhole,
    fun c => isDigit_of_mem_dropTrailingZeros hfraction,
    ofDigits?_of_fits (by have := h.scale; omega) hfits, ?_, ?_⟩
  · have hnonneg : ¬ (n : Int) < 0 := by omega
    simp only [text, hn, Int.natAbs_natCast, hsplit, hnonneg, if_false, List.nil_append]
  · rw [value, value, hn, ← hshown, ← hscale, pow_add]
    push_cast
    rw [mul_div_mul_right _ _ (by positivity)]
  · exact Nat.le_of_add_right_le hscale.le

end Scaled

end SimpleTypes
