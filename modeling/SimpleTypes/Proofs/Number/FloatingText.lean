import SimpleTypes.Proofs.Number.FloatingGrammar
import SimpleTypes.Proofs.Number.ShortestDigits

/-!
# Texts of binary floating point numbers

What is written for a value of a binary format is read as the value.

* `Denotes`: a text that is the numeral of a number behind any sign. Digits with a point
  (`denotes_positionalText`) and digits with an exponent (`denotes_scientificText`) are such
  texts.
* `exists_denotes_magnitudeText`: so the text of a finite number is a numeral of a number
  nearest to which is that of its code.
* `Floating.parse?_canonical`: the round trip.
-/

namespace SimpleTypes

variable {format : Format} {digits text : List Char} {x : ℚ}

/-! ## Layouts -/

/-- Whether a text is the numeral of a number behind any sign. -/
def Denotes (text : List Char) (x : ℚ) : Prop :=
  ∀ sign : Sign, ∃ n : Numeral.Written,
    n.significand.sign = sign ∧ n.text = sign.text ++ text ∧ |n.value| = x

/-- A numeral may have zeros behind the digits of its number. -/
theorem Numeral.Written.abs_value_eq (n : Numeral.Written) {value : Nat} {power : Int}
    (zeros : Nat) (hdigits : n.numeral.digitsValue = value * 10 ^ zeros)
    (hlast : n.numeral.lastPower = power - zeros) : |n.value| = value * 10 ^ power := by
  rw [abs_value, hdigits, hlast, zpow_sub₀ (by norm_num), zpow_natCast]
  push_cast
  field_simp

/-- The digits of a number, and the zeros up to the point. -/
theorem denotes_positionalText_of_nonneg (hdigits : ∀ c ∈ digits, c.isDigit = true)
    {power : Int} (hpower : 0 ≤ power) :
    Denotes (Format.positionalText digits power) (natOfDigits digits * 10 ^ power) := by
  have htext : Format.positionalText digits power
      = digits ++ List.replicate power.toNat '0' ++ ['.', '0'] := if_pos hpower
  intro sign
  refine ⟨⟨⟨sign, digits ++ List.replicate power.toNat '0', some (List.replicate 1 '0'),
    List.forall_mem_append.mpr ⟨hdigits, fun _ => isDigit_of_mem_zeros⟩,
    fun _ => isDigit_of_mem_zeros, .inr (by decide)⟩, none⟩, rfl, ?_,
    Numeral.Written.abs_value_eq _ (power.toNat + 1) ?_ ?_⟩
  · rw [htext]
    exact List.append_nil _
  · show natOfDigits (digits ++ List.replicate power.toNat '0' ++ List.replicate 1 '0') = _
    rw [List.append_assoc, List.replicate_append_replicate, natOfDigits_append_zeros]
  · show (0 : Int) - (1 : Nat) = _
    omega

/-- The digits of a number with a point among them. Where there are too few, zeros are put
in front. -/
theorem denotes_positionalText_of_neg (hdigits : ∀ c ∈ digits, c.isDigit = true) {places : Nat}
    (hplaces : 0 < places) :
    Denotes (Format.positionalText digits (-(places : Int)))
      (natOfDigits digits * 10 ^ (-(places : Int))) := by
  have hneg : ¬ 0 ≤ -(places : Int) := by omega
  have htoNat : (- -(places : Int)).toNat = places := by omega
  rw [Format.positionalText, if_neg hneg, htoNat]
  dsimp only
  have hfilled :
      ∀ c ∈ List.replicate (places + 1 - digits.length) '0' ++ digits, c.isDigit = true :=
    List.forall_mem_append.mpr ⟨fun _ => isDigit_of_mem_zeros, hdigits⟩
  have hlength : places < (List.replicate (places + 1 - digits.length) '0' ++ digits).length := by
    rw [List.length_append, List.length_replicate]
    omega
  have hvalue : natOfDigits (List.replicate (places + 1 - digits.length) '0' ++ digits)
      = natOfDigits digits := by
    have hzeros := natOfDigits_append_zeros [] (places + 1 - digits.length)
    rw [List.nil_append, natOfDigits_nil, Nat.zero_mul] at hzeros
    rw [natOfDigits_append, hzeros, Nat.zero_mul, Nat.zero_add]
  generalize List.replicate (places + 1 - digits.length) '0' ++ digits = filled at *
  have hne : filled.take (filled.length - places) ≠ [] := by
    rw [← List.length_pos_iff, List.length_take]
    omega
  intro sign
  refine ⟨⟨⟨sign, filled.take (filled.length - places), some (filled.drop (filled.length - places)),
    fun c hc => hfilled c (List.mem_of_mem_take hc),
    fun c hc => hfilled c (List.mem_of_mem_drop hc), .inl hne⟩, none⟩, rfl, List.append_nil _,
    Numeral.Written.abs_value_eq _ 0 ?_ ?_⟩
  · show natOfDigits (filled.take (filled.length - places) ++ filled.drop _) = _
    rw [List.take_append_drop, hvalue, Nat.pow_zero, Nat.mul_one]
  · show (0 : Int) - (filled.drop (filled.length - places)).length = _
    rw [List.length_drop]
    omega

theorem denotes_positionalText (hdigits : ∀ c ∈ digits, c.isDigit = true) (power : Int) :
    Denotes (Format.positionalText digits power) (natOfDigits digits * 10 ^ power) := by
  by_cases hpower : 0 ≤ power
  · exact denotes_positionalText_of_nonneg hdigits hpower
  · obtain ⟨places, rfl⟩ : ∃ places : Nat, power = -places := ⟨power.natAbs, by omega⟩
    exact denotes_positionalText_of_neg hdigits (by omega)

/-- The exponent that is written for a power of ten. -/
def Numeral.Exponent.ofPower (power : Int) : Numeral.Exponent where
  letter := 'E'
  sign := if power < 0 then .minus else .absent
  digits := numeral power.natAbs
  isLetter := .inr rfl
  areDigits _ := isDigit_of_mem_numeral
  someDigit := numeral_ne_nil _

theorem Numeral.Exponent.text_ofPower (power : Int) : Exponent.text (some (ofPower power))
    = 'E' :: (if power < 0 then ['-'] else []) ++ SimpleTypes.numeral power.natAbs := by
  show 'E' :: (Sign.text (if power < 0 then .minus else .absent) ++ _) = _
  split <;> rfl

theorem Numeral.Exponent.power_ofPower (power : Int) :
    Exponent.power (some (ofPower power)) = power := by
  show Sign.apply (if power < 0 then .minus else .absent)
    (natOfDigits (SimpleTypes.numeral power.natAbs) : Int) = power
  rw [natOfDigits_numeral]
  split
  case isTrue hneg =>
    show -(power.natAbs : Int) = power
    rw [Int.ofNat_natAbs_of_nonpos hneg.le, neg_neg]
  case isFalse hneg => exact Int.natAbs_of_nonneg (not_lt.mp hneg)

/-- The digits of a number with a point after the first of several, and an exponent. -/
theorem denotes_scientificText (hdigits : ∀ c ∈ digits, c.isDigit = true) (hne : digits ≠ [])
    (power : Int) :
    Denotes (Format.scientificText digits power) (natOfDigits digits * 10 ^ power) := by
  intro sign
  match digits, hne with
  | [first], _ =>
    refine ⟨⟨⟨sign, [first], none, hdigits, fun _ h => absurd h List.not_mem_nil,
      .inl (List.cons_ne_nil _ _)⟩, some (.ofPower (power + 1 - 1))⟩, rfl, ?_,
      Numeral.Written.abs_value_eq _ 0 ?_ ?_⟩
    · rw [Numeral.Written.text, Numeral.Exponent.text_ofPower]
      simp [Decimal.Written.text, Decimal.pointText, Format.scientificText]
    · rw [Nat.pow_zero, Nat.mul_one]
      rfl
    · show Numeral.Exponent.power (some (.ofPower (power + 1 - 1))) - (0 : Nat) = _
      rw [Numeral.Exponent.power_ofPower]
      omega
  | first :: second :: rest, _ =>
    obtain ⟨hfirst, hrest⟩ := List.forall_mem_cons.mp hdigits
    refine ⟨⟨⟨sign, [first], some (second :: rest), List.forall_mem_singleton.mpr hfirst, hrest,
      .inl (List.cons_ne_nil _ _)⟩,
      some (.ofPower (power + (first :: second :: rest).length - 1))⟩, rfl, ?_,
      Numeral.Written.abs_value_eq _ 0 ?_ ?_⟩
    · rw [Numeral.Written.text, Numeral.Exponent.text_ofPower]
      simp [Decimal.Written.text, Decimal.pointText, Format.scientificText]
    · rw [Nat.pow_zero, Nat.mul_one]
      rfl
    · show Numeral.Exponent.power (some (.ofPower _)) - ((second :: rest).length : Int) = _
      rw [Numeral.Exponent.power_ofPower, List.length_cons]
      omega

/-! ## Values -/

namespace Format

/-- The text of a finite number without its sign. -/
def magnitudeText (format : Format) (code : Nat) : List Char :=
  if code = 0 then "0.0".toList
  else if format.isPositional code then
    positionalText (numeral (format.shortest code).1) (format.shortest code).2
  else scientificText (numeral (format.shortest code).1) (format.shortest code).2

/-- The text of a number other than zero is the numeral of its shortest digits. -/
theorem denotes_magnitudeText {code : Nat} (hzero : code ≠ 0) :
    Denotes (format.magnitudeText code)
      ((format.shortest code).1 * 10 ^ (format.shortest code).2) := by
  have hdigits : ∀ c ∈ numeral (format.shortest code).1, c.isDigit = true :=
    fun _ => isDigit_of_mem_numeral
  have hpositional := denotes_positionalText hdigits (format.shortest code).2
  have hscientific := denotes_scientificText hdigits (numeral_ne_nil _) (format.shortest code).2
  rw [natOfDigits_numeral] at hpositional hscientific
  rw [magnitudeText, if_neg hzero]
  split
  · exact hpositional
  · exact hscientific

theorem denotes_zero : Denotes "0.0".toList 0 := by
  have hdigit : ∀ c ∈ ['0'], c.isDigit = true := List.forall_mem_singleton.mpr rfl
  have hvalue : natOfDigits ['0'] = 0 := natOfDigits_singleton '0'
  have hdenotes := denotes_positionalText hdigit 0
  rwa [hvalue, Nat.cast_zero, zero_mul] at hdenotes

/-- The text of a finite number is the numeral of a number nearest to which is its own. -/
theorem exists_denotes_magnitudeText (hprecision : 1 < format.precision) {code : Nat}
    (hcode : code ≤ format.infinity) :
    ∃ x, Denotes (format.magnitudeText code) x ∧ format.IsNearest x code := by
  by_cases hzero : code = 0
  · subst hzero
    have hnearest := isNearest_value hcode
    rw [value_zero] at hnearest
    exact ⟨0, denotes_zero, hnearest⟩
  · exact ⟨_, denotes_magnitudeText hzero, shortest_isNearest hprecision hcode⟩

end Format

namespace Floating

/-- Whether a value is one of a format: not a number, or a code up to infinity. -/
def IsOf (format : Format) : Floating → Prop
  | nan => True
  | number _ code => code ≤ format.infinity

theorem isOf_of_parse? {value : Floating} (h : parse? format text = some value) :
    value.IsOf format := by
  unfold parse? at h
  split_ifs at h
  · obtain rfl := Option.some.inj h
    exact Nat.le_refl _
  · obtain rfl := Option.some.inj h
    exact Nat.le_refl _
  · obtain rfl := Option.some.inj h
    trivial
  · obtain ⟨n, -, rfl⟩ := Option.map_eq_some_iff.mp h
    exact n.code_le_infinity format

/-- Numerals are none of the three words. -/
theorem parse?_text (format : Format) (n : Numeral.Written) :
    parse? format n.text
      = some (number n.significand.sign.isMinus (n.numeral.code format)) := by
  have hread := Numeral.parse?_text n
  have hword {word : List Char} (hnone : Numeral.parse? word = none) : n.text ≠ word := by
    rintro heq
    rw [heq, hnone] at hread
    cases hread
  rw [parse?, if_neg (hword (by decide)), if_neg (hword (by decide)), if_neg (hword (by decide)),
    hread]
  rfl

theorem canonical_number {negative : Bool} {code : Nat} (hcode : code ≠ format.infinity) :
    (number negative code).canonical format
      = (if negative then ['-'] else []) ++ format.magnitudeText code := by
  simp only [canonical, hcode, if_false]
  cases negative <;> rfl

/-- The canonical text of a finite number is a numeral with its sign. -/
theorem exists_written_canonical {code : Nat} (h : Denotes (format.magnitudeText code) x)
    (negative : Bool) (hfinite : code ≠ format.infinity) :
    ∃ n : Numeral.Written, n.text = (number negative code).canonical format ∧
      n.significand.sign.isMinus = negative ∧ |n.value| = x := by
  obtain ⟨n, hsign, htext, hvalue⟩ := h (if negative then .minus else .absent)
  refine ⟨n, ?_, ?_, hvalue⟩
  · rw [canonical_number hfinite, htext]
    cases negative <;> rfl
  · rw [hsign]
    cases negative <;> rfl

/-- What is written for a value of a format is read as the value. -/
theorem parse?_canonical {value : Floating} (hrange : format.IsInRange) (h : value.IsOf format) :
    parse? format (value.canonical format) = some value := by
  cases value with
  | nan => rfl
  | number negative code =>
    by_cases hinfinity : code = format.infinity
    · subst hinfinity
      cases negative <;> simp [canonical, parse?]
    · obtain ⟨x, hdenotes, hnearest⟩ :=
        Format.exists_denotes_magnitudeText hrange.one_lt_precision h
      obtain ⟨n, htext, rfl, rfl⟩ := exists_written_canonical hdenotes negative hinfinity
      rw [← htext, parse?_text, (n.code_isNearest hrange).eq hnearest]

/-- The text of a value has no blanks. -/
theorem isWord_canonical {value : Floating} (hrange : format.IsInRange) (h : value.IsOf format) :
    IsWord (value.canonical format) := by
  cases value with
  | nan => exact (by decide : IsWord "NaN".toList)
  | number negative code =>
    by_cases hinfinity : code = format.infinity
    · subst hinfinity
      have hpositive : IsWord "INF".toList := by decide
      have hnegative : IsWord "-INF".toList := by decide
      cases negative <;> simpa [canonical]
    · obtain ⟨x, hdenotes, -⟩ := Format.exists_denotes_magnitudeText hrange.one_lt_precision h
      obtain ⟨n, htext, -, -⟩ := exists_written_canonical hdenotes negative hinfinity
      exact htext ▸ n.isWord_text

end Floating

end SimpleTypes
