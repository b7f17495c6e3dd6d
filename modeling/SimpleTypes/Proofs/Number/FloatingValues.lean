import SimpleTypes.Proofs.Number.FloatingText

/-!
# Texts and values of binary floating point

Which texts are read as values of a format, and how the values and their canonical texts
belong together.

* `StandsFor`: what a text says. A numeral stands for the number of the format nearest to it.
* `parse?_eq_some`: this is how texts are read.
* `canonical_eq_iff` and `bits?_eq_iff`: values with one canonical text, or with the same
  bits, are the same value.
* `significantDigits_le`: no numeral of a value has fewer digits than its canonical
  text.
* `parse?_canonical_agree`: reading and writing agree in both formats.
-/

namespace SimpleTypes

/-! ## Significant digits -/

/-- The digits from the first to the last that is not zero. -/
def significant (digits : List Char) : List Char := dropTrailingZeros (dropLeadingZeros digits)

section Significant

variable {digits : List Char}

/-- Zeros at the end of a number are not significant. -/
theorem length_significant_le {n zeros : Nat} (hdigits : ∀ c ∈ digits, c.isDigit = true)
    (h : natOfDigits digits = n * 10 ^ zeros) :
    (significant digits).length ≤ (numeral n).length := by
  rw [significant]
  have hshown := fun c => isDigit_of_mem_dropLeadingZeros (c := c) hdigits
  have hlead := noLeadingZero_dropLeadingZeros digits
  rw [← natOfDigits_dropLeadingZeros] at h
  generalize dropLeadingZeros digits = shown at *
  by_cases hempty : shown = []
  · rw [hempty]
    exact Nat.zero_le _
  · have hpos : 0 < n * 10 ^ zeros := by
      rw [← h]
      exact (Nat.pow_pos (by decide)).trans_le (pow_le_natOfDigits hshown hempty hlead)
    rw [← numeral_natOfDigits hshown hempty hlead, h,
      numeral_mul_pow (Nat.pos_of_mul_pos_right hpos), dropTrailingZeros_append_zeros]
    exact length_dropTrailingZeros_le _

/-- A number is its significant digits and zeros. -/
theorem exists_significant (digits : List Char) :
    ∃ zeros, natOfDigits digits = natOfDigits (significant digits) * 10 ^ zeros := by
  obtain ⟨zeros, hzeros⟩ := exists_dropTrailingZeros_append (dropLeadingZeros digits)
  refine ⟨zeros, ?_⟩
  rw [significant, ← natOfDigits_append_zeros, ← hzeros, natOfDigits_dropLeadingZeros]

end Significant

/-! ## Reading -/

namespace Floating

/-- The texts of the values: three words, and the numerals. -/
inductive IsLiteral : List Char → Prop where
  | infinity : IsLiteral "INF".toList
  | negativeInfinity : IsLiteral "-INF".toList
  | nan : IsLiteral "NaN".toList
  | numeral (n : Numeral.Written) : IsLiteral n.text

/-- What a text stands for in a format. A numeral stands for the number nearest to its own,
and zero and infinity have its sign too. -/
inductive StandsFor (format : Format) : List Char → Floating → Prop where
  | infinity : StandsFor format "INF".toList (number false format.infinity)
  | negativeInfinity : StandsFor format "-INF".toList (number true format.infinity)
  | nan : StandsFor format "NaN".toList nan
  | numeral (n : Numeral.Written) {code : Nat} (h : format.IsNearest |n.value| code) :
    StandsFor format n.text (number n.significand.sign.isMinus code)

variable {format : Format} {text : List Char} {a b value : Floating}

/-- Texts are read as what they stand for. -/
theorem parse?_eq_some (hrange : format.IsInRange) :
    parse? format text = some value ↔ StandsFor format text value := by
  constructor
  · intro h
    unfold parse? at h
    split_ifs at h with hinfinity hnegative hnan
    · obtain rfl := Option.some.inj h
      exact hinfinity ▸ .infinity
    · obtain rfl := Option.some.inj h
      exact hnegative ▸ .negativeInfinity
    · obtain rfl := Option.some.inj h
      exact hnan ▸ .nan
    · obtain ⟨m, hm, rfl⟩ := Option.map_eq_some_iff.mp h
      obtain ⟨n, rfl, rfl⟩ := Numeral.parse?_eq_some.mp hm
      exact .numeral n (n.code_isNearest hrange)
  · rintro (_ | _ | _ | ⟨n, hnearest⟩)
    · rfl
    · rfl
    · rfl
    · rw [parse?_text, (n.code_isNearest hrange).eq hnearest]

/-- All texts of the values are read, and no others. -/
theorem parse?_isSome_iff (hrange : format.IsInRange) :
    (parse? format text).isSome ↔ IsLiteral text := by
  rw [Option.isSome_iff_exists]
  constructor
  · rintro ⟨value, hvalue⟩
    obtain _ | _ | _ | ⟨n, -⟩ := (parse?_eq_some hrange).mp hvalue
    · exact .infinity
    · exact .negativeInfinity
    · exact .nan
    · exact .numeral n
  · rintro (_ | _ | _ | n)
    · exact ⟨_, rfl⟩
    · exact ⟨_, rfl⟩
    · exact ⟨_, rfl⟩
    · exact ⟨_, parse?_text format n⟩

/-! ## Bits and canonical texts -/

/-- Values with the same bits are the same value. The sign bit is above the code of
infinity. -/
theorem bits?_eq_iff (ha : a.IsOf format) (hb : b.IsOf format) :
    a.bits? format = b.bits? format ↔ a = b := by
  have hblock := format.block_pos
  have hinfinity : format.infinity < (format.infiniteExponent + 1) * format.block := by
    rw [Format.infinity, Nat.add_mul]
    omega
  refine ⟨fun h => ?_, fun h => h ▸ rfl⟩
  cases a with
  | nan =>
    cases b with
    | nan => rfl
    | number => cases h
  | number s c =>
    cases b with
    | nan => cases h
    | number t d =>
      have hc : c ≤ format.infinity := ha
      have hd : d ≤ format.infinity := hb
      have hbits := Option.some.inj h
      cases s <;> cases t <;> simp only [if_true, if_false, Bool.false_eq_true] at hbits
      · rw [hbits]
      · omega
      · omega
      · rw [Nat.add_left_cancel hbits]

/-- Values with one canonical text are the same value. -/
theorem canonical_eq_iff (hrange : format.IsInRange) (ha : a.IsOf format) (hb : b.IsOf format) :
    a.canonical format = b.canonical format ↔ a = b := by
  refine ⟨fun h => ?_, fun h => h ▸ rfl⟩
  have hread := parse?_canonical hrange ha
  rw [h, parse?_canonical hrange hb] at hread
  exact (Option.some.inj hread).symm

end Floating

/-! ## Shortest texts -/

section Shortest

variable {format : Format} {n other : Numeral.Written}

/-- The number of digits from the first to the last that is not zero. Zero has one digit. -/
def Numeral.Written.significantDigits (n : Numeral.Written) : Nat :=
  max 1 (significant (n.numeral.whole ++ n.numeral.fraction)).length

/-- A numeral has no more significant digits than any other way to give its number by digits
and a power of ten. -/
theorem significantDigits_le_of_abs_value {m : Nat} {e : Int} (h : |n.value| = m * 10 ^ e) :
    n.significantDigits ≤ (numeral m).length := by
  have hone : 1 ≤ (numeral m).length := List.length_pos_of_ne_nil (numeral_ne_nil m)
  refine max_le hone ?_
  rw [n.abs_value] at h
  have hten (power : Int) : (10 : ℚ) ^ power ≠ 0 := zpow_ne_zero _ (by norm_num)
  rcases le_total n.numeral.lastPower e with hle | hge
  · obtain ⟨zeros, rfl⟩ := Int.exists_add_of_le hle
    rw [zpow_add₀ (by norm_num), mul_left_comm, mul_comm, mul_right_inj' (hten _),
      zpow_natCast] at h
    exact length_significant_le n.areDigits_numeral (mod_cast h)
  · obtain ⟨zeros, hzeros⟩ := Int.exists_add_of_le hge
    rw [hzeros, zpow_add₀ (by norm_num), mul_left_comm, mul_comm (m : ℚ), mul_right_inj' (hten _),
      zpow_natCast] at h
    have hm : n.numeral.digitsValue * 10 ^ zeros = m := mod_cast h
    have hlt : n.numeral.digitsValue < 10 ^ (numeral m).length :=
      (Nat.le_mul_of_pos_right _ (by positivity)).trans_lt (hm.trans_lt (lt_pow_numeral_length m))
    have hsame : n.numeral.digitsValue = n.numeral.digitsValue * 10 ^ 0 := (Nat.mul_one _).symm
    exact (length_significant_le n.areDigits_numeral hsame).trans (numeral_length_le hone hlt)

/-- The numerals of a number have no fewer digits than the shortest ones. -/
theorem length_shortest_le (hrange : format.IsInRange) (n : Numeral.Written) :
    (numeral (format.shortest (n.numeral.code format)).1).length ≤ n.significantDigits := by
  obtain ⟨zeros, hzeros⟩ := exists_significant (n.numeral.whole ++ n.numeral.fraction)
  have hdigits : ∀ c ∈ significant (n.numeral.whole ++ n.numeral.fraction), c.isDigit = true :=
    fun c hc => isDigit_of_mem_dropTrailingZeros
      (fun _ => isDigit_of_mem_dropLeadingZeros n.areDigits_numeral) hc
  have hnearest := n.code_isNearest hrange
  rw [n.abs_value, Numeral.digitsValue, hzeros, Nat.cast_mul, Nat.cast_pow, Nat.cast_ofNat,
    mul_assoc, ← zpow_natCast, ← zpow_add₀ (by norm_num)] at hnearest
  have hshown : natOfDigits (significant (n.numeral.whole ++ n.numeral.fraction))
      < 10 ^ n.significantDigits :=
    (natOfDigits_lt hdigits).trans_le (Nat.pow_le_pow_right (by decide) (le_max_right _ _))
  exact (Format.shortest_length_le hrange.one_lt_precision hnearest.le_infinity hnearest).trans
    (numeral_length_le (lt_max_of_lt_left Nat.one_pos) hshown)

/-- Numerals with one text stand for one number. -/
theorem abs_value_eq_of_text_eq (h : n.text = other.text) : |n.value| = |other.value| := by
  have hread := Numeral.parse?_text n
  rw [h, Numeral.parse?_text other] at hread
  rw [n.abs_value, other.abs_value, Option.some.inj hread]

namespace Floating

/-- No numeral that is read as a value has fewer digits than its canonical text. -/
theorem significantDigits_le {value : Floating} (hrange : format.IsInRange)
    (htext : n.text = value.canonical format) (hother : parse? format other.text = some value) :
    n.significantDigits ≤ other.significantDigits := by
  rw [parse?_text] at hother
  obtain rfl := Option.some.inj hother
  have hshortest := length_shortest_le hrange other
  generalize other.numeral.code format = code at htext hshortest
  generalize other.significand.sign.isMinus = negative at htext
  by_cases hinfinity : code = format.infinity
  · have hread := Numeral.parse?_text n
    have hnone : Numeral.parse? ((number negative code).canonical format) = none := by
      cases negative <;> simp only [canonical, hinfinity, if_true] <;> decide
    rw [htext, hnone] at hread
    cases hread
  by_cases hzero : code = 0
  · have hdenotes : Denotes (format.magnitudeText code) 0 := by
      rw [Format.magnitudeText, if_pos hzero]
      exact Format.denotes_zero
    obtain ⟨shown, hshown, -, hvalue⟩ := exists_written_canonical hdenotes negative hinfinity
    have hone : n.significantDigits ≤ (numeral 0).length := by
      refine significantDigits_le_of_abs_value (e := 0) ?_
      rw [abs_value_eq_of_text_eq (htext.trans hshown.symm), hvalue, Nat.cast_zero, zero_mul]
    exact hone.trans (le_max_left _ _)
  · obtain ⟨shown, hshown, -, hvalue⟩ :=
      exists_written_canonical (Format.denotes_magnitudeText hzero) negative hinfinity
    rw [← abs_value_eq_of_text_eq (htext.trans hshown.symm)] at hvalue
    exact (significantDigits_le_of_abs_value hvalue).trans hshortest

end Floating

end Shortest

namespace Floating

/-! ## Agreement -/

/-- Reading and writing agree in both formats. The texts that are read are the literals, each
as the value that it stands for. The canonical text of a value that has been read is read as
the same value, so it has the same bits and is its own canonical text. Two values have one
canonical text if they have the same bits or are both not a number, and only then. No
numeral of a value has fewer digits than its canonical text. -/
theorem parse?_canonical_agree {format : Format} (h : format = .single ∨ format = .double) :
    (∀ text, (parse? format text).isSome ↔ IsLiteral text) ∧
    (∀ text value, parse? format text = some value ↔ StandsFor format text value) ∧
    (∀ text value, parse? format text = some value →
      parse? format (value.canonical format) = some value) ∧
    (∀ s t a b, parse? format s = some a → parse? format t = some b →
      (a.canonical format = b.canonical format ↔ a.bits? format = b.bits? format)) ∧
    ∀ (n other : Numeral.Written) value, n.text = value.canonical format →
      parse? format other.text = some value → n.significantDigits ≤ other.significantDigits := by
  have hrange : format.IsInRange := by
    rcases h with rfl | rfl
    · exact Format.isInRange_single
    · exact Format.isInRange_double
  refine ⟨fun _ => parse?_isSome_iff hrange, fun _ _ => parse?_eq_some hrange,
    fun _ _ hvalue => parse?_canonical hrange (isOf_of_parse? hvalue), ?_,
    fun _ _ _ => significantDigits_le hrange⟩
  intro s t a b ha hb
  rw [canonical_eq_iff hrange (isOf_of_parse? ha) (isOf_of_parse? hb),
    bits?_eq_iff (isOf_of_parse? ha) (isOf_of_parse? hb)]

/-- `16777217`, halfway between two numbers of 32 bits. -/
def halfway : Numeral.Written :=
  ⟨⟨.absent, numeral 16777217, none, fun _ => isDigit_of_mem_numeral,
    fun _ h => absurd h List.not_mem_nil, .inl (numeral_ne_nil _)⟩, none⟩

/-- `16777216.0`, the even one of the two. -/
def evenNeighbour : Numeral.Written :=
  ⟨⟨.absent, numeral 16777216, some (numeral 0), fun _ => isDigit_of_mem_numeral,
    fun _ => isDigit_of_mem_numeral, .inl (numeral_ne_nil _)⟩, none⟩

theorem parse?_canonical_agree_halfway :
    StandsFor .single halfway.text (number false 1266679808) ∧
      (number false 1266679808).canonical .single = evenNeighbour.text ∧
      parse? .single evenNeighbour.text = some (number false 1266679808) ∧
      evenNeighbour.significantDigits ≤ halfway.significantDigits ∧
      IsLiteral "1677721.6e+1".toList ∧ ¬ IsLiteral "+INF".toList ∧
      (number true 0).canonical .single ≠ (number false 0).canonical .single := by
  obtain ⟨hliteral, hreads, hagain, hsame, hshort⟩ :=
    parse?_canonical_agree (.inl rfl : Format.single = .single ∨ Format.single = .double)
  have hvalue : parse? .single halfway.text = some (number false 1266679808) := by decide +kernel
  have hcanonical : (number false 1266679808).canonical .single = evenNeighbour.text := by
    decide +kernel
  have hminus : parse? .single "-0".toList = some (number true 0) := by decide
  have hplus : parse? .single "0e9".toList = some (number false 0) := by decide
  have hscaled : parse? .single "1677721.6e+1".toList = some (number false 1266679808) := by
    decide +kernel
  exact ⟨(hreads _ _).mp hvalue, hcanonical, hcanonical ▸ hagain _ _ hvalue,
    hshort _ _ _ hcanonical.symm hvalue, (hliteral _).mp (by rw [hscaled]; rfl),
    mt (hliteral _).mpr (by decide), mt (hsame _ _ _ _ hminus hplus).mp (by decide)⟩

end Floating

end SimpleTypes
