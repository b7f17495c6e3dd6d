import Mathlib.Tactic.Ring
import SimpleTypes.Number.Digits

/-!
# Digit sequences and their values

What is written as a numeral is read back as the same number.

* `natOfDigits_lt`: digits are worth less than the power of ten of their number.
* `spanDigits_append`: the digits in front of a text that does not go on with a
  digit are found whole.
* `readTwoDigits?_paddedNumeral`: a number below one hundred in two digits is
  read back.
* `numeral_head_ne_zero`: the numeral of a positive number has no zero in front.
* `pow_le_natOfDigits` and `exists_dropTrailingZeros_append`: what zeros at the ends
  are worth.
-/

namespace SimpleTypes

/-! ## Values -/

theorem natOfDigits_nil : natOfDigits [] = 0 := rfl

theorem natOfDigits_cons (c : Char) (digits : List Char) :
    natOfDigits (c :: digits) = (c.toNat - 48) * 10 ^ digits.length + natOfDigits digits := by
  unfold natOfDigits
  rw [Nat.ofDigitChars_cons, Nat.ofDigitChars_eq_ofDigitChars_zero]
  simp [Nat.mul_comm]

theorem natOfDigits_singleton (c : Char) : natOfDigits [c] = c.toNat - 48 := by
  rw [natOfDigits_cons, natOfDigits_nil, List.length_nil, Nat.pow_zero, Nat.mul_one, Nat.add_zero]

theorem isDigit_bounds {c : Char} (h : c.isDigit = true) : 48 ≤ c.toNat ∧ c.toNat ≤ 57 :=
  Char.isDigit_iff_toNat.mp h

theorem notMem_of_isDigit {c : Char} (hc : c.isDigit = false) {digits : List Char}
    (h : ∀ d ∈ digits, d.isDigit = true) : c ∉ digits := by
  intro hmem
  rw [h c hmem] at hc
  cases hc

theorem isDigit_of_mem_zeros {count : Nat} {c : Char} (h : c ∈ List.replicate count '0') :
    c.isDigit = true := by
  rw [List.eq_of_mem_replicate h]
  rfl

/-- Digits are worth less than the power of ten of their number. -/
theorem natOfDigits_lt {digits : List Char} (h : ∀ c ∈ digits, c.isDigit = true) :
    natOfDigits digits < 10 ^ digits.length := by
  induction digits with
  | nil => simp [natOfDigits_nil]
  | cons c rest ih =>
    have hc := isDigit_bounds (h c List.mem_cons_self)
    have hrest := ih fun d hd => h d (List.mem_cons_of_mem _ hd)
    have hmul : (c.toNat - 48) * 10 ^ rest.length ≤ 9 * 10 ^ rest.length :=
      Nat.mul_le_mul_right _ (by omega)
    rw [natOfDigits_cons, List.length_cons, Nat.pow_succ]
    omega

theorem natOfDigits_append (before after : List Char) :
    natOfDigits (before ++ after) = natOfDigits before * 10 ^ after.length + natOfDigits after := by
  rw [natOfDigits, Nat.ofDigitChars_append, Nat.ofDigitChars_eq_ofDigitChars_zero, Nat.mul_comm]
  rfl

theorem natOfDigits_append_zeros (digits : List Char) (zeros : Nat) :
    natOfDigits (digits ++ List.replicate zeros '0') = natOfDigits digits * 10 ^ zeros := by
  have hzeros : natOfDigits (List.replicate zeros '0') = 0 := by
    induction zeros with
    | zero => rfl
    | succ zeros ih => rw [List.replicate_succ, natOfDigits_cons, ih, Nat.add_zero]; simp
  rw [natOfDigits_append, hzeros, List.length_replicate, Nat.add_zero]

/-! ## Numerals -/

theorem natOfDigits_numeral (n : Nat) : natOfDigits (numeral n) = n :=
  Nat.ofDigitChars_ten_toDigits

theorem numeral_ne_nil (n : Nat) : numeral n ≠ [] :=
  Nat.toDigits_ne_nil

theorem isDigit_of_mem_numeral {n : Nat} {c : Char} (h : c ∈ numeral n) : c.isDigit = true :=
  Nat.isDigit_of_mem_toDigits (by decide) (by decide) h

theorem numeral_length_le {n width : Nat} (hw : 0 < width) (h : n < 10 ^ width) :
    (numeral n).length ≤ width :=
  (Nat.length_toDigits_le_iff (by decide) hw).mpr h

theorem natOfDigits_paddedNumeral (width n : Nat) : natOfDigits (paddedNumeral width n) = n := by
  have h := natOfDigits_numeral n
  unfold natOfDigits at h
  simp [paddedNumeral, natOfDigits, Nat.ofDigitChars_append, h]

theorem isDigit_of_mem_paddedNumeral {width n : Nat} {c : Char} (h : c ∈ paddedNumeral width n) :
    c.isDigit = true := by
  rcases List.mem_append.mp h with hzero | hdigit
  · rw [(List.mem_replicate.mp hzero).2]
    rfl
  · exact isDigit_of_mem_numeral hdigit

theorem paddedNumeral_length (width n : Nat) :
    (paddedNumeral width n).length = max width (numeral n).length := by
  simp only [paddedNumeral, List.length_append, List.length_replicate]
  omega

theorem paddedNumeral_length_eq {width n : Nat} (hw : 0 < width) (h : n < 10 ^ width) :
    (paddedNumeral width n).length = width := by
  have := numeral_length_le hw h
  rw [paddedNumeral_length]
  omega

theorem paddedNumeral_of_le {width n : Nat} (h : width ≤ (numeral n).length) :
    paddedNumeral width n = numeral n := by
  simp [paddedNumeral, Nat.sub_eq_zero_of_le h]

/-- The numeral of a positive number has no zero in front. -/
theorem numeral_head_ne_zero {n : Nat} (h : 0 < n) : (numeral n).head? ≠ some '0' := by
  cases hd : numeral n with
  | nil => simp
  | cons c rest =>
    -- A zero in front would make the number too small for the length of its numeral.
    intro hzero
    obtain rfl : c = '0' := by simpa using hzero
    have hvalue : natOfDigits rest = n := by
      have := natOfDigits_numeral n
      rw [hd, natOfDigits_cons] at this
      simpa using this
    have hlt : n < 10 ^ rest.length := by
      rw [← hvalue]
      exact natOfDigits_lt fun c hc =>
        isDigit_of_mem_numeral (n := n) (by rw [hd]; exact List.mem_cons_of_mem _ hc)
    rcases Nat.eq_zero_or_pos rest.length with hlen | hlen
    · rw [hlen] at hlt
      omega
    · have := numeral_length_le hlen hlt
      rw [hd, List.length_cons] at this
      omega

/-! ## Digits in front of a text -/

/-- Whether a text goes on with a digit. -/
def StartsWithDigit (text : List Char) : Prop := ∃ c, text.head? = some c ∧ c.isDigit = true

theorem not_startsWithDigit_nil : ¬ StartsWithDigit [] := by
  rintro ⟨c, hc, -⟩
  simp at hc

theorem not_startsWithDigit_cons {c : Char} {rest : List Char} (h : c.isDigit = false) :
    ¬ StartsWithDigit (c :: rest) := by
  rintro ⟨d, hd, hdigit⟩
  obtain rfl : c = d := by simpa using hd
  rw [h] at hdigit
  cases hdigit

theorem spanDigits_of_not_startsWithDigit {rest : List Char} (h : ¬ StartsWithDigit rest) :
    spanDigits rest = ([], rest) := by
  cases rest with
  | nil => rfl
  | cons c rest =>
    have hc : c.isDigit = false := Bool.eq_false_iff.mpr fun hdigit => h ⟨c, rfl, hdigit⟩
    simp [spanDigits, hc]

/-- The digits in front of a text that does not go on with a digit are found
whole. -/
theorem spanDigits_append {digits rest : List Char} (h : ∀ c ∈ digits, c.isDigit = true)
    (hrest : ¬ StartsWithDigit rest) : spanDigits (digits ++ rest) = (digits, rest) := by
  have hstop := spanDigits_of_not_startsWithDigit hrest
  simp only [spanDigits, Prod.mk.injEq] at hstop
  simp only [spanDigits, List.takeWhile_append_of_pos h, List.dropWhile_append_of_pos h, hstop.1,
    hstop.2, List.append_nil]

theorem spanDigits_eq_append (text : List Char) :
    (spanDigits text).1 ++ (spanDigits text).2 = text :=
  List.takeWhile_append_dropWhile

theorem isDigit_spanDigits (text : List Char) : ∀ c ∈ (spanDigits text).1, c.isDigit = true :=
  List.all_eq_true.mp List.all_takeWhile

/-- A number below one hundred in two digits is read back. -/
theorem readTwoDigits?_paddedNumeral {n : Nat} (h : n < 100) (rest : List Char) :
    readTwoDigits? (paddedNumeral 2 n ++ rest) = some (n, rest) := by
  have hlen : (paddedNumeral 2 n).length = 2 := paddedNumeral_length_eq (by decide) h
  have hdigit : ∀ c ∈ paddedNumeral 2 n, c.isDigit = true := fun _ => isDigit_of_mem_paddedNumeral
  have hvalue := natOfDigits_paddedNumeral 2 n
  match hd : paddedNumeral 2 n, hlen with
  | [a, b], _ =>
    rw [hd] at hdigit hvalue
    simp [readTwoDigits?, hdigit a (by simp), hdigit b (by simp), hvalue]

/-! ## Zeros at the ends -/

/-- Digits without a zero at the end. -/
def NoTrailingZero (digits : List Char) : Prop := digits.getLast? ≠ some '0'

/-- Digits without a zero in front. -/
def NoLeadingZero (digits : List Char) : Prop := digits.head? ≠ some '0'

theorem NoTrailingZero.of_cons {c : Char} {digits : List Char}
    (h : NoTrailingZero (c :: digits)) : NoTrailingZero digits := by
  cases digits with
  | nil => simp [NoTrailingZero]
  | cons d rest => simpa [NoTrailingZero] using h

theorem noLeadingZero_dropLeadingZeros (digits : List Char) :
    NoLeadingZero (dropLeadingZeros digits) := by
  intro h
  have := List.head?_dropWhile_not (· == '0') digits
  unfold dropLeadingZeros at h
  rw [h] at this
  simp at this

theorem noTrailingZero_dropTrailingZeros (digits : List Char) :
    NoTrailingZero (dropTrailingZeros digits) := by
  have := noLeadingZero_dropLeadingZeros digits.reverse
  simpa [NoTrailingZero, NoLeadingZero, dropTrailingZeros, dropLeadingZeros] using this

theorem dropLeadingZeros_eq_self {digits : List Char} (h : NoLeadingZero digits) :
    dropLeadingZeros digits = digits := by
  cases digits with
  | nil => rfl
  | cons c rest =>
    have hc : c ≠ '0' := by simpa [NoLeadingZero] using h
    simp [dropLeadingZeros, hc]

theorem dropTrailingZeros_eq_self {digits : List Char} (h : NoTrailingZero digits) :
    dropTrailingZeros digits = digits := by
  have hrev : NoLeadingZero digits.reverse := by simpa [NoTrailingZero, NoLeadingZero] using h
  have := dropLeadingZeros_eq_self hrev
  unfold dropLeadingZeros at this
  simp [dropTrailingZeros, this]

theorem isDigit_of_mem_dropLeadingZeros {digits : List Char} {c : Char}
    (h : ∀ c ∈ digits, c.isDigit = true) (hc : c ∈ dropLeadingZeros digits) : c.isDigit = true :=
  h c ((List.dropWhile_sublist _).mem hc)

theorem isDigit_of_mem_dropTrailingZeros {digits : List Char} {c : Char}
    (h : ∀ c ∈ digits, c.isDigit = true) (hc : c ∈ dropTrailingZeros digits) :
    c.isDigit = true := by
  have hrev : ∀ d ∈ digits.reverse, d.isDigit = true := fun d hd => h d (List.mem_reverse.mp hd)
  exact isDigit_of_mem_dropLeadingZeros hrev (List.mem_reverse.mp hc)

theorem natOfDigits_dropLeadingZeros (digits : List Char) :
    natOfDigits (dropLeadingZeros digits) = natOfDigits digits := by
  induction digits with
  | nil => rfl
  | cons c rest ih =>
    by_cases hc : c = '0'
    · rw [hc, natOfDigits_cons, ← ih]
      simp [dropLeadingZeros]
    · simp [dropLeadingZeros, hc]

/-- Without a zero in front digits are worth at least the power of ten of the first
one. -/
theorem pow_le_natOfDigits {digits : List Char} (h : ∀ c ∈ digits, c.isDigit = true)
    (hne : digits ≠ []) (hzero : NoLeadingZero digits) :
    10 ^ (digits.length - 1) ≤ natOfDigits digits := by
  cases digits with
  | nil => exact absurd rfl hne
  | cons c rest =>
    have hc := isDigit_bounds (h c List.mem_cons_self)
    have hfirst : c.toNat ≠ 48 := by
      intro heq
      have hchar : c = '0' := Char.toNat_inj.mp heq
      simp [NoLeadingZero, hchar] at hzero
    rw [natOfDigits_cons, List.length_cons, Nat.add_sub_cancel]
    calc
      10 ^ rest.length ≤ (c.toNat - 48) * 10 ^ rest.length :=
        Nat.le_mul_of_pos_left _ (by omega)
      _ ≤ _ := Nat.le_add_right _ _

/-- A number has as many digits as its size asks for. -/
theorem lt_pow_numeral_length (n : Nat) : n < 10 ^ (numeral n).length := by
  have hlt : natOfDigits (numeral n) < _ := natOfDigits_lt fun _ => isDigit_of_mem_numeral
  rwa [natOfDigits_numeral] at hlt

theorem pow_numeral_length_le {n : Nat} (h : 0 < n) : 10 ^ ((numeral n).length - 1) ≤ n := by
  have hle : _ ≤ natOfDigits (numeral n) :=
    pow_le_natOfDigits (fun _ => isDigit_of_mem_numeral) (numeral_ne_nil n) (numeral_head_ne_zero h)
  rwa [natOfDigits_numeral] at hle

theorem dropTrailingZeros_append_zero (digits : List Char) :
    dropTrailingZeros (digits ++ ['0']) = dropTrailingZeros digits := by
  simp [dropTrailingZeros]

theorem dropTrailingZeros_append_zeros (digits : List Char) (zeros : Nat) :
    dropTrailingZeros (digits ++ List.replicate zeros '0') = dropTrailingZeros digits := by
  induction zeros with
  | zero => rw [List.replicate_zero, List.append_nil]
  | succ zeros ih =>
    rw [List.replicate_succ', ← List.append_assoc, dropTrailingZeros_append_zero, ih]

theorem length_dropTrailingZeros_le (digits : List Char) :
    (dropTrailingZeros digits).length ≤ digits.length := by
  rw [dropTrailingZeros, List.length_reverse]
  exact (List.dropWhile_sublist _).length_le.trans_eq List.length_reverse

/-- Only zeros are dropped. -/
theorem exists_dropTrailingZeros_append (digits : List Char) :
    ∃ zeros, digits = dropTrailingZeros digits ++ List.replicate zeros '0' := by
  refine ⟨(digits.reverse.takeWhile (· == '0')).length, ?_⟩
  have hzeros : digits.reverse.takeWhile (· == '0')
      = List.replicate (digits.reverse.takeWhile (· == '0')).length '0' := by
    refine List.eq_replicate_iff.mpr ⟨rfl, fun c hc => ?_⟩
    simpa using List.all_eq_true.mp List.all_takeWhile c hc
  rw [← List.reverse_inj, List.reverse_append, List.reverse_replicate, ← hzeros, dropTrailingZeros,
    List.reverse_reverse, List.takeWhile_append_dropWhile]

end SimpleTypes
