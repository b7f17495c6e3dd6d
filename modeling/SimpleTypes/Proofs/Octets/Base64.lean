import SimpleTypes.Proofs.Octets.RoundTrip

/-!
# Which texts are base 64

Octets and the texts that are read as octets correspond one to one: a text that is read is
the only one that its octets are written in. All other texts are refused, each for the
first of four reasons that applies to it.

* `encode_decodeGroups`: groups of digits that leave no bits over are written again as they
  were.
* `IsFirstFault`: the reason for which a text is refused, in terms of its characters.
* `decode_eq_iff`: what is read, what is refused, and why.
-/

namespace SimpleTypes

namespace Base64

/-! ## The alphabet -/

/-- Whether a character is a letter, a digit, a plus sign, a slash, or padding. -/
def IsCharacter (c : Char) : Prop := c.isAlphanum = true ∨ c = '+' ∨ c = '/' ∨ c = '='

/-- The ranges of characters by their names. -/
theorem digitValue?_eq (c : Char) : digitValue? c =
    if c.isUpper then some (c.toNat - 65)
    else if c.isLower then some (c.toNat - 71)
    else if c.isDigit then some (c.toNat + 4)
    else if c = '+' then some 62
    else if c = '/' then some 63
    else none := by
  have hupper : ('A' ≤ c && c ≤ 'Z') = c.isUpper := (Bool.decide_and _ _).symm
  have hlower : ('a' ≤ c && c ≤ 'z') = c.isLower := rfl
  have hdigit : ('0' ≤ c && c ≤ '9') = c.isDigit := rfl
  rw [digitValue?, hupper, hlower, hdigit]

theorem isAllowed_iff {c : Char} : isAllowed c = true ↔ IsCharacter c := by
  have halphanum : c.isAlphanum = (c.isUpper || c.isLower || c.isDigit) := rfl
  simp only [isAllowed, digitValue?_eq, IsCharacter, halphanum]
  grind

/-- The digit for the value of a character is the character itself. -/
theorem digit_of_digitValue? {c : Char} {value : Nat} (h : digitValue? c = some value) :
    value < 64 ∧ digit value = c := by
  have hupper : c.isUpper = true → 65 ≤ c.toNat ∧ c.toNat ≤ 90 := of_decide_eq_true
  have hlower : c.isLower = true → 97 ≤ c.toNat ∧ c.toNat ≤ 122 := by
    intro h
    exact ⟨of_decide_eq_true (Bool.and_eq_true_iff.mp h).1,
      of_decide_eq_true (Bool.and_eq_true_iff.mp h).2⟩
  have hdigit : c.isDigit = true → 48 ≤ c.toNat ∧ c.toNat ≤ 57 := Char.isDigit_iff_toNat.mp
  have hofNat : Char.ofNat c.toNat = c := Char.ofNat_toNat c
  have hshift : ∀ low ≤ c.toNat, Char.ofNat (low + (c.toNat - low)) = c := by
    intro low hlow
    rw [Nat.add_sub_cancel' hlow, hofNat]
  rw [digitValue?_eq] at h
  split at h
  case isTrue hc =>
    obtain ⟨hlow, hhigh⟩ := hupper hc
    obtain rfl := Option.some.inj h
    refine ⟨by omega, ?_⟩
    rw [digit, if_pos (by omega), hshift 65 hlow]
  case isFalse =>
    split at h
    case isTrue hc =>
      obtain ⟨hlow, hhigh⟩ := hlower hc
      obtain rfl := Option.some.inj h
      refine ⟨by omega, ?_⟩
      rw [digit, if_neg (by omega), if_pos (by omega), hshift 71 (by omega)]
    case isFalse =>
      split at h
      case isTrue hc =>
        obtain ⟨hlow, hhigh⟩ := hdigit hc
        obtain rfl := Option.some.inj h
        refine ⟨by omega, ?_⟩
        rw [digit, if_neg (by omega), if_neg (by omega), if_pos (by omega), Nat.add_sub_cancel,
          hofNat]
      case isFalse =>
        split at h
        case isTrue hplus =>
          obtain rfl := Option.some.inj h
          exact ⟨by decide, hplus.symm⟩
        case isFalse =>
          simp only [Option.ite_none_right_eq_some, Option.some.injEq] at h
          obtain ⟨hslash, rfl⟩ := h
          exact ⟨by decide, hslash.symm⟩

/-- A character that may stand in an encoding is padding, or it is the digit of its value. -/
theorem digit_digitValue {c : Char} (h : IsCharacter c) (hc : c ≠ '=') :
    digitValue c < 64 ∧ digit (digitValue c) = c := by
  have hsome : (digitValue? c).isSome = true := by
    simpa [isAllowed, hc] using isAllowed_iff.mpr h
  obtain ⟨value, hvalue⟩ := Option.isSome_iff_exists.mp hsome
  rw [digitValue, hvalue]
  exact digit_of_digitValue? hvalue

/-! ## Padding -/

/-- Whether the character at a position is padding that is neither the last character nor the
last but one with padding after it. -/
def IsMisplaced (text : List Char) (position : Nat) : Prop :=
  ∃ before after, text = before ++ '=' :: after ∧ before.length = position ∧
    after ≠ [] ∧ after ≠ ['=']

theorem IsMisplaced.cons {text : List Char} {position : Nat} (h : IsMisplaced text position)
    (c : Char) : IsMisplaced (c :: text) (position + 1) := by
  obtain ⟨before, after, rfl, rfl, hne, hpad⟩ := h
  exact ⟨c :: before, after, rfl, rfl, hne, hpad⟩

theorem isMisplaced_succ {c : Char} {text : List Char} {position : Nat} :
    IsMisplaced (c :: text) (position + 1) ↔ IsMisplaced text position := by
  refine ⟨?_, fun h => h.cons c⟩
  rintro ⟨before, after, htext, hlength, hne, hpad⟩
  match before, hlength with
  | _ :: before, hlength =>
    obtain ⟨rfl, rfl⟩ := by simpa using htext
    exact ⟨before, after, rfl, by simpa using hlength, hne, hpad⟩

theorem isMisplaced_zero {c : Char} {text : List Char} :
    IsMisplaced (c :: text) 0 ↔ c = '=' ∧ text ≠ [] ∧ text ≠ ['='] := by
  constructor
  · rintro ⟨before, after, htext, hlength, hne, hpad⟩
    obtain rfl := List.eq_nil_of_length_eq_zero hlength
    obtain ⟨rfl, rfl⟩ := by simpa using htext
    exact ⟨rfl, hne, hpad⟩
  · rintro ⟨rfl, hne, hpad⟩
    exact ⟨[], text, rfl, rfl, hne, hpad⟩

/-- One character after the other is looked at, and what comes first is found. -/
theorem firstMisplaced?_cons_eq (start : Nat) (c : Char) (text : List Char) :
    firstMisplaced? start (c :: text) =
      if c = '=' ∧ text ≠ [] ∧ text ≠ ['='] then some start
      else firstMisplaced? (start + 1) text := by
  match text with
  | [] => simp [firstMisplaced?]
  | [d] => by_cases hc : c = '=' <;> by_cases hd : d = '=' <;> simp [firstMisplaced?, hc, hd]
  | d :: e :: rest => simp [firstMisplaced?]

theorem firstMisplaced?_eq_none {start : Nat} {text : List Char} :
    firstMisplaced? start text = none ↔ ∀ position, ¬IsMisplaced text position := by
  induction text generalizing start with
  | nil => simp [firstMisplaced?, IsMisplaced]
  | cons c text ih =>
    have hrest := @ih (start + 1)
    rw [firstMisplaced?_cons_eq, ← Nat.and_forall_add_one]
    simp only [isMisplaced_zero, isMisplaced_succ, ← hrest]
    split <;> simp_all

theorem firstMisplaced?_eq_some {start found : Nat} {text : List Char} :
    firstMisplaced? start text = some found ↔ ∃ position, found = start + position ∧
      IsMisplaced text position ∧ ∀ earlier < position, ¬IsMisplaced text earlier := by
  induction text generalizing start with
  | nil => simp [firstMisplaced?, IsMisplaced]
  | cons c text ih =>
    rw [firstMisplaced?_cons_eq]
    split
    case isTrue hfirst =>
      rw [← isMisplaced_zero] at hfirst
      constructor
      · intro h
        exact ⟨0, (Option.some.inj h).symm, hfirst, fun _ hlt => absurd hlt (Nat.not_lt_zero _)⟩
      · rintro ⟨position, rfl, -, hmin⟩
        rcases Nat.eq_zero_or_pos position with rfl | hpos
        · rfl
        · exact absurd hfirst (hmin 0 hpos)
    case isFalse hfirst =>
      rw [← isMisplaced_zero] at hfirst
      rw [ih]
      constructor
      · rintro ⟨position, rfl, h, hmin⟩
        refine ⟨position + 1, by omega, h.cons c, ?_⟩
        rintro (_ | earlier) hlt
        · exact hfirst
        · exact fun h => hmin earlier (by omega) (isMisplaced_succ.mp h)
      · rintro ⟨_ | position, rfl, h, hmin⟩
        · exact absurd h hfirst
        · refine ⟨position, by omega, isMisplaced_succ.mp h, fun earlier hlt h => ?_⟩
          exact hmin (earlier + 1) (by omega) (h.cons c)

/-! ## Groups -/

section

variable {a b c d : Nat}

theorem toNat_firstOctet (ha : a < 64) (hb : b < 64) : (firstOctet a b).toNat = a * 4 + b / 16 :=
  UInt8.toNat_ofNat_of_lt' (by simp only [UInt8.size]; omega)

theorem toNat_secondOctet (hc : c < 64) : (secondOctet b c).toNat = b % 16 * 16 + c / 4 :=
  UInt8.toNat_ofNat_of_lt' (by simp only [UInt8.size]; omega)

theorem toNat_thirdOctet (hd : d < 64) : (thirdOctet c d).toNat = c % 4 * 64 + d :=
  UInt8.toNat_ofNat_of_lt' (by simp only [UInt8.size]; omega)

/-- The first digit of a group is in its first octet. -/
theorem firstDigit_eq (ha : a < 64) (hb : b < 64) : (firstOctet a b).toNat / 4 = a := by
  rw [toNat_firstOctet ha hb]
  omega

/-- The second digit is shared by the first octet and the second. -/
theorem secondDigit_eq (ha : a < 64) (hb : b < 64) (hc : c < 64) :
    (firstOctet a b).toNat % 4 * 16 + (secondOctet b c).toNat / 16 = b := by
  rw [toNat_firstOctet ha hb, toNat_secondOctet hc]
  omega

/-- The third digit is shared by the second octet and the third. -/
theorem thirdDigit_eq (hc : c < 64) (hd : d < 64) :
    (secondOctet b c).toNat % 16 * 4 + (thirdOctet c d).toNat / 64 = c := by
  rw [toNat_secondOctet hc, toNat_thirdOctet hd]
  omega

theorem fourthDigit_eq (hd : d < 64) : (thirdOctet c d).toNat % 64 = d := by
  rw [toNat_thirdOctet hd]
  omega

end

/-- A character that is not among the last two, or has no padding after it, is a digit. -/
theorem digit_digitValue_of_append (before : List Char) {c : Char} {after : List Char}
    (hcharacters : ∀ d ∈ before ++ c :: after, IsCharacter d)
    (hpadding : ∀ position, ¬IsMisplaced (before ++ c :: after) position)
    (hne : after ≠ []) (hpad : after ≠ ['=']) :
    digitValue c < 64 ∧ digit (digitValue c) = c := by
  refine digit_digitValue (hcharacters c (by simp)) ?_
  rintro rfl
  exact hpadding _ ⟨before, after, rfl, rfl, hne, hpad⟩

/-- Groups of digits that leave no bits over are written again as they were. Padding can only
stand in the last group, since it is misplaced before that. -/
theorem encode_decodeGroups {text : List Char} (hcharacters : ∀ c ∈ text, IsCharacter c)
    (hlength : text.length % 4 = 0) (hpadding : ∀ position, ¬IsMisplaced text position)
    (hbits : trailingBits text = 0) : encode (decodeGroups text) = text := by
  fun_induction decodeGroups text with
  | case1 a b =>
    obtain ⟨ha, hdigitA⟩ := digit_digitValue_of_append [] hcharacters hpadding (by simp) (by simp)
    obtain ⟨hb, hdigitB⟩ := digit_digitValue_of_append [a] hcharacters hpadding (by simp) (by simp)
    have hbits : digitValue b % 16 = 0 := by simpa [trailingBits] using hbits
    have hsecond : (firstOctet (digitValue a) (digitValue b)).toNat % 4 * 16 = digitValue b := by
      rw [toNat_firstOctet ha hb]
      omega
    rw [encode, firstDigit_eq ha hb, hsecond, hdigitA, hdigitB]
  | case2 a b c hlast =>
    obtain ⟨ha, hdigitA⟩ := digit_digitValue_of_append [] hcharacters hpadding (by simp) (by simp)
    obtain ⟨hb, hdigitB⟩ := digit_digitValue_of_append [a] hcharacters hpadding (by simp) (by simp)
    obtain ⟨hc, hdigitC⟩ := digit_digitValue (hcharacters c (by simp)) hlast
    have hbits : digitValue c % 4 = 0 := by
      have hlast : c ≠ '=' := hlast
      simpa [trailingBits, hlast] using hbits
    have hthird : (secondOctet (digitValue b) (digitValue c)).toNat % 16 * 4 = digitValue c := by
      rw [toNat_secondOctet hc]
      omega
    rw [encode, firstDigit_eq ha hb, secondDigit_eq ha hb hc, hthird, hdigitA, hdigitB, hdigitC]
  | case3 a b c d rest htwo hone ih =>
    have hrestLength : rest.length % 4 = 0 := by
      simp only [List.length_cons] at hlength
      omega
    have hlast : d ≠ '=' := by
      rintro rfl
      refine hpadding 3 ⟨[a, b, c], rest, rfl, rfl, hone rfl, ?_⟩
      rintro rfl
      cases hrestLength
    have hthird : c ≠ '=' := by
      rintro rfl
      exact hpadding 2 ⟨[a, b], d :: rest, rfl, rfl, by simp, by simp [hlast]⟩
    obtain ⟨ha, hdigitA⟩ := digit_digitValue_of_append [] hcharacters hpadding (by simp) (by simp)
    obtain ⟨hb, hdigitB⟩ := digit_digitValue_of_append [a] hcharacters hpadding (by simp) (by simp)
    obtain ⟨hc, hdigitC⟩ := digit_digitValue (hcharacters c (by simp)) hthird
    obtain ⟨hd, hdigitD⟩ := digit_digitValue (hcharacters d (by simp)) hlast
    have hrestBits : trailingBits rest = 0 := by
      rcases Nat.lt_or_ge rest.length 3 with hshort | hlong
      · obtain rfl : rest = [] := List.eq_nil_of_length_eq_zero (by omega)
        rfl
      · exact (trailingBits_append [a, b, c, d] hlong).symm.trans hbits
    have hrest : encode (decodeGroups rest) = rest :=
      ih (fun e he => hcharacters e (by simp [he])) hrestLength
        (fun position h => hpadding _ ((((h.cons d).cons c).cons b).cons a)) hrestBits
    rw [encode, firstDigit_eq ha hb, secondDigit_eq ha hb hc, thirdDigit_eq hc hd,
      fourthDigit_eq hd, hdigitA, hdigitB, hdigitC, hdigitD, hrest]
  | case4 rest htwo hone hfour =>
    rcases rest with _ | ⟨a, _ | ⟨b, _ | ⟨c, _ | ⟨d, rest⟩⟩⟩⟩
    · rfl
    · cases hlength
    · cases hlength
    · cases hlength
    · exact (hfour a b c d rest rfl).elim

/-! ## Faults -/

/-- The reason for which a text is refused: the first of four that applies to it. -/
inductive IsFirstFault (text : List Char) : OctetFault → Prop
  | invalidCharacter {c : Char} {before after : List Char} :
      text = before ++ c :: after → ¬IsCharacter c → (∀ d ∈ before, IsCharacter d) →
      IsFirstFault text (.invalidCharacter c before.length)
  | invalidLength :
      (∀ c ∈ text, IsCharacter c) → ¬4 ∣ text.length →
      IsFirstFault text (.invalidLength text.length)
  | misplacedPadding {position : Nat} :
      (∀ c ∈ text, IsCharacter c) → 4 ∣ text.length →
      IsMisplaced text position → (∀ earlier < position, ¬IsMisplaced text earlier) →
      IsFirstFault text (.misplacedPadding position)
  | trailingBits :
      (∀ c ∈ text, IsCharacter c) → 4 ∣ text.length → (∀ position, ¬IsMisplaced text position) →
      IsFirstFault text .trailingBits

theorem firstForeign?_eq_none {text : List Char} :
    firstForeign? text = none ↔ ∀ c ∈ text, IsCharacter c := by
  simp only [← isAllowed_iff]
  exact find?_zipIdx_eq_none (p := isAllowed)

theorem firstForeign?_eq_some {text : List Char} {c : Char} {position : Nat} :
    firstForeign? text = some (c, position) ↔ ∃ before after, text = before ++ c :: after ∧
      before.length = position ∧ ¬IsCharacter c ∧ ∀ d ∈ before, IsCharacter d := by
  simp only [← isAllowed_iff, Bool.not_eq_true]
  exact find?_zipIdx_eq_some (p := isAllowed)

variable {text : List Char} {octets : List UInt8} {fault : OctetFault}

/-- A text that is refused has no fault that comes before the one that is named. -/
theorem isFirstFault_of_decode (h : decode text = .error fault) : IsFirstFault text fault := by
  unfold decode at h
  split at h
  case h_1 c position hforeign =>
    obtain ⟨before, after, htext, rfl, hc, hbefore⟩ := firstForeign?_eq_some.mp hforeign
    cases h
    exact .invalidCharacter htext hc hbefore
  case h_2 hforeign =>
    have hcharacters := firstForeign?_eq_none.mp hforeign
    split at h
    case isTrue hlength =>
      cases h
      exact .invalidLength hcharacters (by omega)
    case isFalse hlength =>
      have hlength : 4 ∣ text.length := by omega
      split at h
      case h_1 position hmisplaced =>
        obtain ⟨_, rfl, hposition, hfirst⟩ := firstMisplaced?_eq_some.mp hmisplaced
        cases h
        rw [Nat.zero_add]
        exact .misplacedPadding hcharacters hlength hposition hfirst
      case h_2 hplaced =>
        split at h
        case isTrue => cases h
        case isFalse =>
          cases h
          exact .trailingBits hcharacters hlength (firstMisplaced?_eq_none.mp hplaced)

/-- A text with a fault is refused for it, unless only the bits that are left over could be the
fault, and there are none. -/
theorem IsFirstFault.decode (h : IsFirstFault text fault) :
    decode text = .error fault ∨ decode text = .ok (decodeGroups text) := by
  unfold Base64.decode
  cases h with
  | invalidCharacter htext hc hbefore =>
    rw [firstForeign?_eq_some.mpr ⟨_, _, htext, rfl, hc, hbefore⟩]
    exact .inl rfl
  | invalidLength hcharacters hlength =>
    rw [firstForeign?_eq_none.mpr hcharacters]
    exact .inl (if_pos (by omega))
  | misplacedPadding hcharacters hlength hposition hfirst =>
    have hmisplaced := firstMisplaced?_eq_some.mpr ⟨_, (Nat.zero_add _).symm, hposition, hfirst⟩
    rw [firstForeign?_eq_none.mpr hcharacters, hmisplaced]
    exact .inl (if_neg (by omega))
  | trailingBits hcharacters hlength hplaced =>
    rw [firstForeign?_eq_none.mpr hcharacters, firstMisplaced?_eq_none.mpr hplaced]
    dsimp only
    rw [if_neg (by omega)]
    split
    · exact .inr rfl
    · exact .inl rfl

/-- A text that is read is the one in which its octets are written. -/
theorem encode_of_decode (h : decode text = .ok octets) : encode octets = text := by
  unfold decode at h
  split at h
  case h_1 => cases h
  case h_2 hforeign =>
    split at h
    case isTrue => cases h
    case isFalse hlength =>
      split at h
      case h_1 => cases h
      case h_2 hplaced =>
        split at h
        case isTrue hbits =>
          cases h
          exact encode_decodeGroups (firstForeign?_eq_none.mp hforeign) (by omega)
            (firstMisplaced?_eq_none.mp hplaced) hbits
        case isFalse => cases h

/-- Octets and the texts that are read correspond one to one, and a text in which no octets
are written is refused for its first fault. -/
theorem decode_eq_iff (text : List Char) :
    (∀ octets, decode text = .ok octets ↔ encode octets = text) ∧
    ∀ fault, decode text = .error fault ↔
      (∀ octets, encode octets ≠ text) ∧ IsFirstFault text fault := by
  have hok : ∀ octets, decode text = .ok octets ↔ encode octets = text := by
    refine fun octets => ⟨encode_of_decode, ?_⟩
    rintro rfl
    exact decode_encode octets
  refine ⟨hok, fun fault => ⟨fun h => ⟨fun octets hwritten => ?_, isFirstFault_of_decode h⟩, ?_⟩⟩
  · rw [(hok octets).mpr hwritten] at h
    cases h
  · rintro ⟨hnone, hfault⟩
    rcases hfault.decode with hrefused | hread
    · exact hrefused
    · exact absurd (encode_of_decode hread) (hnone _)

end Base64

end SimpleTypes
