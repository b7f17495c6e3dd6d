import SimpleTypes.Proofs.Octets.RoundTrip

/-!
# Which texts are hexadecimal

A text is read as octets if its characters, blanks apart, are an even number of hexadecimal
digits. The octets are written in the same digits in upper case. Every other text is
refused for its first foreign character, or else for its odd number of digits.

* `Progress.HasRead`: what is known in the middle of a text, in terms of the part that was
  read. Each character that is taken keeps it (`Progress.HasRead.push`), and so does any
  number of them (`Progress.HasRead.foldlM`).
* `IsFirstFault`: the reason for which a text is refused, in terms of its characters.
* `decode_upperCase`: what is read, what is refused, and why.
-/

namespace SimpleTypes.Hex

/-! ## Digits -/

/-- Whether a character is a decimal digit, or one of the first six letters in either case. -/
def IsDigit (c : Char) : Prop :=
  ('0' ≤ c ∧ c ≤ '9') ∨ ('A' ≤ c ∧ c ≤ 'F') ∨ ('a' ≤ c ∧ c ≤ 'f')

/-- The characters of a text that are no blanks. -/
def withoutBlanks (text : List Char) : List Char := text.filter (!isBlank ·)

variable {c : Char} {value : Nat}

theorem digitValue?_isSome : (digitValue? c).isSome = true ↔ IsDigit c := by
  simp only [digitValue?, IsDigit, Bool.and_eq_true, decide_eq_true_eq]
  split <;> rename_i h
  · simp [h]
  · split <;> rename_i h'
    · simp [h']
    · split <;> rename_i h'' <;> simp [h, h', h'']

/-- A digit stands for a value below sixteen, and is that of the value but for its case. -/
theorem digit_of_digitValue? (h : digitValue? c = some value) :
    value < 16 ∧ digit value = c.toUpper ∧ isBlank c = false := by
  have hall : ∀ n < 128, ∀ value ∈ digitValue? (Char.ofNat n), value < 16 ∧
      digit value = (Char.ofNat n).toUpper ∧ isBlank (Char.ofNat n) = false := by
    decide
  have hbound : c.toNat < 128 := by
    rcases digitValue?_isSome.mp (Option.isSome_of_eq_some h) with hc | hc | hc
    · exact Nat.lt_of_le_of_lt (UInt32.le_iff_toNat_le.mp hc.2) (by decide)
    · exact Nat.lt_of_le_of_lt (UInt32.le_iff_toNat_le.mp hc.2) (by decide)
    · exact Nat.lt_of_le_of_lt (UInt32.le_iff_toNat_le.mp hc.2) (by decide)
  have hc := hall c.toNat hbound value
  rw [Char.ofNat_toNat] at hc
  exact hc h

theorem withoutBlanks_append (before after : List Char) :
    withoutBlanks (before ++ after) = withoutBlanks before ++ withoutBlanks after :=
  List.filter_append before after

theorem withoutBlanks_of_blankFree {text : List Char} (h : BlankFree text) :
    withoutBlanks text = text := by
  refine List.filter_eq_self.mpr ?_
  intro c hc
  simp [h c hc]

/-! ## Octets as digits -/

theorem length_encode (octets : List UInt8) : (encode octets).length = 2 * octets.length := by
  simp [encode, encodeOctet, Nat.mul_comm]

/-- The octet of two values is written in their digits. -/
theorem encodeOctet_ofNat {high low : Nat} (hhigh : high < 16) (hlow : low < 16) :
    encodeOctet (UInt8.ofNat (high * 16 + low)) = [digit high, digit low] := by
  have hnat : (UInt8.ofNat (high * 16 + low)).toNat = high * 16 + low :=
    UInt8.toNat_ofNat_of_lt' (by rw [UInt8.size]; omega)
  rw [encodeOctet, hnat, show (high * 16 + low) / 16 = high by omega,
    show (high * 16 + low) % 16 = low by omega]

/-! ## Reading -/

/-- What is known of a text up to some place, in terms of the part that was read: it has
digits and blanks only, and what the octets and the pending digit are written in are its
digits in upper case. -/
structure Progress.HasRead (progress : Progress) (read : List Char) : Prop where
  isDigit : ∀ c ∈ withoutBlanks read, IsDigit c
  digits : progress.digits = (withoutBlanks read).length
  pending : ∀ value ∈ progress.pending, value < 16
  written : encode progress.octets.reverse ++ progress.pending.toList.map digit
    = (withoutBlanks read).map Char.toUpper

namespace Progress

variable {progress : Progress} {read : List Char}

theorem hasRead_nil : HasRead {} [] := by
  refine ⟨?_, rfl, ?_, rfl⟩
  · rintro _ ⟨⟩
  · rintro _ ⟨⟩

/-- A blank changes nothing, even between the two digits of an octet. -/
theorem HasRead.blank (h : progress.HasRead read) (hc : isBlank c = true) :
    progress.HasRead (read ++ [c]) := by
  have hsame : withoutBlanks (read ++ [c]) = withoutBlanks read := by
    rw [withoutBlanks_append]
    simp [withoutBlanks, hc]
  exact ⟨hsame ▸ h.isDigit, hsame ▸ h.digits, h.pending, hsame ▸ h.written⟩

/-- A digit becomes the pending one, or completes the octet of the pending one. -/
theorem HasRead.push (h : progress.HasRead read) (hc : digitValue? c = some value) :
    (progress.push value).HasRead (read ++ [c]) := by
  obtain ⟨hvalue, hdigit, hblank⟩ := digit_of_digitValue? hc
  have hmore : withoutBlanks (read ++ [c]) = withoutBlanks read ++ [c] := by
    rw [withoutBlanks_append]
    simp [withoutBlanks, hblank]
  have hisDigit : ∀ d ∈ withoutBlanks (read ++ [c]), IsDigit d := by
    rw [hmore, List.forall_mem_append, List.forall_mem_singleton]
    exact ⟨h.isDigit, digitValue?_isSome.mp (Option.isSome_of_eq_some hc)⟩
  have hcount : progress.digits + 1 = (withoutBlanks (read ++ [c])).length := by
    rw [hmore, List.length_append, List.length_singleton, h.digits]
  have hwritten := h.written
  cases hpending : progress.pending with
  | none =>
    rw [hpending] at hwritten
    simp only [Progress.push, hpending]
    refine ⟨hisDigit, hcount, ?_, ?_⟩
    · rintro _ ⟨⟩
      exact hvalue
    · rw [hmore, List.map_append, ← hwritten]
      simp [hdigit]
  | some high =>
    have hhigh := h.pending high hpending
    rw [hpending] at hwritten
    simp only [Progress.push, hpending]
    refine ⟨hisDigit, hcount, ?_, ?_⟩
    · rintro _ ⟨⟩
    · calc
        encode (UInt8.ofNat (high * 16 + value) :: progress.octets).reverse ++ []
          = encode progress.octets.reverse ++ encodeOctet (UInt8.ofNat (high * 16 + value)) := by
            simp [encode]
        _ = encode progress.octets.reverse ++ [digit high] ++ [digit value] := by
            rw [encodeOctet_ofNat hhigh hvalue, List.append_assoc, List.singleton_append]
        _ = (withoutBlanks (read ++ [c])).map Char.toUpper := by
            rw [hmore, List.map_append, ← hwritten, hdigit]
            rfl

/-- Any number of digits and blanks is taken. The induction is on what is left of the text,
and the part that was read grows by one character. -/
theorem HasRead.foldlM (h : progress.HasRead read) {rest : List Char}
    (hrest : ∀ c ∈ withoutBlanks rest, IsDigit c) (position : Nat) :
    ∃ last, (rest.zipIdx position).foldlM step progress = .ok last ∧
      last.HasRead (read ++ rest) := by
  induction rest generalizing progress read position with
  | nil => exact ⟨progress, rfl, by rwa [List.append_nil]⟩
  | cons c rest ih =>
    rw [withoutBlanks, List.filter_cons] at hrest
    obtain ⟨next, hnext, hread⟩ : ∃ next, step progress (c, position) = .ok next ∧
        next.HasRead (read ++ [c]) := by
      by_cases hblank : isBlank c = true
      · exact ⟨progress, by simp [step, hblank], h.blank hblank⟩
      · have hdigit : IsDigit c := by
          simp only [hblank] at hrest
          exact hrest c List.mem_cons_self
        obtain ⟨value, hvalue⟩ := Option.isSome_iff_exists.mp (digitValue?_isSome.mpr hdigit)
        exact ⟨progress.push value, by simp [step, hblank, hvalue], h.push hvalue⟩
    have hleft : ∀ d ∈ withoutBlanks rest, IsDigit d := by
      intro d hd
      refine hrest d ?_
      split
      · exact List.mem_cons_of_mem _ hd
      · exact hd
    obtain ⟨last, hlast, hread'⟩ := ih hread hleft (position + 1)
    refine ⟨last, ?_, by simpa using hread'⟩
    rw [List.zipIdx_cons, List.foldlM_cons, hnext]
    exact hlast

theorem step_foreign (progress : Progress) (hblank : isBlank c = false) (hc : ¬IsDigit c)
    (position : Nat) : progress.step (c, position) = .error (.invalidCharacter c position) := by
  have hvalue : digitValue? c = none := by
    simpa using mt digitValue?_isSome.mp hc
  simp [step, hblank, hvalue]

end Progress

/-! ## Texts -/

variable {text : List Char} {octets : List UInt8} {fault : OctetFault}

/-- Of a text with digits and blanks only the number of digits decides. -/
theorem decode_of_isDigit (h : ∀ c ∈ withoutBlanks text, IsDigit c) :
    (∃ octets, decode text = .ok octets ∧ 2 ∣ (withoutBlanks text).length ∧
        encode octets = (withoutBlanks text).map Char.toUpper) ∨
      decode text = .error (.invalidLength (withoutBlanks text).length) ∧
        ¬2 ∣ (withoutBlanks text).length := by
  obtain ⟨last, hlast, hread⟩ := Progress.hasRead_nil.foldlM h 0
  rw [List.nil_append] at hread
  have hdecode : decode text = last.finish := by rw [decode, hlast]; rfl
  have hlength := congrArg List.length hread.written
  have hwritten := hread.written
  rw [List.length_append, length_encode, List.length_map, List.length_map] at hlength
  cases hpending : last.pending with
  | none =>
    rw [hpending] at hlength hwritten
    rw [Option.toList_none, List.map_nil, List.append_nil] at hwritten
    refine .inl ⟨last.octets.reverse, ?_, ⟨last.octets.reverse.length, hlength.symm⟩, hwritten⟩
    rw [hdecode, Progress.finish, hpending]
  | some high =>
    rw [hpending] at hlength
    refine .inr ⟨?_, ?_⟩
    · rw [hdecode, Progress.finish, hpending, ← hread.digits]
    · simp only [Option.toList_some, List.length_singleton] at hlength
      omega

/-- The reason for which a text is refused. A foreign character counts before an odd number
of digits. -/
inductive IsFirstFault (text : List Char) : OctetFault → Prop
  | invalidCharacter {c : Char} {before after : List Char} :
      text = before ++ c :: after → isBlank c = false → ¬IsDigit c →
      (∀ d ∈ withoutBlanks before, IsDigit d) →
      IsFirstFault text (.invalidCharacter c before.length)
  | invalidLength :
      (∀ c ∈ withoutBlanks text, IsDigit c) → ¬2 ∣ (withoutBlanks text).length →
      IsFirstFault text (.invalidLength (withoutBlanks text).length)

theorem IsFirstFault.decode_eq (h : IsFirstFault text fault) : decode text = .error fault := by
  cases h with
  | @invalidCharacter c before after htext hblank hc hbefore =>
    obtain ⟨last, hlast, -⟩ := Progress.hasRead_nil.foldlM hbefore 0
    rw [decode, htext, List.zipIdx_append, List.foldlM_append, hlast, List.zipIdx_cons]
    rw [Nat.zero_add]
    simp only [bind, Except.bind, List.foldlM_cons, last.step_foreign hblank hc]
  | invalidLength hdigits hodd =>
    rcases decode_of_isDigit hdigits with ⟨octets, -, heven, -⟩ | ⟨hrefused, -⟩
    · exact absurd heven hodd
    · exact hrefused

/-- A text without a fault is read. -/
theorem decode_or_isFirstFault (text : List Char) :
    (∃ octets, decode text = .ok octets ∧ (∀ c ∈ withoutBlanks text, IsDigit c) ∧
        2 ∣ (withoutBlanks text).length ∧ encode octets = (withoutBlanks text).map Char.toUpper) ∨
      ∃ fault, IsFirstFault text fault := by
  cases hforeign : text.find? (fun c => !isBlank c && (digitValue? c).isNone) with
  | some c =>
    obtain ⟨hc, before, after, rfl, hbefore⟩ := List.find?_eq_some_iff_append.mp hforeign
    simp only [Bool.and_eq_true, Bool.not_eq_true', Option.isNone_iff_eq_none] at hc
    refine .inr ⟨_, .invalidCharacter rfl hc.1 ?_ ?_⟩
    · rw [← digitValue?_isSome, hc.2]
      simp
    · intro d hd
      obtain ⟨hmem, hblank⟩ := List.mem_filter.mp hd
      have := hbefore d hmem
      rw [← digitValue?_isSome]
      simpa [hblank, Option.isSome_iff_ne_none] using this
  | none =>
    have hdigits : ∀ c ∈ withoutBlanks text, IsDigit c := by
      intro c hc
      obtain ⟨hmem, hblank⟩ := List.mem_filter.mp hc
      have := List.find?_eq_none.mp hforeign c hmem
      rw [← digitValue?_isSome]
      simpa [hblank, Option.isSome_iff_ne_none] using this
    rcases decode_of_isDigit hdigits with ⟨octets, hread, heven, hwritten⟩ | ⟨-, hodd⟩
    · exact .inl ⟨octets, hread, hdigits, heven, hwritten⟩
    · exact .inr ⟨_, .invalidLength hdigits hodd⟩

/-- What is known of a text that is read. -/
theorem decode_eq_ok (h : decode text = .ok octets) :
    (∀ c ∈ withoutBlanks text, IsDigit c) ∧ 2 ∣ (withoutBlanks text).length ∧
      encode octets = (withoutBlanks text).map Char.toUpper := by
  rcases decode_or_isFirstFault text with ⟨octets', hread, hknown⟩ | ⟨fault, hfault⟩
  · rw [h] at hread
    cases hread
    exact hknown
  · rw [hfault.decode_eq] at h
    cases h

/-- If a word stands for octets, they are written in a word. -/
theorem isWord_encode (hword : IsWord text) (h : decode text = .ok octets) :
    IsWord (encode octets) := by
  refine ⟨?_, blankFree_encode octets⟩
  rw [(decode_eq_ok h).2.2, withoutBlanks_of_blankFree hword.2]
  exact mt List.map_eq_nil_iff.mp hword.1

/-- Octets that are written in digits are read back. A text is read if its characters, blanks
apart, are an even number of digits, and the octets are written in the same digits in upper
case. Every other text is refused for its first fault. -/
theorem decode_upperCase (text : List Char) :
    (∀ octets, decode (encode octets) = .ok octets) ∧
    ((∃ octets, decode text = .ok octets) ↔
      (∀ c ∈ withoutBlanks text, IsDigit c) ∧ 2 ∣ (withoutBlanks text).length) ∧
    (∀ octets, decode text = .ok octets →
      encode octets = (withoutBlanks text).map Char.toUpper) ∧
    ∀ fault, decode text = .error fault ↔ IsFirstFault text fault := by
  refine ⟨decode_encode, ⟨?_, ?_⟩, fun octets h => (decode_eq_ok h).2.2, fun fault =>
    ⟨fun h => ?_, IsFirstFault.decode_eq⟩⟩
  · rintro ⟨octets, h⟩
    exact ⟨(decode_eq_ok h).1, (decode_eq_ok h).2.1⟩
  · rintro ⟨hdigits, heven⟩
    rcases decode_of_isDigit hdigits with ⟨octets, hread, -⟩ | ⟨-, hodd⟩
    · exact ⟨octets, hread⟩
    · exact absurd heven hodd
  · rcases decode_or_isFirstFault text with ⟨octets, hread, -⟩ | ⟨first, hfirst⟩
    · rw [hread] at h
      cases h
    · rw [hfirst.decode_eq] at h
      cases h
      exact hfirst

/-- Blanks stand between the two digits of an octet. -/
theorem decode_upperCase_splitPair :
    decode "0f b\t7".toList = .ok [0x0F, 0xB7] ∧
      encode [0x0F, 0xB7] = (withoutBlanks "0f b\t7".toList).map Char.toUpper := by
  have hread : decode "0f b\t7".toList = .ok [0x0F, 0xB7] := by decide
  obtain ⟨-, -, hwritten, -⟩ := decode_upperCase "0f b\t7".toList
  exact ⟨hread, hwritten _ hread⟩

end SimpleTypes.Hex
