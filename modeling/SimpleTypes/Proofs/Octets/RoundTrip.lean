import SimpleTypes.Octets.Base64
import SimpleTypes.Octets.Hex
import SimpleTypes.Proofs.Outcome
import SimpleTypes.Proofs.Text.Words

/-!
# Octets and back

Octets that are written, in hexadecimal digits or in base 64, are read back.

* `Hex.decode_encode` and `Base64.decode_encode`: the two round trips.
* `Base64.isWord_encode`: if a word stands for octets, they are written in a word
  again.
-/

namespace SimpleTypes

theorem find?_zipIdx_eq_none {text : List Char} {p : Char → Bool} :
    text.zipIdx.find? (fun (c, _) => !p c) = none ↔ ∀ c ∈ text, p c = true := by
  rw [List.find?_eq_none]
  constructor
  · intro h c hc
    obtain ⟨i, hi⟩ := List.mem_iff_getElem?.mp hc
    simpa using h (c, i) (List.mem_zipIdx_iff_getElem?.mpr hi)
  · rintro h ⟨c, i⟩ hmem
    simpa using h c (List.fst_mem_of_mem_zipIdx hmem)

/-- The first character of a text without a property, and its position. -/
theorem find?_zipIdx_eq_some {text : List Char} {p : Char → Bool} {c : Char} {position : Nat} :
    text.zipIdx.find? (fun (c, _) => !p c) = some (c, position) ↔
      ∃ before after, text = before ++ c :: after ∧ before.length = position ∧ p c = false ∧
        ∀ d ∈ before, p d = true := by
  rw [List.find?_eq_some_iff_append]
  constructor
  · rintro ⟨hc, passed, left, hsplit, hall⟩
    obtain ⟨before, tail, rfl, rfl, htail⟩ := List.zipIdx_eq_append_iff.mp hsplit
    obtain ⟨_, after, rfl, heq, -⟩ := List.zipIdx_eq_cons_iff.mp htail.symm
    cases heq
    refine ⟨before, after, rfl, (Nat.zero_add _).symm, by simpa using hc, fun d hd => ?_⟩
    rw [← List.zipIdx_map_fst 0 before, List.mem_map] at hd
    obtain ⟨pair, hmem, rfl⟩ := hd
    simpa using hall pair hmem
  · rintro ⟨before, after, rfl, rfl, hc, hall⟩
    refine ⟨by simp [hc], before.zipIdx, after.zipIdx (before.length + 1), ?_, ?_⟩
    · rw [List.zipIdx_append, List.zipIdx_cons, Nat.zero_add]
    · rintro ⟨d, i⟩ hmem
      simpa using hall d (List.fst_mem_of_mem_zipIdx hmem)

/-! ## Hexadecimal digits -/

namespace Hex

/-- A digit that is written for a value has that value, and is no blank. -/
theorem digitValue?_digit {value : Nat} (h : value < 16) :
    digitValue? (digit value) = some value ∧ isBlank (digit value) = false := by
  have : ∀ value < 16, digitValue? (digit value) = some value ∧ isBlank (digit value) = false := by
    decide
  exact this value h

theorem octet_bounds (octet : UInt8) : octet.toNat / 16 < 16 ∧ octet.toNat % 16 < 16 := by
  have := octet.toNat_lt
  omega

/-- Every character of an encoding is the digit of a value. -/
theorem exists_digit_of_mem_encode {octets : List UInt8} {c : Char} (h : c ∈ encode octets) :
    ∃ value < 16, c = digit value := by
  obtain ⟨octet, -, hc⟩ := List.mem_flatMap.mp h
  obtain ⟨hhigh, hlow⟩ := octet_bounds octet
  rcases List.mem_cons.mp hc with rfl | hc
  · exact ⟨_, hhigh, rfl⟩
  · obtain rfl : c = digit (octet.toNat % 16) := by simpa using hc
    exact ⟨_, hlow, rfl⟩

theorem blankFree_encode (octets : List UInt8) : BlankFree (encode octets) := by
  intro c hc
  obtain ⟨value, hvalue, rfl⟩ := exists_digit_of_mem_encode hc
  exact (digitValue?_digit hvalue).2

/-- A digit that is written for a value is taken for it. -/
theorem Progress.step_digit (progress : Progress) {value : Nat} (h : value < 16)
    (position : Nat) : progress.step (digit value, position) = .ok (progress.push value) := by
  obtain ⟨hvalue, hblank⟩ := digitValue?_digit h
  simp only [step, hblank, hvalue, Bool.false_eq_true, if_false]

/-- The two digits of an octet complete it. -/
theorem Progress.push_octet (octet : UInt8) (octets : List UInt8) (digits : Nat) :
    (push (push ⟨octets, none, digits⟩ (octet.toNat / 16)) (octet.toNat % 16))
      = ⟨octet :: octets, none, digits + 2⟩ := by
  simp only [push]
  rw [show octet.toNat / 16 * 16 + octet.toNat % 16 = octet.toNat by omega, UInt8.ofNat_toNat]

/-- Reading what was written for octets adds them to those that are complete. -/
theorem foldlM_step_encode (octets before : List UInt8) (digits position : Nat) :
    ((encode octets).zipIdx position).foldlM Progress.step ⟨before, none, digits⟩
      = .ok ⟨octets.reverse ++ before, none, digits + 2 * octets.length⟩ := by
  induction octets generalizing before digits position with
  | nil => rfl
  | cons octet rest ih =>
    obtain ⟨hhigh, hlow⟩ := octet_bounds octet
    calc
      ((encode (octet :: rest)).zipIdx position).foldlM Progress.step ⟨before, none, digits⟩
        = ((encode rest).zipIdx (position + 1 + 1)).foldlM Progress.step
            ⟨octet :: before, none, digits + 2⟩ := by
          simp only [encode, encodeOctet, List.flatMap_cons, List.cons_append, List.nil_append,
            List.zipIdx_cons, List.foldlM_cons, Progress.step_digit _ hhigh,
            Progress.step_digit _ hlow, ← Progress.push_octet octet before digits]
          rfl
      _ = .ok ⟨rest.reverse ++ octet :: before, none, digits + 2 + 2 * rest.length⟩ := ih _ _ _
      _ = .ok ⟨(octet :: rest).reverse ++ before, none, digits + 2 * (octet :: rest).length⟩ := by
          rw [List.reverse_cons, List.append_assoc, List.singleton_append, List.length_cons,
            show digits + 2 + 2 * rest.length = digits + 2 * (rest.length + 1) by omega]

/-- Octets that are written in digits are read back. -/
theorem decode_encode (octets : List UInt8) : decode (encode octets) = .ok octets := by
  refine bind_eq_ok.mpr ⟨_, foldlM_step_encode octets [] 0 0, ?_⟩
  rw [Progress.finish, List.append_nil, List.reverse_reverse]

end Hex

/-! ## Base 64 -/

namespace Base64

/-- A character that is written for a value has that value. It is no padding and
no blank. -/
theorem digit_props {value : Nat} (h : value < 64) :
    digitValue? (digit value) = some value ∧ digit value ≠ '=' ∧ isBlank (digit value) = false := by
  have : ∀ value < 64, digitValue? (digit value) = some value ∧ digit value ≠ '=' ∧
      isBlank (digit value) = false := by
    decide
  exact this value h

theorem digitValue_digit {value : Nat} (h : value < 64) : digitValue (digit value) = value := by
  rw [digitValue, (digit_props h).1]
  rfl

/-- Every character of an encoding is padding or stands for a value. -/
theorem exists_digit_of_mem_encode {octets : List UInt8} {c : Char} (h : c ∈ encode octets) :
    c = '=' ∨ ∃ value < 64, c = digit value := by
  induction octets using encode.induct with
  | case1 => cases h
  | case2 x =>
    have := x.toNat_lt
    simp only [encode, List.mem_cons, List.not_mem_nil, or_false] at h
    rcases h with rfl | rfl | rfl | rfl
    · exact .inr ⟨_, by omega, rfl⟩
    · exact .inr ⟨_, by omega, rfl⟩
    · exact .inl rfl
    · exact .inl rfl
  | case3 x y =>
    have := x.toNat_lt
    have := y.toNat_lt
    simp only [encode, List.mem_cons, List.not_mem_nil, or_false] at h
    rcases h with rfl | rfl | rfl | rfl
    · exact .inr ⟨_, by omega, rfl⟩
    · exact .inr ⟨_, by omega, rfl⟩
    · exact .inr ⟨_, by omega, rfl⟩
    · exact .inl rfl
  | case4 x y z rest ih =>
    have := x.toNat_lt
    have := y.toNat_lt
    have := z.toNat_lt
    simp only [encode, List.mem_cons] at h
    rcases h with rfl | rfl | rfl | rfl | h
    · exact .inr ⟨_, by omega, rfl⟩
    · exact .inr ⟨_, by omega, rfl⟩
    · exact .inr ⟨_, by omega, rfl⟩
    · exact .inr ⟨_, by omega, rfl⟩
    · exact ih h

theorem blankFree_encode (octets : List UInt8) : BlankFree (encode octets) := by
  intro c hc
  rcases exists_digit_of_mem_encode hc with rfl | ⟨value, hvalue, rfl⟩
  · rfl
  · exact (digit_props hvalue).2.2

theorem firstForeign?_encode (octets : List UInt8) : firstForeign? (encode octets) = none := by
  refine find?_zipIdx_eq_none.mpr ?_
  intro c hc
  rcases exists_digit_of_mem_encode hc with rfl | ⟨value, hvalue, rfl⟩
  · rfl
  · simp [isAllowed, (digit_props hvalue).1]

theorem length_encode (octets : List UInt8) : (encode octets).length % 4 = 0 := by
  induction octets using encode.induct with
  | case1 => rfl
  | case2 | case3 => simp [encode]
  | case4 x y z rest ih =>
    simp only [encode, List.length_cons]
    omega

/-! ### Padding -/

/-- Before a character that is no padding nothing is misplaced that is not
misplaced after it. -/
theorem firstMisplaced?_cons {c : Char} {rest : List Char} (hc : c ≠ '=')
    (h : ∀ position, firstMisplaced? position rest = none) (position : Nat) :
    firstMisplaced? position (c :: rest) = none := by
  match rest, h with
  | [], _ => rfl
  | [d], _ => simp [firstMisplaced?, hc]
  | d :: e :: rest, h =>
    simp only [firstMisplaced?, beq_iff_eq, hc, if_false]
    exact h (position + 1)

theorem firstMisplaced?_encode (octets : List UInt8) (position : Nat) :
    firstMisplaced? position (encode octets) = none := by
  induction octets using encode.induct generalizing position with
  | case1 => rfl
  | case2 x =>
    have := x.toNat_lt
    refine firstMisplaced?_cons (digit_props (by omega)).2.1 (fun position => ?_) position
    refine firstMisplaced?_cons (digit_props (by omega)).2.1 (fun position => ?_) position
    rfl
  | case3 x y =>
    have := x.toNat_lt
    have := y.toNat_lt
    refine firstMisplaced?_cons (digit_props (by omega)).2.1 (fun position => ?_) position
    refine firstMisplaced?_cons (digit_props (by omega)).2.1 (fun position => ?_) position
    refine firstMisplaced?_cons (digit_props (by omega)).2.1 (fun position => ?_) position
    rfl
  | case4 x y z rest ih =>
    have := x.toNat_lt
    have := y.toNat_lt
    have := z.toNat_lt
    refine firstMisplaced?_cons (digit_props (by omega)).2.1 (fun position => ?_) position
    refine firstMisplaced?_cons (digit_props (by omega)).2.1 (fun position => ?_) position
    refine firstMisplaced?_cons (digit_props (by omega)).2.1 (fun position => ?_) position
    exact firstMisplaced?_cons (digit_props (by omega)).2.1 ih position

/-- Only the last three characters decide about bits that are left over. -/
theorem trailingBits_append (front : List Char) {back : List Char} (h : 3 ≤ back.length) :
    trailingBits (front ++ back) = trailingBits back := by
  match hrev : back.reverse with
  | a :: b :: c :: tail =>
    simp only [trailingBits, List.reverse_append, hrev, List.cons_append]
    by_cases ha : a = '='
    · by_cases hb : b = '='
      · simp [ha, hb]
      · simp [ha, hb]
    · simp [ha]
  | [] | [_] | [_, _] =>
    have hlength := congrArg List.length hrev
    rw [List.length_reverse] at hlength
    simp only [List.length_cons, List.length_nil] at hlength
    omega

theorem trailingBits_encode (octets : List UInt8) : trailingBits (encode octets) = 0 := by
  induction octets using encode.induct with
  | case1 => rfl
  | case2 x =>
    have hx := x.toNat_lt
    have hvalue : digitValue (digit (x.toNat % 4 * 16)) = x.toNat % 4 * 16 :=
      digitValue_digit (by omega)
    simp [encode, trailingBits, hvalue]
  | case3 x y =>
    have hy := y.toNat_lt
    have hdigit : digit (y.toNat % 16 * 4) ≠ '=' := (digit_props (by omega)).2.1
    have hvalue : digitValue (digit (y.toNat % 16 * 4)) = y.toNat % 16 * 4 :=
      digitValue_digit (by omega)
    simp [encode, trailingBits, hdigit, hvalue]
  | case4 x y z rest ih =>
    have hz := z.toNat_lt
    have hdigit : digit (z.toNat % 64) ≠ '=' := (digit_props (by omega)).2.1
    cases hrest : encode rest with
    | nil => simp [encode, hrest, trailingBits, hdigit]
    | cons c tail =>
      -- The characters of the last group are among those of the rest.
      have hlength := length_encode rest
      rw [hrest, List.length_cons] at hlength
      have hlast : 3 ≤ (encode rest).length := by
        rw [hrest, List.length_cons]
        omega
      rw [encode]
      exact (trailingBits_append [_, _, _, _] hlast).trans ih

/-! ### Groups -/

/-- A group without padding gives three octets. -/
theorem decodeGroups_cons {a b c d : Char} (hd : d ≠ '=') (rest : List Char) :
    decodeGroups (a :: b :: c :: d :: rest) =
      firstOctet (digitValue a) (digitValue b) :: secondOctet (digitValue b) (digitValue c)
        :: thirdOctet (digitValue c) (digitValue d) :: decodeGroups rest := by
  rw [decodeGroups]
  · intro _ hpad _
    exact hd hpad
  · intro hpad _
    exact hd hpad

theorem decodeGroups_ne_nil (a b c d : Char) (rest : List Char) :
    decodeGroups (a :: b :: c :: d :: rest) ≠ [] := by
  unfold decodeGroups
  split
  case h_4 hnone => exact (hnone a b c d rest rfl).elim
  all_goals simp

theorem encode_ne_nil {octets : List UInt8} (h : octets ≠ []) : encode octets ≠ [] := by
  match octets, h with
  | [_], _ | [_, _], _ | _ :: _ :: _ :: _, _ => simp [encode]

theorem firstOctet_eq (x : UInt8) {b : Nat} (hb : b / 16 = x.toNat % 4) :
    firstOctet (x.toNat / 4) b = x := by
  rw [firstOctet, show x.toNat / 4 * 4 + b / 16 = x.toNat by omega, UInt8.ofNat_toNat]

theorem secondOctet_eq (y : UInt8) {b c : Nat} (hb : b % 16 = y.toNat / 16)
    (hc : c / 4 = y.toNat % 16) : secondOctet b c = y := by
  rw [secondOctet, show b % 16 * 16 + c / 4 = y.toNat by omega, UInt8.ofNat_toNat]

theorem thirdOctet_eq (z : UInt8) {c : Nat} (hc : c % 4 = z.toNat / 64) :
    thirdOctet c (z.toNat % 64) = z := by
  rw [thirdOctet, show c % 4 * 64 + z.toNat % 64 = z.toNat by omega, UInt8.ofNat_toNat]

/-- The groups of octets give the octets back. -/
theorem decodeGroups_encode (octets : List UInt8) : decodeGroups (encode octets) = octets := by
  induction octets using encode.induct with
  | case1 => rfl
  | case2 x =>
    have hx := x.toNat_lt
    rw [encode, decodeGroups, digitValue_digit (by omega), digitValue_digit (by omega),
      firstOctet_eq x (by omega)]
  | case3 x y =>
    have hx := x.toNat_lt
    have hy := y.toNat_lt
    have hdigit : digit (y.toNat % 16 * 4) ≠ '=' := (digit_props (by omega)).2.1
    rw [encode, decodeGroups, digitValue_digit (by omega), digitValue_digit (by omega),
      digitValue_digit (by omega), firstOctet_eq x (by omega), secondOctet_eq y (by omega) (by omega)]
    exact hdigit
  | case4 x y z rest ih =>
    have hx := x.toNat_lt
    have hy := y.toNat_lt
    have hz := z.toNat_lt
    rw [encode, decodeGroups_cons (digit_props (by omega)).2.1, digitValue_digit (by omega),
      digitValue_digit (by omega), digitValue_digit (by omega), digitValue_digit (by omega),
      firstOctet_eq x (by omega), secondOctet_eq y (by omega) (by omega),
      thirdOctet_eq z (by omega), ih]

/-! ### The round trip -/

/-- Octets that are written in base 64 are read back. -/
theorem decode_encode (octets : List UInt8) : decode (encode octets) = .ok octets := by
  rw [decode, firstForeign?_encode]
  simp only [length_encode, ne_eq, not_true, if_false, firstMisplaced?_encode, trailingBits_encode,
    if_true, decodeGroups_encode]

/-- If a word stands for octets, they are written in a word: its length is a
multiple of four, and a group stands for at least one octet. -/
theorem isWord_encode {text : List Char} {octets : List UInt8} (hword : IsWord text)
    (h : decode text = .ok octets) : IsWord (encode octets) := by
  refine ⟨?_, blankFree_encode octets⟩
  unfold decode at h
  split at h
  case h_1 => cases h
  case h_2 =>
    split at h
    case isTrue => cases h
    case isFalse hlength =>
      split at h
      case h_1 => cases h
      case h_2 =>
        split at h
        case isFalse => cases h
        case isTrue =>
          cases h
          match text, hword.1, hlength with
          | a :: b :: c :: d :: rest, _, _ => exact encode_ne_nil (decodeGroups_ne_nil a b c d rest)
          | [_], _, hlength | [_, _], _, hlength | [_, _, _], _, hlength =>
            exact absurd (by simp) hlength

end Base64

end SimpleTypes
