import SimpleTypes.Proofs.Number.Exact
import SimpleTypes.Proofs.Time.Acceptance
import SimpleTypes.Proofs.Time.DurationNotation

/-!
# Which durations are accepted

A text is withheld if one of its fields is too wide, and else it is read if and only if it is
written as a duration. No number of a narrow text is too large to be held, and none is rounded
that can be held exactly.

* `totalMonths?_of_fill` and `totalSeconds?_isSome`: the numbers of narrow components fit.
* `totalSeconds?_of_isRepresentable`: seconds that can be held are exact.
* `readAtomic_accepts`: which texts are withheld, accepted and refused, and what is read.
-/

namespace SimpleTypes.Duration

open Moment Scaled

variable {components : Components} {digits? : Option (List Char)} {w : Written}
  {duration : Duration}

/-! ## Numbers of narrow components -/

/-- Years and months of eighteen digits fit. -/
theorem totalMonths?_of_fill (hfill : components.Fill 18) :
    totalMonths? components = some ((components.years.map natOfDigits).getD 0 * 12
      + (components.months.map natOfDigits).getD 0) := by
  have hyears := natOfDigits_getD_lt hfill.years
  have hmonths := natOfDigits_getD_lt hfill.months
  have hbound : monthsBound = 18446744073709551616 := rfl
  simp only [totalMonths?, countOf?, Option.bind_eq_bind]
  rw [if_pos (by omega), Option.bind_some, if_pos (by omega), Option.bind_some, if_pos (by omega)]

/-- A component of eighteen digits fits, also in seconds. -/
theorem exists_secondsOf?_of_isField (h : ∀ digits ∈ digits?, IsField 18 digits) {factor : Nat}
    (hpos : 0 < factor) (hfactor : factor ≤ perDay) :
    ∃ a, secondsOf? digits? factor = some a ∧ a.IsMagnitude ∧ a.value ≤ 10 ^ 18 * factor := by
  have hlt := natOfDigits_getD_lt h
  have hproduct : (digits?.map natOfDigits).getD 0 * factor < bound := by
    calc (digits?.map natOfDigits).getD 0 * factor
        ≤ 10 ^ 18 * perDay := Nat.mul_le_mul hlt.le hfactor
      _ < bound := by decide
  have hfits : (digits?.map natOfDigits).getD 0 < bound :=
    (Nat.le_mul_of_pos_right _ hpos).trans_lt hproduct
  have habs : ((((digits?.map natOfDigits).getD 0 : Nat) : Int) * factor).natAbs < bound := by
    rw [← Nat.cast_mul, Int.natAbs_natCast]
    exact hproduct
  have hsome : secondsOf? digits? factor
      = some ⟨((digits?.map natOfDigits).getD 0 : Nat) * factor, 0⟩ := by
    simp only [secondsOf?, ofNat?, mulWhole?, if_pos hfits, if_pos habs, Option.bind_eq_bind,
      Option.bind_some]
  exact ⟨_, hsome, (secondsOf?_eq_some hsome).1, secondsOf?_le h hsome⟩

/-- The seconds of components of eighteen digits fit, and so do all sums on the way. -/
theorem totalSeconds?_isSome (hfill : components.Fill 18) :
    (totalSeconds? components).isSome = true := by
  obtain ⟨days, hdays, hdaysMagnitude, hdaysLe⟩ :=
    exists_secondsOf?_of_isField hfill.days (by decide : 0 < perDay) le_rfl
  obtain ⟨hours, hhours, hhoursMagnitude, hhoursLe⟩ :=
    exists_secondsOf?_of_isField hfill.hours (by decide : 0 < perHour) (by decide)
  obtain ⟨minutes, hminutes, hminutesMagnitude, hminutesLe⟩ :=
    exists_secondsOf?_of_isField hfill.minutes (by decide : 0 < perMinute) (by decide)
  obtain ⟨hwhole, hfraction⟩ := hfill.seconds_getD
  have hwholeLe : (natOfDigits (components.seconds.getD ([], [])).1 : ℚ) ≤ 10 ^ 18 :=
    mod_cast hwhole.le
  obtain ⟨rest, hrest⟩ := Option.isSome_iff_exists.mp
    (@ofDigits?_isSome (components.seconds.getD ([], [])).2 (components.seconds.getD ([], [])).1
      (by simp only [bound]; omega))
  obtain ⟨hrestMagnitude, hrestLe⟩ := ofDigits?_eq_some hfraction hrest
  simp only [perDay, perHour, perMinute, Nat.cast_ofNat] at hdaysLe hhoursLe hminutesLe
  have hlarge : ((bound - 1 : Nat) : ℚ) = 79228162514264337593543950335 := by norm_num [bound]
  have hadd : ∀ {a b : Scaled}, a.IsMagnitude → b.IsMagnitude → a.value + b.value ≤ 10 ^ 24 →
      ∃ c, a.add? b = some c ∧ c.IsMagnitude ∧ c.value ≤ a.value + b.value + 1 := by
    intro a b ha hb hle
    have hsome : (a.add? b).isSome := by
      refine add?_isSome ?_
      rw [abs_of_nonneg (add_nonneg ha.value_nonneg hb.value_nonneg), hlarge]
      linarith
    obtain ⟨c, hc⟩ := Option.isSome_iff_exists.mp hsome
    exact ⟨c, hc, ha.add? hb hc⟩
  obtain ⟨toHours, hsum₁, htoHours, hle₁⟩ := hadd hdaysMagnitude hhoursMagnitude (by linarith)
  obtain ⟨toMinutes, hsum₂, htoMinutes, hle₂⟩ := hadd htoHours hminutesMagnitude (by linarith)
  obtain ⟨total, hsum₃, -, -⟩ := hadd htoMinutes hrestMagnitude (by linarith)
  simp only [totalSeconds?, hdays, hhours, hminutes, hrest, hsum₁, hsum₂, hsum₃,
    Option.bind_eq_bind, Option.bind_some, Option.isSome_some]

/-- Whole units add up exactly. -/
theorem add?_of_natCast {a b c : Scaled} {n m : Nat} (ha : a.value = n) (hb : b.value = m)
    (hlt : n + m < bound) (h : a.add? b = some c) : c.value = (n + m : Nat) := by
  have hsum : a.value + b.value = (n + m : Nat) := by rw [ha, hb, Nat.cast_add]
  obtain ⟨_, hc, hvalue⟩ := add?_of_isRepresentable (hsum ▸ isRepresentable_natCast hlt)
  obtain rfl := Option.some.inj (hc.symm.trans h)
  exact hvalue.trans hsum

/-- Seconds that can be held are exact. -/
theorem totalSeconds?_of_isRepresentable {total : Scaled} {days hours minutes : Nat}
    {whole fraction : List Char} (hdays : (components.days.map natOfDigits).getD 0 = days)
    (hhours : (components.hours.map natOfDigits).getD 0 = hours)
    (hminutes : (components.minutes.map natOfDigits).getD 0 = minutes)
    (hseconds : components.seconds.getD ([], []) = (whole, fraction))
    (hfraction : ∀ c ∈ fraction, c.isDigit = true)
    (h : IsRepresentable ((days * 86400 + hours * 3600 + minutes * 60 : Nat)
      + (natOfDigits whole + fractionValue fraction)))
    (htotal : totalSeconds? components = some total) :
    total.value = (days * 86400 + hours * 3600 + minutes * 60 : Nat)
      + (natOfDigits whole + fractionValue fraction) := by
  simp only [totalSeconds?, hseconds, Option.bind_eq_bind, Option.bind_eq_some_iff] at htotal
  obtain ⟨a, ha, b, hb, c, hc, rest, hrest, toHours, hsum₁, toMinutes, hsum₂, hsum₃⟩ := htotal
  have ha : a.value = (days * 86400 : Nat) := by
    rw [(secondsOf?_eq_some ha).2, hdays, Nat.cast_mul]
    rfl
  have hb : b.value = (hours * 3600 : Nat) := by
    rw [(secondsOf?_eq_some hb).2, hhours, Nat.cast_mul]
    rfl
  have hc : c.value = (minutes * 60 : Nat) := by
    rw [(secondsOf?_eq_some hc).2, hminutes, Nat.cast_mul]
    rfl
  have hnonneg : 0 ≤ (natOfDigits whole : ℚ) + fractionValue fraction :=
    add_nonneg (Nat.cast_nonneg _) (fractionValue_nonneg _)
  have hlt : days * 86400 + hours * 3600 + minutes * 60 < bound := by
    have := (le_add_of_nonneg_right hnonneg).trans_lt h.lt
    exact_mod_cast this
  have hrestValue : rest.value = natOfDigits whole + fractionValue fraction := by
    have hwhole : natOfDigits whole < bound := by
      rw [ofDigits?, Option.ite_none_right_eq_some] at hrest
      exact hrest.1
    obtain ⟨_, hread, hvalue⟩ :=
      ofDigits?_of_isRepresentable hfraction hwhole (h.of_natCast_add hnonneg)
    obtain rfl := Option.some.inj (hread.symm.trans hrest)
    exact hvalue
  have htoHours := add?_of_natCast ha hb ((Nat.le_add_right _ _).trans_lt hlt) hsum₁
  have htoMinutes := add?_of_natCast htoHours hc hlt hsum₂
  rw [← htoMinutes, ← hrestValue] at h ⊢
  obtain ⟨_, hadd, hvalue⟩ := add?_of_isRepresentable h
  obtain rfl := Option.some.inj (hadd.symm.trans hsum₃)
  exact hvalue

/-! ## Texts -/

namespace Written

theorem widestField_text (w : Written) : widestField w.text = widestField w.body := by
  cases hnegative : w.negative <;> simp [text, hnegative, widestField, widestFieldFrom]

/-- The components of a narrow text are narrow. -/
theorem fill_of_fieldsWithin (h : w.IsPossible) (hnarrow : FieldsWithin 18 w.text) :
    w.components.Fill 18 := by
  have hfill := (readComponents?_eq_some (readComponents?_body h)).1
  rw [← widestField_text] at hfill
  exact hfill.mono (fieldsWithin_iff.mp hnarrow)

/-- A narrow duration that is possible is read. -/
theorem exists_parse?_of_fieldsWithin (h : w.IsPossible) (hnarrow : FieldsWithin 18 w.text) :
    ∃ duration, parse? w.text = some duration := by
  have hfill := fill_of_fieldsWithin h hnarrow
  obtain ⟨seconds, hseconds⟩ := Option.isSome_iff_exists.mp (totalSeconds?_isSome hfill)
  rw [parse?_text h, totalMonths?_of_fill hfill, hseconds]
  exact ⟨_, rfl⟩

/-- What is read is what is meant. -/
theorem of_parse?_text (h : w.IsPossible) (hread : parse? w.text = some duration) :
    duration.months = w.totalMonths ∧
      (IsRepresentable w.totalSeconds → duration.seconds.value = w.totalSeconds) := by
  simp only [parse?_text h, Option.bind_eq_bind, Option.bind_eq_some_iff, Option.some.injEq]
    at hread
  obtain ⟨months, hmonths, seconds, hseconds, rfl⟩ := hread
  obtain ⟨-, rfl⟩ := totalMonths?_eq_some hmonths
  refine ⟨by rw [totalMonths, Nat.mul_comm]; rfl, fun hrep => ?_⟩
  have hsum : w.totalSeconds = ((w.days.map natOfDigits).getD 0 * 86400
      + (w.hours.map natOfDigits).getD 0 * 3600 + (w.minutes.map natOfDigits).getD 0 * 60 : Nat)
      + (natOfDigits (w.components.seconds.getD ([], [])).1
        + fractionValue (w.components.seconds.getD ([], [])).2) := by
    have hseconds : (w.seconds.map WrittenSeconds.value).getD 0
        = natOfDigits (w.components.seconds.getD ([], [])).1
          + fractionValue (w.components.seconds.getD ([], [])).2 := by
      rw [components]
      cases w.seconds with
      | none => simp [natOfDigits_nil, fractionValue_nil]
      | some s => rfl
    rw [totalSeconds, hseconds]
    push_cast
    ring
  rw [hsum] at hrep ⊢
  refine totalSeconds?_of_isRepresentable rfl rfl rfl rfl ?_ hrep hseconds
  rw [components]
  cases hs : w.seconds with
  | none => simp
  | some s => exact (h.seconds s hs).fraction

end Written

/-! ## Limits -/

section

variable {α : Type} {form : LexicalForm} {read? : List Char → Option α} {text : String}
  {limits : Limits}

/-- A text with a field that is too wide is withheld. -/
theorem readTemporal_of_not_fieldsWithin
    (h : ¬FieldsWithin (min limits.temporalDigits Limits.temporalCeiling) text.toList) :
    ∃ fault, readTemporal form read? text limits = .error (.limit fault) := by
  rw [fieldsWithin_iff, not_le] at h
  rw [readTemporal, Limits.checkTemporalDigits, if_pos h]
  exact ⟨_, rfl⟩

/-- Other texts are left to the grammar. -/
theorem readTemporal_of_fieldsWithin
    (h : FieldsWithin (min limits.temporalDigits Limits.temporalCeiling) text.toList) :
    readTemporal form read? text limits
      = match read? text.toList with
        | some a => .ok a
        | none => .error (.invalid (.lexical form text)) := by
  rw [fieldsWithin_iff, ← not_lt] at h
  rw [readTemporal, Limits.checkTemporalDigits, if_neg h]
  cases read? text.toList <;> rfl

end

section

variable {text : String} {rule : LexicalRule} {bindings? : Option Bindings} {limits : Limits}

theorem readAtomic_of_not_fieldsWithin
    (h : ¬FieldsWithin (min limits.temporalDigits 18) text.toList) :
    ∃ fault, readAtomic .duration rule text bindings? limits = .error (.limit fault) := by
  obtain ⟨fault, hfault⟩ := readTemporal_of_not_fieldsWithin h
  exact ⟨fault, by rw [readAtomic, hfault]; rfl⟩

/-- A narrow text that is written as a duration is accepted. -/
theorem exists_readAtomic_of_isPossible
    (h : FieldsWithin (min limits.temporalDigits 18) text.toList) (hw : w.IsPossible)
    (htext : w.text = text.toList) :
    ∃ duration, readAtomic .duration rule text bindings? limits = .ok (.duration duration) := by
  have hnarrow : FieldsWithin 18 w.text := by
    rw [htext, fieldsWithin_iff]
    exact (fieldsWithin_iff.mp h).trans (Nat.min_le_right _ _)
  obtain ⟨duration, hread⟩ := w.exists_parse?_of_fieldsWithin hw hnarrow
  refine ⟨duration, ?_⟩
  rw [readAtomic, readTemporal_of_fieldsWithin h, ← htext, hread]
  rfl

/-- A narrow text that is not written as a duration is invalid. -/
theorem readAtomic_of_not_isPossible
    (h : FieldsWithin (min limits.temporalDigits 18) text.toList)
    (hnone : ¬∃ w : Written, w.text = text.toList ∧ w.IsPossible) :
    readAtomic .duration rule text bindings? limits
      = .error (.invalid (.lexical .duration text)) := by
  have hread : parse? text.toList = none := by
    rw [Option.eq_none_iff_forall_ne_some]
    exact fun duration hread => hnone (exists_written hread)
  rw [readAtomic, readTemporal_of_fieldsWithin h, hread]
  rfl

/-- What is accepted has been read from the text. -/
theorem parse?_of_readAtomic
    (h : readAtomic .duration rule text bindings? limits = .ok (.duration duration)) :
    FieldsWithin (min limits.temporalDigits 18) text.toList ∧
      parse? text.toList = some duration := by
  simp only [readAtomic, map_eq_ok, readTemporal_eq_ok, Native.duration.injEq] at h
  obtain ⟨_, ⟨hnarrow, hread⟩, rfl⟩ := h
  exact ⟨fieldsWithin_iff.mpr hnarrow, hread⟩

end

/-- A text is withheld if one of its fields is too wide. Otherwise it is accepted if it is
written as a duration, and invalid if it is not. What is accepted has the months that are
written, and the seconds too if they can be held. -/
theorem readAtomic_accepts (text : String) (rule : LexicalRule) (bindings? : Option Bindings)
    (limits : Limits) :
    ((∃ fault, readAtomic .duration rule text bindings? limits = .error (.limit fault)) ↔
      ¬FieldsWithin (min limits.temporalDigits 18) text.toList) ∧
    (FieldsWithin (min limits.temporalDigits 18) text.toList →
      ((∃ duration, readAtomic .duration rule text bindings? limits = .ok (.duration duration)) ↔
        ∃ w : Written, w.text = text.toList ∧ w.IsPossible) ∧
      ((¬∃ w : Written, w.text = text.toList ∧ w.IsPossible) →
        readAtomic .duration rule text bindings? limits
          = .error (.invalid (.lexical .duration text)))) ∧
    ∀ duration, readAtomic .duration rule text bindings? limits = .ok (.duration duration) →
      ∀ w : Written, w.text = text.toList → w.IsPossible →
        duration.months = w.totalMonths ∧
          (IsRepresentable w.totalSeconds → duration.seconds.value = w.totalSeconds) := by
  refine ⟨⟨?_, readAtomic_of_not_fieldsWithin⟩,
    fun hnarrow => ⟨⟨?_, ?_⟩, readAtomic_of_not_isPossible hnarrow⟩, ?_⟩
  · rintro ⟨fault, hfault⟩ hnarrow
    rcases Classical.em (∃ w : Written, w.text = text.toList ∧ w.IsPossible) with
      ⟨w, htext, hw⟩ | hnone
    · obtain ⟨duration, hread⟩ := exists_readAtomic_of_isPossible hnarrow hw htext
      rw [hfault] at hread
      cases hread
    · rw [readAtomic_of_not_isPossible hnarrow hnone] at hfault
      cases hfault
  · rintro ⟨duration, hread⟩
    exact exists_written (parse?_of_readAtomic hread).2
  · rintro ⟨w, htext, hw⟩
    exact exists_readAtomic_of_isPossible hnarrow hw htext
  · intro duration hread w htext hw
    have hparse := (parse?_of_readAtomic hread).2
    rw [← htext] at hparse
    exact w.of_parse?_text hw hparse

/-- `-P1Y14MT90M1.50000000000000000000000000000S`, with more zeros than a scale has room for. -/
def fineSeconds : Written where
  negative := true
  years := some ['1']
  months := some ['1', '4']
  days := none
  hours := none
  minutes := some ['9', '0']
  seconds := some ⟨['1'], some ('5' :: List.replicate 28 '0')⟩

theorem readAtomic_accepts_fineSeconds :
    fineSeconds.IsPossible ∧ FieldsWithin 18 fineSeconds.text ∧
      ∃ duration, readAtomic .duration .plain (String.ofList fineSeconds.text) none .standard
          = .ok (.duration duration) ∧
        duration.months = 26 ∧ duration.seconds.value = 54015 / 10 := by
  have hpossible : fineSeconds.IsPossible := by
    refine ⟨?_, ?_, ?_, ?_, ?_, ?_, by decide⟩ <;> rintro _ ⟨⟩
    · exact ⟨List.cons_ne_nil _ _, List.all_eq_true.mp rfl⟩
    · exact ⟨List.cons_ne_nil _ _, List.all_eq_true.mp rfl⟩
    · exact ⟨List.cons_ne_nil _ _, List.all_eq_true.mp rfl⟩
    · exact ⟨⟨List.cons_ne_nil _ _, List.all_eq_true.mp rfl⟩, List.all_eq_true.mp rfl⟩
  have hnarrow : FieldsWithin 18 fineSeconds.text := by decide
  have htext : fineSeconds.text = (String.ofList fineSeconds.text).toList :=
    String.toList_ofList.symm
  obtain ⟨-, haccepts, hvalues⟩ :=
    readAtomic_accepts (String.ofList fineSeconds.text) .plain none .standard
  obtain ⟨duration, hread⟩ :=
    (haccepts (htext ▸ hnarrow)).1.mpr ⟨fineSeconds, htext, hpossible⟩
  obtain ⟨hmonths, hseconds⟩ := hvalues duration hread fineSeconds htext hpossible
  have htotal : fineSeconds.totalSeconds = 54015 / 10 := by
    have hminutes : natOfDigits ['9', '0'] = 90 := by decide
    have hwhole : natOfDigits ['1'] = 1 := by decide
    have hfraction : natOfDigits ('5' :: List.replicate 28 '0') = 5 * 10 ^ 28 := by decide
    simp only [Written.totalSeconds, fineSeconds, WrittenSeconds.value, fractionValue, hminutes,
      hwhole, hfraction, Option.map_some, Option.map_none, Option.getD_some, Option.getD_none,
      List.length_cons, List.length_replicate]
    norm_num
  refine ⟨hpossible, hnarrow, duration, hread, hmonths, ?_⟩
  rw [htotal] at hseconds
  exact hseconds ⟨54015, by decide, 1, by decide, by norm_num⟩

end SimpleTypes.Duration
