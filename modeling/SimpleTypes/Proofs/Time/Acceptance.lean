import SimpleTypes.Proofs.Time.Reading

/-!
# Which dates and times are accepted

A text is accepted if it is laid out as its kind asks for, and if what it says is possible.
The size of a year only matters where a field has more than eighteen digits.

* `FieldsWithin`: no field but a fraction has more digits than a number.
  `fieldsWithin_iff` says that the scan of a text for its widest field decides this.
* `parse?_accepts`: which texts are read, and which are read under limits.
-/

namespace SimpleTypes

namespace Moment

variable {text rest : List Char}

/-! ## Narrow fields -/

/-- Whether no field of a text has more digits than some width. A run of digits is a field
unless it stands directly after a point. -/
def FieldsWithin (width : Nat) (text : List Char) : Prop :=
  ∀ before field after, text = before ++ field ++ after → (∀ c ∈ field, c.isDigit = true) →
    (∀ c, before.getLast? = some c → c.isDigit = false ∧ c ≠ '.') → field.length ≤ width

section

variable {width widest : Nat} {before field : List Char} {fractional : Bool}

/-- A field that ends is counted unless it is a fraction. -/
theorem FieldsWithin.counted_le (h : FieldsWithin width (before ++ field ++ rest))
    (hfield : ∀ c ∈ field, c.isDigit = true)
    (hbefore : fractional = false → ∀ c, before.getLast? = some c → c.isDigit = false ∧ c ≠ '.')
    (hwidest : widest ≤ width) :
    (if fractional then widest else max widest field.length) ≤ width := by
  cases fractional with
  | true => exact hwidest
  | false => exact max_le hwidest (h before field rest rfl hfield (hbefore rfl))

/-- The scan for the widest field finds none that is too wide. The digits of the field that
it is in have been passed, and `fractional` tells that they stand after a point. -/
theorem FieldsWithin.widestFieldFrom_le (h : FieldsWithin width (before ++ field ++ rest))
    (hfield : ∀ c ∈ field, c.isDigit = true)
    (hbefore : fractional = false → ∀ c, before.getLast? = some c → c.isDigit = false ∧ c ≠ '.')
    (hwidest : widest ≤ width) : widestFieldFrom widest field.length fractional rest ≤ width := by
  induction rest generalizing before field widest fractional with
  | nil => exact h.counted_le hfield hbefore hwidest
  | cons c rest ih =>
    rw [widestFieldFrom]
    split
    case isTrue hdigit =>
      have hgrown : ∀ d ∈ field ++ [c], d.isDigit = true := by
        simpa [or_imp, forall_and, hdigit] using hfield
      have hsame : before ++ field ++ c :: rest = before ++ (field ++ [c]) ++ rest := by simp
      rw [hsame] at h
      simpa using ih h hgrown hbefore hwidest
    case isFalse hdigit =>
      have hsame : before ++ field ++ c :: rest = before ++ field ++ [c] ++ [] ++ rest := by simp
      have hcounted := h.counted_le hfield hbefore hwidest
      rw [hsame] at h
      refine ih h (by simp) ?_ hcounted
      intro hpoint d hd
      obtain rfl : c = d := by simpa using hd
      exact ⟨by simpa using hdigit, by simpa using hpoint⟩

/-- The widest field is as wide as the fields of the text require. -/
theorem fieldsWithin_iff : FieldsWithin width text ↔ widestField text ≤ width := by
  constructor
  · intro h
    exact @FieldsWithin.widestFieldFrom_le text width 0 [] [] false h (by simp) (by simp)
      (Nat.zero_le _)
  · rintro h before field after rfl hfield hbefore
    refine le_trans ?_ h
    rw [widestField, List.append_assoc]
    rcases List.eq_nil_or_concat before with rfl | ⟨before, c, rfl⟩
    · have := length_le_widestFieldFrom hfield after 0 0
      rwa [Nat.zero_add] at this
    · obtain ⟨hdigit, hpoint⟩ := hbefore c (by simp)
      obtain ⟨widest, heq⟩ := exists_widestFieldFrom_append hdigit before (field ++ after) 0 0 false
      rw [List.concat_append, heq, beq_eq_false_iff_ne.mpr hpoint]
      have := length_le_widestFieldFrom hfield after widest 0
      rwa [Nat.zero_add] at this

instance : Decidable (FieldsWithin width text) := decidable_of_iff _ fieldsWithin_iff.symm

end

namespace WrittenFields

variable {f : WrittenFields}

/-- The years of narrow fields are small, and so is the one after. -/
theorem fits_of_fieldsWithin (h : FieldsWithin 18 (f.text ++ rest)) : f.Fits := by
  have hbound : yearBound = 9223372036854775808 := rfl
  have hsmall {y : WrittenYear} (hyear : f.year? = some y) : y.value.natAbs < 10 ^ 18 := by
    exact (natAbs_value_lt hyear rest).trans_le
      (Nat.pow_le_pow_right (by decide) (fieldsWithin_iff.mp h))
  refine ⟨fun y hyear => ?_, fun date hended => ?_⟩
  · have := hsmall hyear
    rw [WrittenYear.Fits, hbound, Int.abs_eq_natAbs]
    omega
  · cases f with
    | dateTime d clock =>
      simp only [endedDate?, Option.ite_none_right_eq_some, Option.some.injEq] at hended
      obtain ⟨-, rfl⟩ := hended
      have hyear : d.year.value.natAbs < 10 ^ 18 := hsmall rfl
      have hnext : nextYear d.year.value < yearBound := by
        rw [nextYear, hbound]
        split <;> omega
      rw [Date.yearOfNext]
      split
      · exact hnext
      · exact (lt_nextYear _).trans hnext
    | _ => cases hended

end WrittenFields

/-- What is possible is read if its fields are narrow. -/
theorem Written.exists_parse?_of_fieldsWithin {w : Written} (h : w.IsPossible)
    (hnarrow : FieldsWithin 18 w.text) : ∃ moment, parse? w.kind w.text = some moment :=
  Option.isSome_iff_exists.mp (isSome_parse?_iff.mpr
    ⟨w, rfl, rfl, h, WrittenFields.fits_of_fieldsWithin hnarrow⟩)

/-- A text is read if it has the layout of the kind, if its fields are possible, and if its
year can be held. Where no field has more than eighteen digits, every year can be held: what
is found invalid is impossible, and what is possible is read under limits that allow so many
digits. -/
theorem parse?_accepts :
    (∀ kind text, (parse? kind text).isSome = true ↔
      ∃ w : Written, w.kind = kind ∧ w.text = text ∧ w.IsPossible ∧ w.Fits) ∧
    ∀ kind (text : String) rule bindings? limits, FieldsWithin 18 text.toList →
      (∀ cause, readAtomic (.temporal kind) rule text bindings? limits = .error (.invalid cause) →
        ¬∃ w : Written, w.kind = kind ∧ w.text = text.toList ∧ w.IsPossible) ∧
      (18 ≤ limits.temporalDigits →
        ((∃ moment, readAtomic (.temporal kind) rule text bindings? limits = .ok (.moment moment)) ↔
          ∃ w : Written, w.kind = kind ∧ w.text = text.toList ∧ w.IsPossible)) := by
  refine ⟨fun _ _ => isSome_parse?_iff, ?_⟩
  intro kind text rule bindings? limits hnarrow
  refine ⟨?_, fun hlimits => ⟨?_, ?_⟩⟩
  · rintro cause hcause ⟨w, rfl, htext, hpossible⟩
    obtain ⟨moment, hmoment⟩ := Written.exists_parse?_of_fieldsWithin hpossible (htext ▸ hnarrow)
    have hgives : Gives (readAtomic (.temporal w.kind) rule text bindings? limits) (.moment moment) :=
      .map (gives_readTemporal (htext ▸ hmoment) limits) Native.moment
    rw [hcause] at hgives
    rcases hgives with ⟨_, hlimit⟩ | hok
    · cases hlimit
    · cases hok
  · rintro ⟨moment, hread⟩
    obtain ⟨_, hmoment, -⟩ := map_eq_ok.mp hread
    obtain ⟨w, hkind, htext, hpossible, -⟩ :=
      isSome_parse?_iff.mp (Option.isSome_of_eq_some (readTemporal_eq_ok.mp hmoment).2)
    exact ⟨w, hkind, htext, hpossible⟩
  · rintro ⟨w, rfl, htext, hpossible⟩
    obtain ⟨moment, hmoment⟩ := Written.exists_parse?_of_fieldsWithin hpossible (htext ▸ hnarrow)
    have hwidth : widestField text.toList ≤ min limits.temporalDigits Limits.temporalCeiling :=
      (fieldsWithin_iff.mp hnarrow).trans (le_min hlimits le_rfl)
    exact ⟨moment, map_eq_ok.mpr ⟨moment, readTemporal_eq_ok.mpr ⟨hwidth, htext ▸ hmoment⟩, rfl⟩⟩

/-- `-0001-12-31T24:00:00.000+14:00`, the end of the last day before the year 1. -/
def endOfFirstYear : Written where
  fields := .dateTime ⟨⟨true, ['0', '0', '0', '1'], by simp⟩, 12, 31⟩
    ⟨24, 0, 0, some ['0', '0', '0'], by simp⟩
  zone := .offset false 14 0

theorem parse?_accepts_endOfFirstYear :
    endOfFirstYear.IsPossible ∧ endOfFirstYear.Fits ∧
      (parse? .dateTime endOfFirstYear.text).isSome = true ∧
      FieldsWithin 18 endOfFirstYear.text ∧
      ∃ moment, readAtomic (.temporal .dateTime) .plain (String.ofList endOfFirstYear.text) none
        .standard = .ok (.moment moment) := by
  have hnarrow : FieldsWithin 18 endOfFirstYear.text := by decide
  have hpossible : endOfFirstYear.IsPossible := by
    refine ⟨⟨?_, ?_, ?_, ?_⟩, by decide, by decide⟩ <;> rintro _ ⟨⟩
    · exact ⟨by decide, fun hlong => absurd hlong (by decide), by decide⟩
    · exact ⟨by decide, by decide⟩
    · exact ⟨by decide, by decide⟩
    · exact ⟨by decide, by decide, by decide, by decide, fun _ => ⟨rfl, rfl, by simp⟩⟩
  have hfits : endOfFirstYear.Fits := WrittenFields.fits_of_fieldsWithin hnarrow
  have hread := (parse?_accepts.1 .dateTime endOfFirstYear.text).mpr
    ⟨endOfFirstYear, rfl, rfl, hpossible, hfits⟩
  have haccepts := (parse?_accepts.2 .dateTime (String.ofList endOfFirstYear.text) .plain none
    .standard (by rwa [String.toList_ofList])).2 (by decide)
  exact ⟨hpossible, hfits, hread, hnarrow,
    haccepts.mpr ⟨endOfFirstYear, rfl, by rw [String.toList_ofList], hpossible⟩⟩

end Moment

end SimpleTypes
