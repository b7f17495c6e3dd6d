import SimpleTypes.Proofs.Outcome
import SimpleTypes.Proofs.Time.Layout

/-!
# Moments that are read

What holds of every moment that was read from a text: its fields name a month, a
day or a time of the calendar, its zone lies within fourteen hours of UTC, and
its year has no more digits than the widest field of the text.

* `parse?_isProper`: the fields and the zone.
* `parse?_year_le`: the year. A time that ends the last day of a year may reach
  the power of ten itself.
-/

namespace SimpleTypes

/-! ## Proper fields -/

/-- What makes numbers a time of day. -/
structure Clock.IsTime (clock : Clock) : Prop where
  hour : clock.hour < 24
  minute : clock.minute < 60
  second : clock.second < 60
  digits : ∀ c ∈ clock.fraction, c.isDigit = true
  noTrailingZero : NoTrailingZero clock.fraction

/-- What makes fields those of a moment. -/
def Fields.IsProper : Fields → Prop
  | .dateTime d c => d.IsDay ∧ c.IsTime
  | .time c => c.IsTime
  | .date d => d.IsDay
  | .gYearMonth y m => Date.IsYear y ∧ IsMonth m
  | .gYear y => Date.IsYear y
  | .gMonthDay m d => IsMonth m ∧ 1 ≤ d ∧ d ≤ daysInMonth none m
  | .gDay d => 1 ≤ d ∧ d ≤ 31
  | .gMonth m => IsMonth m

/-- Whether a zone lies within fourteen hours of UTC. -/
def IsZone (offset : Int) : Prop := -840 ≤ offset ∧ offset ≤ 840

namespace Moment

/-- What makes fields and a zone a moment. -/
structure IsProper (moment : Moment) : Prop where
  fields : moment.fields.IsProper
  zone : ∀ offset, moment.zone = some offset → IsZone offset

/-! ## Widths -/

theorem widest_le_widestFieldFrom (text : List Char) (widest run : Nat) (fractional : Bool) :
    widest ≤ widestFieldFrom widest run fractional text := by
  induction text generalizing widest run fractional with
  | nil => cases fractional <;> simp [widestFieldFrom]
  | cons c rest ih =>
    simp only [widestFieldFrom]
    split
    · exact ih _ _ _
    · refine le_trans ?_ (ih _ _ _)
      split
      · exact le_rfl
      · exact le_max_left _ _

/-- A run of digits that has been passed counts, whatever follows it. -/
theorem run_le_widestFieldFrom (text : List Char) (widest run : Nat) :
    run ≤ widestFieldFrom widest run false text := by
  induction text generalizing widest run with
  | nil => simp [widestFieldFrom]
  | cons c rest ih =>
    simp only [widestFieldFrom]
    split
    · exact le_trans (Nat.le_succ run) (ih widest (run + 1))
    · exact le_trans (le_max_right widest run) (widest_le_widestFieldFrom _ _ _ _)

theorem length_le_widestFieldFrom {digits : List Char} (h : ∀ c ∈ digits, c.isDigit = true)
    (rest : List Char) (widest run : Nat) :
    run + digits.length ≤ widestFieldFrom widest run false (digits ++ rest) := by
  induction digits generalizing run with
  | nil => exact run_le_widestFieldFrom rest widest run
  | cons c digits ih =>
    obtain ⟨hc, hdigits⟩ := List.forall_mem_cons.mp h
    simp only [List.cons_append, widestFieldFrom, hc, if_true, List.length_cons]
    have := ih hdigits (run + 1)
    omega

/-- After a character that is no digit the scan is in no field. -/
theorem exists_widestFieldFrom_append {c : Char} (hc : c.isDigit = false) (before rest : List Char)
    (widest run : Nat) (fractional : Bool) :
    ∃ widest', widestFieldFrom widest run fractional (before ++ c :: rest)
      = widestFieldFrom widest' 0 (c == '.') rest := by
  induction before generalizing widest run fractional with
  | nil => exact ⟨_, by rw [List.nil_append, widestFieldFrom, if_neg (by simp [hc])]⟩
  | cons d before ih =>
    rw [List.cons_append, widestFieldFrom]
    split
    · exact ih _ _ _
    · exact ih _ _ _

/-- Digits in front of a text are a field. -/
theorem length_le_widestField {digits : List Char} (h : ∀ c ∈ digits, c.isDigit = true)
    (rest : List Char) : digits.length ≤ widestField (digits ++ rest) :=
  (Nat.le_add_left _ 0).trans (length_le_widestFieldFrom h rest 0 0)

/-! ## What is meant -/

variable {text rest : List Char}

theorem WrittenClock.isTime {c : WrittenClock} (h : c.IsPossible) : c.clock.IsTime where
  hour := Nat.mod_lt _ (by decide)
  minute := Nat.lt_succ_of_le h.minute
  second := Nat.lt_succ_of_le h.second
  digits _ := isDigit_of_mem_dropTrailingZeros c.isDigit
  noTrailingZero := noTrailingZero_dropTrailingZeros _

theorem WrittenZone.isZone {z : WrittenZone} {offset : Int} (h : z.IsPossible)
    (hzone : z.value = some offset) : IsZone offset := by
  cases z with
  | absent => cases hzone
  | utc =>
    cases hzone
    exact ⟨by decide, by decide⟩
  | offset negative hours minutes =>
    have hmost := h.2
    cases negative <;> cases hzone <;> exact ⟨by simp; omega, by simp; omega⟩

/-- The digits of a year are a field, also after a minus sign. -/
theorem WrittenYear.natAbs_value_lt (y : WrittenYear) (rest : List Char) :
    y.value.natAbs < 10 ^ widestField (y.text ++ rest) := by
  have hwidest : widestField (y.text ++ rest) = widestField (y.digits ++ rest) := by
    cases hnegative : y.negative <;>
      simp [WrittenYear.text, hnegative, widestField, widestFieldFrom]
  have hlength := length_le_widestFieldFrom y.isDigit rest 0 0
  rw [Nat.zero_add] at hlength
  rw [y.natAbs_value, hwidest]
  exact (natOfDigits_lt y.isDigit).trans_le (Nat.pow_le_pow_right (by decide) hlength)

namespace WrittenFields

variable {f : WrittenFields} {fields : Fields}

/-- Fields that have a year begin with it. -/
theorem exists_text_of_year? {y : WrittenYear} (h : f.year? = some y) :
    ∃ after, f.text = y.text ++ after := by
  cases f <;> cases h <;> simp [text, WrittenDate.text]

theorem natAbs_value_lt {y : WrittenYear} (h : f.year? = some y) (rest : List Char) :
    y.value.natAbs < 10 ^ widestField (f.text ++ rest) := by
  obtain ⟨after, htext⟩ := exists_text_of_year? h
  rw [htext, List.append_assoc]
  exact y.natAbs_value_lt (after ++ rest)

section

variable (h : f.IsPossible) (hfits : ∀ year, f.year? = some year → year.Fits)
  (hmeant : f.fields? = some fields)

include h hfits hmeant

theorem isProper_of_fields? : fields.IsProper ∧ fields.kind = f.kind := by
  cases f with
  | dateTime d clock =>
    obtain ⟨date, hmoved, rfl⟩ := Option.map_eq_some_iff.mp hmeant
    have hday := isDay_dateTime h hfits
    refine ⟨⟨?_, WrittenClock.isTime (h.clock _ rfl)⟩, rfl⟩
    split at hmoved
    · exact (hday.addDays?_one_year hmoved).1
    · cases hmoved
      exact hday
  | time clock =>
    cases hmeant
    exact ⟨WrittenClock.isTime (h.clock _ rfl), rfl⟩
  | date d =>
    cases hmeant
    exact ⟨isDay_date h hfits, rfl⟩
  | gYearMonth year month =>
    cases hmeant
    exact ⟨⟨(h.year _ rfl).isYear (hfits _ rfl), h.month _ rfl⟩, rfl⟩
  | gYear year =>
    cases hmeant
    exact ⟨(h.year _ rfl).isYear (hfits _ rfl), rfl⟩
  | gMonthDay month day =>
    cases hmeant
    exact ⟨⟨h.month _ rfl, h.day _ rfl⟩, rfl⟩
  | gDay day =>
    cases hmeant
    exact ⟨h.day _ rfl, rfl⟩
  | gMonth month =>
    cases hmeant
    exact ⟨h.month _ rfl, rfl⟩

/-- The year is the one that is written, or after the end of a day perhaps the next one. -/
theorem exists_year_of_fields? {year : Int} (hyear : fields.year? = some year) :
    ∃ y, f.year? = some y ∧ y.value ≤ year ∧ year.natAbs ≤ y.value.natAbs + 1 := by
  cases f with
  | dateTime d clock =>
    obtain ⟨date, hmoved, rfl⟩ := Option.map_eq_some_iff.mp hmeant
    cases hyear
    refine ⟨d.year, rfl, ?_⟩
    split at hmoved
    · obtain ⟨-, hge, hle⟩ := (isDay_dateTime h hfits).addDays?_one_year hmoved
      simp only [WrittenDate.date, nextYear] at hge hle
      omega
    · cases hmoved
      exact ⟨le_rfl, Nat.le_succ _⟩
  | date d =>
    cases hmeant
    cases hyear
    exact ⟨d.year, rfl, le_rfl, Nat.le_succ _⟩
  | gYearMonth y month =>
    cases hmeant
    cases hyear
    exact ⟨y, rfl, le_rfl, Nat.le_succ _⟩
  | gYear y =>
    cases hmeant
    cases hyear
    exact ⟨y, rfl, le_rfl, Nat.le_succ _⟩
  | _ =>
    cases hmeant
    cases hyear

end

end WrittenFields

/-! ## Moments -/

/-- What is read as fields of a kind are proper fields of that kind. Only the
end of a last day can carry a year beyond the width of the text, and no year is
the first that a number can hold. -/
theorem readFields?_eq_some {kind : TemporalKind} {fields : Fields}
    (h : readFields? kind text = some (fields, rest)) :
    fields.IsProper ∧ fields.kind = kind ∧ ∀ year, fields.year? = some year →
      -yearBound < year ∧ year.natAbs ≤ 10 ^ widestField text := by
  obtain ⟨f, rfl, rfl, hpossible, hfits, hmeant⟩ := exists_writtenFields h
  obtain ⟨hproper, hkind⟩ := WrittenFields.isProper_of_fields? hpossible hfits hmeant
  refine ⟨hproper, hkind, fun year hyear => ?_⟩
  obtain ⟨y, hy, hge, hle⟩ := WrittenFields.exists_year_of_fields? hpossible hfits hmeant hyear
  exact ⟨(abs_lt.mp (hfits y hy)).1.trans_le hge, hle.trans (WrittenFields.natAbs_value_lt hy rest)⟩

variable {kind : TemporalKind} {moment : Moment}

/-- A moment that is read has proper fields and a zone of at most fourteen
hours. -/
theorem parse?_isProper (h : parse? kind text = some moment) : moment.IsProper := by
  obtain ⟨rest, hfields, hzone⟩ := parse?_eq_some h
  obtain ⟨z, -, hpossible, hvalue⟩ := exists_writtenZone hzone
  exact ⟨(readFields?_eq_some hfields).1, fun _ h => WrittenZone.isZone hpossible (hvalue.trans h)⟩

theorem parse?_kind (h : parse? kind text = some moment) : moment.kind = kind := by
  obtain ⟨rest, hfields, -⟩ := parse?_eq_some h
  exact (readFields?_eq_some hfields).2.1

/-- A year has no more digits than the widest field, but for a power of ten. -/
theorem parse?_year_le (h : parse? kind text = some moment) {year : Int}
    (hyear : moment.fields.year? = some year) : year.natAbs ≤ 10 ^ widestField text := by
  obtain ⟨rest, hfields, -⟩ := parse?_eq_some h
  exact ((readFields?_eq_some hfields).2.2 year hyear).2

/-- The digits of a year cannot name the first one, whose positive counterpart is out of
range, and the end of a day leads away from it. -/
theorem parse?_lt_year (h : parse? kind text = some moment) {year : Int}
    (hyear : moment.fields.year? = some year) : -yearBound < year := by
  obtain ⟨rest, hfields, -⟩ := parse?_eq_some h
  exact ((readFields?_eq_some hfields).2.2 year hyear).1

/-! ## Limits -/

/-- The years that can be reached under the ceiling of the limits. -/
def yearCeiling : Nat := 10 ^ Limits.temporalCeiling

/-- What holds of a moment that was read under some limits. -/
structure IsRead (kind : TemporalKind) (moment : Moment) : Prop extends IsProper moment where
  kind : moment.kind = kind
  year : ∀ year, moment.fields.year? = some year → year.natAbs ≤ yearCeiling

/-- Years that are read stay away from the ends of the calendar. -/
theorem IsRead.year_bounds (h : moment.IsRead kind) {year : Int}
    (hyear : moment.fields.year? = some year) : -yearBound < year ∧ year + 1 < yearBound := by
  have hle := h.year year hyear
  have hceiling : yearCeiling = 1000000000000000000 := rfl
  have hbound : yearBound = 9223372036854775808 := rfl
  omega

/-- Whatever the limits are, no field of more than eighteen digits is read. -/
theorem readAtomic_isRead {rule : LexicalRule} {text : String} {bindings? : Option Bindings}
    {limits : Limits}
    (h : readAtomic (.temporal kind) rule text bindings? limits = .ok (.moment moment)) :
    moment.IsRead kind := by
  simp only [readAtomic, map_eq_ok, readTemporal_eq_ok, Native.moment.injEq] at h
  obtain ⟨moment, ⟨hlimit, hparse⟩, rfl⟩ := h
  have hwidest : widestField text.toList ≤ Limits.temporalCeiling :=
    hlimit.trans (Nat.min_le_right _ _)
  refine ⟨parse?_isProper hparse, parse?_kind hparse, fun year hyear => ?_⟩
  exact (parse?_year_le hparse hyear).trans (Nat.pow_le_pow_right (by decide) hwidest)

end Moment

end SimpleTypes
