import Mathlib.Tactic.IntervalCases
import Mathlib.Tactic.Linarith
import Mathlib.Tactic.Ring
import SimpleTypes.Time.Calendar

/-!
# Day numbers

The days of the calendar counted in one line, from 1 January of year 1 on. A
year has the days of its twelve months, and the year after `-1` is `1`.

* `Date.IsDay` and `Date.IsCalendarDay`: the days of the calendar, with years in
  range and in a calendar without bounds.
* `Date.IsCalendarDay.order_eq_compare_dayNumber`: the order of days is that of
  their numbers.
* `Date.exists_isCalendarDay`: every number is that of a day, in some year.
-/

namespace SimpleTypes

/-! ## Counting -/

/-- The number of days of a year. -/
def yearLength (year : Int) : Nat :=
  ((List.range 12).map fun i => daysInMonth (some year) (i + 1)).sum

/-- The days of a year before the first of a month. -/
def daysBeforeMonth (year : Int) (month : Nat) : Nat :=
  ((List.range (month - 1)).map fun i => daysInMonth (some year) (i + 1)).sum

/-- The days from 1 January of year 1 to 1 January of a year, below zero for
earlier years. -/
def daysBeforeYear : Int → Int
  | .ofNat n => ((List.range (n - 1)).map fun i : Nat => (yearLength (i + 1) : Int)).sum
  | .negSucc n => -((List.range (n + 1)).map fun i : Nat => (yearLength (-(i + 1)) : Int)).sum

/-- The number of the first day of a month. -/
def firstOfMonth (year : Int) (month : Nat) : Int :=
  daysBeforeYear year + daysBeforeMonth year month

/-- The number of a day. 1 January of year 1 has the number zero. -/
def Date.dayNumber (date : Date) : Int :=
  firstOfMonth date.year date.month + (date.day - 1)

/-! ## Months -/

/-- Whether a number is that of a month. -/
def IsMonth (month : Nat) : Prop := 1 ≤ month ∧ month ≤ 12

theorem daysInMonth_pos {month : Nat} (year : Option Int) (h : IsMonth month) :
    28 ≤ daysInMonth year month := by
  obtain ⟨hl, hu⟩ := h
  by_cases hfebruary : month = 2
  · rw [hfebruary]
    cases year with
    | none => decide
    | some year =>
      simp only [daysInMonth]
      split <;> omega
  · -- The other months do not depend on the year.
    interval_cases month <;> simp [daysInMonth] at hfebruary ⊢

theorem daysInMonth_le (year : Option Int) (month : Nat) : daysInMonth year month ≤ 31 := by
  unfold daysInMonth
  split
  case h_12 =>
    split
    · split <;> omega
    · omega
  all_goals omega

theorem daysBeforeMonth_one (year : Int) : daysBeforeMonth year 1 = 0 := rfl

theorem daysBeforeMonth_succ {month : Nat} (year : Int) (h : 1 ≤ month) :
    daysBeforeMonth year (month + 1) =
      daysBeforeMonth year month + daysInMonth (some year) month := by
  obtain ⟨k, rfl⟩ := Nat.exists_eq_add_of_le' h
  simp [daysBeforeMonth, List.range_succ]

theorem yearLength_eq (year : Int) :
    yearLength year = daysBeforeMonth year 12 + daysInMonth (some year) 12 :=
  daysBeforeMonth_succ year (by omega : 1 ≤ 12)

theorem daysBeforeMonth_mono (year : Int) {m n : Nat} (hm : 1 ≤ m) (h : m < n) :
    daysBeforeMonth year m + daysInMonth (some year) m ≤ daysBeforeMonth year n := by
  induction n, h using Nat.le_induction with
  | base => rw [daysBeforeMonth_succ year hm]
  | succ n hn ih =>
    rw [daysBeforeMonth_succ year (by omega)]
    omega

/-- Every day of a month lies within its year. -/
theorem daysBeforeMonth_add_le (year : Int) {month : Nat} (h : IsMonth month) :
    daysBeforeMonth year month + daysInMonth (some year) month ≤ yearLength year := by
  rcases Nat.lt_or_eq_of_le h.2 with hlt | rfl
  · have := daysBeforeMonth_mono year h.1 hlt
    rw [yearLength_eq]
    omega
  · rw [yearLength_eq]

theorem yearLength_pos (year : Int) : 28 ≤ yearLength year := by
  have : 28 ≤ daysInMonth (some year) 12 := daysInMonth_pos _ ⟨by omega, by omega⟩
  rw [yearLength_eq]
  omega

/-- A day that comes before the end of a month lies in it or in a month before it. -/
theorem exists_month_upTo (year : Int) {offset last : Nat} (hpos : 1 ≤ last) (hle : last ≤ 12)
    (hlt : offset < daysBeforeMonth year last + daysInMonth (some year) last) :
    ∃ month, IsMonth month ∧ daysBeforeMonth year month ≤ offset ∧
      offset < daysBeforeMonth year month + daysInMonth (some year) month := by
  induction last, hpos using Nat.le_induction with
  | base => exact ⟨1, ⟨le_rfl, hle⟩, by rw [daysBeforeMonth_one]; omega, hlt⟩
  | succ month hpos ih =>
    by_cases hreached : daysBeforeMonth year (month + 1) ≤ offset
    · exact ⟨month + 1, ⟨by omega, hle⟩, hreached, hlt⟩
    · have hend := daysBeforeMonth_succ year hpos
      exact ih (by omega) (by omega)

/-- Every day of a year lies in a month. -/
theorem exists_month (year : Int) {offset : Nat} (h : offset < yearLength year) :
    ∃ month, IsMonth month ∧ daysBeforeMonth year month ≤ offset ∧
      offset < daysBeforeMonth year month + daysInMonth (some year) month := by
  rw [yearLength_eq] at h
  exact exists_month_upTo year (by omega) le_rfl h

/-! ## Years -/

/-- The year after a year. There is no year zero. -/
def nextYear (year : Int) : Int := if year = -1 then 1 else year + 1

theorem nextYear_ne_zero (year : Int) : nextYear year ≠ 0 := by
  unfold nextYear
  split <;> omega

theorem lt_nextYear (year : Int) : year < nextYear year := by
  unfold nextYear
  split <;> omega

/-- No year lies between a year and the next one. -/
theorem nextYear_le {a b : Int} (hb : b ≠ 0) (h : a < b) : nextYear a ≤ b := by
  unfold nextYear
  split <;> omega

theorem daysBeforeYear_ofNat_succ {n : Nat} (h : 1 ≤ n) :
    daysBeforeYear (n + 1 : Nat) = daysBeforeYear n + yearLength n := by
  obtain ⟨k, rfl⟩ := Nat.exists_eq_add_of_le' h
  simp only [daysBeforeYear, Nat.add_sub_cancel, List.range_succ, List.map_append, List.sum_append,
    List.map_cons, List.map_nil, List.sum_cons, List.sum_nil, Nat.cast_add, Nat.cast_one, add_zero]

theorem daysBeforeYear_negSucc_succ (n : Nat) :
    daysBeforeYear (.negSucc n) =
      daysBeforeYear (.negSucc (n + 1)) + yearLength (.negSucc (n + 1)) := by
  have hyear : (.negSucc (n + 1) : Int) = -((n + 1 : Nat) + 1) := by omega
  rw [hyear]
  simp only [daysBeforeYear, List.range_succ (n := n + 1), List.map_append, List.sum_append,
    List.map_cons, List.map_nil, List.sum_cons, List.sum_nil, ← hyear]
  ring

/-- A year ends where the next one begins. -/
theorem daysBeforeYear_nextYear {year : Int} (h : year ≠ 0) :
    daysBeforeYear (nextYear year) = daysBeforeYear year + yearLength year := by
  match year, h with
  | .ofNat (n + 1), _ => exact daysBeforeYear_ofNat_succ (by omega)
  | .negSucc 0, _ => simp [nextYear, daysBeforeYear]
  | .negSucc (n + 1), _ =>
    have hnext : nextYear (.negSucc (n + 1)) = .negSucc n := by
      rw [nextYear, if_neg (by omega)]
      omega
    rw [hnext]
    exact daysBeforeYear_negSucc_succ n

/-- A year ends before any later one begins. The induction is on the years
between them. -/
theorem daysBeforeYear_add_le {a b : Int} (ha : a ≠ 0) (hb : b ≠ 0) (h : a < b) :
    daysBeforeYear a + yearLength a ≤ daysBeforeYear b := by
  induction hn : (b - a).toNat using Nat.strong_induction_on generalizing a with
  | _ n ih =>
    have hstep := daysBeforeYear_nextYear ha
    have hcloser := lt_nextYear a
    rcases Int.lt_or_eq_of_le (nextYear_le hb h) with hlt | heq
    · have := ih _ (by omega) (nextYear_ne_zero a) hlt rfl
      have := yearLength_pos (nextYear a)
      omega
    · rw [← heq, hstep]

theorem daysBeforeYear_le {a b : Int} (ha : a ≠ 0) (hb : b ≠ 0) (h : a ≤ b) :
    daysBeforeYear a ≤ daysBeforeYear b := by
  rcases lt_or_eq_of_le h with hlt | rfl
  · have := daysBeforeYear_add_le ha hb hlt
    omega
  · exact le_rfl

/-- Every year but zero comes after one. -/
theorem exists_nextYear_eq {year : Int} (h : year ≠ 0) :
    ∃ previous, previous ≠ 0 ∧ nextYear previous = year := by
  by_cases hone : year = 1
  · exact ⟨-1, by decide, by rw [hone, nextYear, if_pos rfl]⟩
  · refine ⟨year - 1, by omega, ?_⟩
    rw [nextYear, if_neg (by omega)]
    omega

/-- Every number lies in a year. The induction goes both ways from the first
day of year 1, and stays in a year until its end is passed. -/
theorem exists_year (number : Int) :
    ∃ year, year ≠ 0 ∧ daysBeforeYear year ≤ number ∧
      number < daysBeforeYear year + yearLength year := by
  induction number using Int.induction_on with
  | zero => exact ⟨1, by decide, by decide, by decide⟩
  | succ n ih =>
    obtain ⟨year, hne, hge, hlt⟩ := ih
    by_cases hsame : (n : Int) + 1 < daysBeforeYear year + yearLength year
    · exact ⟨year, hne, by omega, hsame⟩
    · have hnext := daysBeforeYear_nextYear hne
      have hpos := yearLength_pos (nextYear year)
      exact ⟨nextYear year, nextYear_ne_zero year, by omega, by omega⟩
  | pred n ih =>
    obtain ⟨year, hne, hge, hlt⟩ := ih
    by_cases hsame : daysBeforeYear year ≤ -(n : Int) - 1
    · exact ⟨year, hne, hsame, by omega⟩
    · obtain ⟨previous, hne', rfl⟩ := exists_nextYear_eq hne
      have hprevious := daysBeforeYear_nextYear hne'
      have hpos := yearLength_pos previous
      exact ⟨previous, hne', by omega, by omega⟩

/-! ## Days of the calendar -/

namespace Date

/-- What makes numbers a day of the calendar. -/
structure IsDay (date : Date) : Prop where
  year_ge : -yearBound ≤ date.year
  year_lt : date.year < yearBound
  year_ne : date.year ≠ 0
  month : IsMonth date.month
  day_pos : 1 ≤ date.day
  day_le : date.day ≤ daysInMonth (some date.year) date.month

/-- What makes numbers a day of the calendar, whatever the year is. -/
structure IsCalendarDay (date : Date) : Prop where
  year_ne : date.year ≠ 0
  month : IsMonth date.month
  day_pos : 1 ≤ date.day
  day_le : date.day ≤ daysInMonth (some date.year) date.month

theorem isValid_iff (date : Date) : date.isValid = true ↔ date.IsDay := by
  simp only [isValid, Bool.and_eq_true, decide_eq_true_eq, bne_iff_ne]
  constructor
  · rintro ⟨⟨⟨⟨⟨⟨hge, hlt⟩, hne⟩, hm⟩, hm'⟩, hd⟩, hd'⟩
    exact ⟨hge, hlt, hne, ⟨hm, hm'⟩, hd, hd'⟩
  · rintro ⟨hge, hlt, hne, ⟨hm, hm'⟩, hd, hd'⟩
    exact ⟨⟨⟨⟨⟨⟨hge, hlt⟩, hne⟩, hm⟩, hm'⟩, hd⟩, hd'⟩

variable {date date' : Date}

theorem IsDay.isCalendarDay (h : date.IsDay) : date.IsCalendarDay :=
  ⟨h.year_ne, h.month, h.day_pos, h.day_le⟩

theorem IsCalendarDay.isDay (h : date.IsCalendarDay) (hge : -yearBound ≤ date.year)
    (hlt : date.year < yearBound) : date.IsDay :=
  ⟨hge, hlt, h.year_ne, h.month, h.day_pos, h.day_le⟩

theorem IsCalendarDay.dayNumber_ge (h : date.IsCalendarDay) :
    daysBeforeYear date.year ≤ date.dayNumber := by
  have := h.day_pos
  simp only [dayNumber, firstOfMonth]
  omega

theorem IsCalendarDay.dayNumber_lt (h : date.IsCalendarDay) :
    date.dayNumber < daysBeforeYear date.year + yearLength date.year := by
  have := daysBeforeMonth_add_le date.year h.month
  have := h.day_le
  simp only [dayNumber, firstOfMonth]
  omega

/-- An earlier day has a smaller number: its year ends before the later year
begins, or else its month before the later month. -/
theorem IsCalendarDay.dayNumber_lt_of_order (h : date.IsCalendarDay) (h' : date'.IsCalendarDay)
    (hlt : date.order date' = .lt) : date.dayNumber < date'.dayNumber := by
  simp only [order, Ordering.then_eq_lt, Int.compare_eq_lt, Nat.compare_eq_lt, Int.compare_eq_eq,
    Nat.compare_eq_eq] at hlt
  rcases hlt with hyear | ⟨hyear, hmonth | ⟨hmonth, hday⟩⟩
  · have := daysBeforeYear_add_le h.year_ne h'.year_ne hyear
    have := h.dayNumber_lt
    have := h'.dayNumber_ge
    omega
  · have := daysBeforeMonth_mono date.year h.month.1 hmonth
    have := h.day_le
    have := h'.day_pos
    simp only [dayNumber, firstOfMonth, ← hyear]
    omega
  · simp only [dayNumber, ← hyear, ← hmonth]
    omega

theorem order_eq_eq (hord : date.order date' = .eq) : date = date' := by
  simp only [order, Ordering.then_eq_eq, Int.compare_eq_eq, Nat.compare_eq_eq] at hord
  obtain ⟨hyear, hmonth, hday⟩ := hord
  cases date
  cases date'
  simp_all

instance : Std.TransCmp Date.order :=
  inferInstanceAs (Std.TransCmp (compareLex (compareOn Date.year)
    (compareLex (compareOn Date.month) (compareOn Date.day))))

/-- The order of days is that of their numbers. -/
theorem IsCalendarDay.order_eq_compare_dayNumber (h : date.IsCalendarDay)
    (h' : date'.IsCalendarDay) : date.order date' = compare date.dayNumber date'.dayNumber := by
  cases hord : date.order date' with
  | lt => exact (Int.compare_eq_lt.mpr (h.dayNumber_lt_of_order h' hord)).symm
  | eq => rw [order_eq_eq hord, Int.compare_eq_eq.mpr rfl]
  | gt =>
    have := h'.dayNumber_lt_of_order h (Std.OrientedCmp.lt_of_gt hord)
    exact (Int.compare_eq_gt.mpr this).symm

theorem IsCalendarDay.year_le_of_dayNumber_le (h : date.IsCalendarDay) (h' : date'.IsCalendarDay)
    (hle : date.dayNumber ≤ date'.dayNumber) : date.year ≤ date'.year := by
  by_contra hlt
  have := daysBeforeYear_add_le h'.year_ne h.year_ne (not_le.mp hlt)
  have := h'.dayNumber_lt
  have := h.dayNumber_ge
  omega

/-- A day lies in the year that has its number. -/
theorem IsCalendarDay.year_eq {year : Int} (h : date.IsCalendarDay) (hyear : year ≠ 0)
    (hge : daysBeforeYear year ≤ date.dayNumber)
    (hlt : date.dayNumber < daysBeforeYear year + yearLength year) : date.year = year := by
  have hfirst := h.dayNumber_ge
  have hlast := h.dayNumber_lt
  rcases lt_trichotomy date.year year with hbefore | heq | hafter
  · have := daysBeforeYear_add_le h.year_ne hyear hbefore
    omega
  · exact heq
  · have := daysBeforeYear_add_le hyear h.year_ne hafter
    omega

/-- Every number is that of a day, if years are not bounded. -/
theorem exists_isCalendarDay (number : Int) :
    ∃ date : Date, date.IsCalendarDay ∧ date.dayNumber = number := by
  obtain ⟨year, hyear, hge, hlt⟩ := exists_year number
  obtain ⟨offset, rfl⟩ : ∃ offset : Nat, number = daysBeforeYear year + offset :=
    ⟨(number - daysBeforeYear year).toNat, by omega⟩
  obtain ⟨month, hmonth, hge', hlt'⟩ := exists_month year (by omega : offset < yearLength year)
  have hle : offset - daysBeforeMonth year month + 1 ≤ daysInMonth (some year) month := by omega
  refine ⟨⟨year, month, offset - daysBeforeMonth year month + 1⟩,
    ⟨hyear, hmonth, Nat.le_add_left 1 _, hle⟩, ?_⟩
  simp only [dayNumber, firstOfMonth]
  omega

/-- No two days have one number. -/
theorem IsCalendarDay.eq_of_dayNumber_eq (h : date.IsCalendarDay) (h' : date'.IsCalendarDay)
    (hnumber : date.dayNumber = date'.dayNumber) : date = date' := by
  apply order_eq_eq
  rw [h.order_eq_compare_dayNumber h', Int.compare_eq_eq]
  exact hnumber

end Date

end SimpleTypes
