import SimpleTypes.Proofs.Time.DayNumber

/-!
# Days moved by days

What becomes of a date that is moved, in terms of day numbers. The calendar has
days only in years of 64 bits.

* `Date.IsDay.addDays?_isDayOf`: a date that is moved becomes the day whose
  number differs by the days of the move.
* `Date.IsDay.addDays?_eq`: this is the only such day of any year, and the move
  fails only if its year is out of range.
* `Date.IsDay.addDays?_add`: two moves are one.
* `Date.IsDay.isSome_addDays?_one_iff`: the day after a day, and the year in
  which it lies.
-/

namespace SimpleTypes

namespace Date

/-! ## Years and months in range -/

/-- Whether a number is that of a year of the calendar. -/
structure IsYear (year : Int) : Prop where
  ge : -yearBound ≤ year
  lt : year < yearBound
  ne : year ≠ 0

variable {date date' target : Date} {year year' : Int} {month month' : Nat} {days : Int}

theorem IsDay.isYear (h : date.IsDay) : IsYear date.year :=
  ⟨h.year_ge, h.year_lt, h.year_ne⟩

theorem followingYear?_eq_some (hy : IsYear year) (h : followingYear? year = some year') :
    IsYear year' ∧ year' = nextYear year := by
  simp only [followingYear?, Option.ite_none_right_eq_some, Option.some.injEq] at h
  obtain ⟨hlt, rfl⟩ := h
  exact ⟨⟨hy.ge.trans (lt_nextYear year).le, hlt, nextYear_ne_zero year⟩, rfl⟩

theorem followingYear?_eq_none (hy : IsYear year) (h : followingYear? year = none) :
    nextYear year = yearBound := by
  have hlt := hy.lt
  simp only [followingYear?, ite_eq_right_iff, reduceCtorEq, imp_false, not_lt] at h
  change yearBound ≤ nextYear year at h
  simp only [nextYear, yearBound] at *
  split at h <;> omega

theorem precedingYear?_eq_some (hy : IsYear year) (h : precedingYear? year = some year') :
    IsYear year' ∧ year = nextYear year' := by
  have hlt := hy.lt
  have hne := hy.ne
  simp only [precedingYear?, Option.ite_none_right_eq_some, Option.some.injEq] at h
  obtain ⟨hle, rfl⟩ := h
  simp only [nextYear, yearBound] at *
  by_cases hone : year = 1
  · subst hone
    exact ⟨⟨by decide, by decide, by decide⟩, by decide⟩
  · simp only [hone, if_false] at hle ⊢
    refine ⟨⟨hle, ?_, ?_⟩, ?_⟩
    · simp only [yearBound]
      omega
    · omega
    · rw [if_neg (by omega)]
      omega

theorem precedingYear?_eq_none (hy : IsYear year) (h : precedingYear? year = none) :
    year = -yearBound := by
  have hge := hy.ge
  simp only [precedingYear?, ite_eq_right_iff, reduceCtorEq, imp_false, not_le] at h
  simp only [yearBound] at *
  split at h <;> omega

/-- A month ends where the following one begins. -/
theorem followingMonth?_eq_some (hy : IsYear year) (hm : IsMonth month)
    (h : followingMonth? year month = some (year', month')) :
    IsYear year' ∧ IsMonth month' ∧
      firstOfMonth year' month' = firstOfMonth year month + daysInMonth (some year) month := by
  simp only [followingMonth?] at h
  split at h
  case isTrue hlt =>
    obtain ⟨rfl, rfl⟩ := by simpa using h
    have := daysBeforeMonth_succ year hm.1
    refine ⟨hy, ⟨by omega, by omega⟩, ?_⟩
    simp only [firstOfMonth]
    omega
  case isFalse hge =>
    obtain ⟨next, hnext, heq⟩ := Option.map_eq_some_iff.mp h
    obtain ⟨rfl, rfl⟩ := by simpa using heq
    obtain ⟨hy', rfl⟩ := followingYear?_eq_some hy hnext
    obtain rfl : month = 12 := by have := hm.2; omega
    have := daysBeforeYear_nextYear hy.ne
    have := yearLength_eq year
    refine ⟨hy', ⟨by omega, by omega⟩, ?_⟩
    simp only [firstOfMonth, daysBeforeMonth_one]
    omega

theorem followingMonth?_eq_none (hy : IsYear year) (hm : IsMonth month)
    (h : followingMonth? year month = none) :
    daysBeforeYear yearBound = firstOfMonth year month + daysInMonth (some year) month := by
  simp only [followingMonth?] at h
  split at h
  case isTrue => cases h
  case isFalse hge =>
    obtain rfl : month = 12 := by have := hm.2; omega
    rw [← followingYear?_eq_none hy (Option.map_eq_none_iff.mp h), daysBeforeYear_nextYear hy.ne,
      yearLength_eq, firstOfMonth]
    omega

/-- A month begins where the preceding one ends. -/
theorem precedingMonth?_eq_some (hy : IsYear year) (hm : IsMonth month)
    (h : precedingMonth? year month = some (year', month')) :
    IsYear year' ∧ IsMonth month' ∧
      firstOfMonth year month = firstOfMonth year' month' + daysInMonth (some year') month' := by
  simp only [precedingMonth?] at h
  split at h
  case isTrue hlt =>
    obtain ⟨rfl, rfl⟩ := by simpa using h
    have hm' := hm.2
    have := daysBeforeMonth_succ year (by omega : 1 ≤ month - 1)
    rw [Nat.sub_add_cancel hm.1] at this
    refine ⟨hy, ⟨by omega, by omega⟩, ?_⟩
    simp only [firstOfMonth]
    omega
  case isFalse hge =>
    obtain ⟨previous, hprevious, heq⟩ := Option.map_eq_some_iff.mp h
    obtain ⟨rfl, rfl⟩ := by simpa using heq
    obtain ⟨hy', rfl⟩ := precedingYear?_eq_some hy hprevious
    obtain rfl : month = 1 := by have := hm.1; omega
    have := daysBeforeYear_nextYear hy'.ne
    have := yearLength_eq previous
    refine ⟨hy', ⟨by omega, by omega⟩, ?_⟩
    simp only [firstOfMonth, daysBeforeMonth_one]
    omega

theorem precedingMonth?_eq_none (hy : IsYear year) (hm : IsMonth month)
    (h : precedingMonth? year month = none) :
    daysBeforeYear (-yearBound) = firstOfMonth year month := by
  simp only [precedingMonth?] at h
  split at h
  case isTrue => cases h
  case isFalse hge =>
    obtain rfl : month = 1 := by have := hm.1; omega
    rw [← precedingYear?_eq_none hy (Option.map_eq_none_iff.mp h), firstOfMonth,
      daysBeforeMonth_one]
    omega

/-! ## Walks over months -/

/-- Whether a date, or its absence, is what the calendar has at a number. It has
no day before the year `-yearBound` and none from the year `yearBound` on. -/
def IsDayOf (number : Int) : Option Date → Prop
  | some date => date.IsDay ∧ date.dayNumber = number
  | none => number < daysBeforeYear (-yearBound) ∨ daysBeforeYear yearBound ≤ number

/-- Walking forward from the first of a month. The walk passes whole months, and
the number it looks for stays the same. -/
theorem forward?_isDayOf (day : Nat) (hy : IsYear year) (hm : IsMonth month) (hd : 1 ≤ day) :
    IsDayOf (firstOfMonth year month + (day - 1)) (forward? year month day) := by
  fun_induction forward? year month day with
  | case1 year month day length hstop =>
    have hlen := daysInMonth_pos (some year) hm
    have hle : day ≤ daysInMonth (some year) month := by
      rcases hstop with hle | hzero
      · exact hle
      · simp only [length] at hzero
        omega
    exact ⟨⟨hy.ge, hy.lt, hy.ne, hm, hd, hle⟩, rfl⟩
  | case2 year month day length hgo year' month' hnext ih =>
    -- The month that is passed moves from the count of days to the first of the month.
    obtain ⟨hy', hm', hfirst⟩ := followingMonth?_eq_some hy hm hnext
    have := ih hy' hm' (by omega)
    rw [hfirst] at this
    rw [show firstOfMonth year month + ((day : Int) - 1) = firstOfMonth year month
      + daysInMonth (some year) month + ((day - length : Nat) - 1 : Int) by
        simp only [length] at hgo ⊢; omega]
    exact this
  | case3 year month day length hgo hend =>
    have := followingMonth?_eq_none hy hm hend
    refine .inr ?_
    simp only [length] at hgo
    omega

/-- Walking back from the last of the preceding month. -/
theorem backward?_isDayOf (days : Nat) (hy : IsYear year) (hm : IsMonth month) :
    IsDayOf (firstOfMonth year month - 1 - days) (backward? year month days) := by
  fun_induction backward? year month days with
  | case1 year month days year' month' hprevious length hstop =>
    obtain ⟨hy', hm', hfirst⟩ := precedingMonth?_eq_some hy hm hprevious
    have hlen := daysInMonth_pos (some year') hm'
    have hlt : days < daysInMonth (some year') month' := by
      rcases hstop with hlt | hzero
      · exact hlt
      · simp only [length] at hzero
        omega
    refine ⟨⟨hy'.ge, hy'.lt, hy'.ne, hm', ?_, ?_⟩, ?_⟩
    · simp only [length]
      omega
    · simp only [length]
      omega
    · simp only [dayNumber, length]
      omega
  | case2 year month days year' month' hprevious length hgo ih =>
    obtain ⟨hy', hm', hfirst⟩ := precedingMonth?_eq_some hy hm hprevious
    have := ih hy' hm'
    rw [show firstOfMonth year month - 1 - (days : Int) = firstOfMonth year' month' - 1
      - ((days - length : Nat) : Int) by simp only [length] at hgo ⊢; omega]
    exact this
  | case3 year month days hend =>
    have := precedingMonth?_eq_none hy hm hend
    exact .inl (by omega)

/-! ## Moves -/

theorem isDayCount_iff {count : Int} :
    isDayCount count = true ↔ -yearBound ≤ count ∧ count < yearBound := by
  unfold isDayCount
  rw [Bool.and_eq_true, decide_eq_true_eq, decide_eq_true_eq]

theorem isDayCount_of_addDays? (hmoved : date.addDays? days = some date') :
    isDayCount (date.day + days) = true := by
  by_contra hout
  simp [addDays?, hout] at hmoved

theorem addDays?_of_isDayCount (hcount : isDayCount (date.day + days) = true) :
    date.addDays? days =
      if 1 ≤ date.day + days then forward? date.year date.month (date.day + days).toNat
      else backward? date.year date.month (-(date.day + days)).toNat := by
  simp only [addDays?, hcount, Bool.not_true, Bool.false_eq_true, if_false]

/-- A move by some days is never too long to be counted. -/
theorem IsDay.isDayCount_add (h : date.IsDay) (days : Int) (hmin : -28 ≤ days) (hmax : days ≤ 28) :
    isDayCount (date.day + days) = true := by
  have hle : date.day ≤ 31 := h.day_le.trans (daysInMonth_le _ _)
  have hpos := h.day_pos
  have hbound : yearBound = 9223372036854775808 := rfl
  rw [isDayCount_iff]
  omega

/-- A date that is moved becomes the day whose number differs by the days of the
move. It fails only if the calendar has no such day. -/
theorem IsDay.addDays?_isDayOf (h : date.IsDay) (days : Int)
    (hcount : isDayCount (date.day + days) = true) :
    IsDayOf (date.dayNumber + days) (date.addDays? days) := by
  rw [addDays?_of_isDayCount hcount]
  split
  case isTrue hpos =>
    have := forward?_isDayOf (date.day + days).toNat h.isYear h.month (by omega)
    rw [show date.dayNumber + days = firstOfMonth date.year date.month
      + (((date.day + days).toNat : Int) - 1) by simp only [dayNumber]; omega]
    exact this
  case isFalse hneg =>
    have := backward?_isDayOf (-(date.day + days)).toNat h.isYear h.month
    rw [show date.dayNumber + days = firstOfMonth date.year date.month - 1
      - ((-(date.day + days)).toNat : Int) by simp only [dayNumber]; omega]
    exact this

/-- A date is moved to the day that has the number, in whatever year that is. A
year out of range is the only reason for a move to fail. -/
theorem IsDay.addDays?_eq (h : date.IsDay) (hcount : isDayCount (date.day + days) = true)
    (htarget : target.IsCalendarDay) (hnumber : target.dayNumber = date.dayNumber + days) :
    date.addDays? days =
      if -yearBound ≤ target.year ∧ target.year < yearBound then some target else none := by
  have hmoved := h.addDays?_isDayOf days hcount
  cases hreached : date.addDays? days with
  | some reached =>
    rw [hreached] at hmoved
    obtain rfl := hmoved.1.isCalendarDay.eq_of_dayNumber_eq htarget (hmoved.2.trans hnumber.symm)
    rw [if_pos ⟨hmoved.1.year_ge, hmoved.1.year_lt⟩]
  | none =>
    rw [hreached, ← hnumber] at hmoved
    rw [if_neg]
    rintro ⟨hge, hlt⟩
    have hfirst := htarget.dayNumber_ge
    have hlast := htarget.dayNumber_lt
    rcases hmoved with hbefore | hafter
    · have := daysBeforeYear_le (by decide) htarget.year_ne hge
      omega
    · have := daysBeforeYear_add_le htarget.year_ne (by decide) hlt
      omega

/-- No days are no move. -/
theorem IsDay.addDays?_zero (h : date.IsDay) : date.addDays? 0 = some date := by
  rw [h.addDays?_eq (h.isDayCount_add 0 (by omega) (by omega)) h.isCalendarDay (by omega),
    if_pos ⟨h.year_ge, h.year_lt⟩]

/-- Two moves one after the other are one move, also where the second fails. -/
theorem IsDay.addDays?_add {a b : Int} (h : date.IsDay) (hmoved : date.addDays? a = some date')
    (hcount : isDayCount (date'.day + b) = true)
    (hcount' : isDayCount (date.day + (a + b)) = true) :
    date'.addDays? b = date.addDays? (a + b) := by
  have hday := h.addDays?_isDayOf a (isDayCount_of_addDays? hmoved)
  rw [hmoved] at hday
  obtain ⟨target, htarget, hnumber⟩ := exists_isCalendarDay (date.dayNumber + (a + b))
  rw [h.addDays?_eq hcount' htarget hnumber,
    hday.1.addDays?_eq hcount htarget (by rw [hnumber, hday.2, add_assoc])]

/-- Away from the ends of the calendar a date can be moved by less than a
year. -/
theorem IsDay.addDays?_eq_some (h : date.IsDay) (hfirst : -yearBound < date.year)
    (hlast : date.year + 1 < yearBound) (days : Int) (hmin : -28 ≤ days) (hmax : days ≤ 28) :
    ∃ moved, date.addDays? days = some moved ∧ moved.IsDay ∧
      moved.dayNumber = date.dayNumber + days := by
  have hmoved := h.addDays?_isDayOf days (h.isDayCount_add days hmin hmax)
  cases hd : date.addDays? days with
  | some moved =>
    rw [hd] at hmoved
    exact ⟨moved, rfl, hmoved⟩
  | none =>
    rw [hd] at hmoved
    have hbound : yearBound = 9223372036854775808 := rfl
    have hge := h.isCalendarDay.dayNumber_ge
    have hlt := h.isCalendarDay.dayNumber_lt
    rcases hmoved with hbefore | hafter
    · have := daysBeforeYear_add_le (a := -yearBound) (by omega) h.year_ne hfirst
      have := yearLength_pos (-yearBound)
      omega
    · -- The year after the date's own still lies below the end.
      have hnext : nextYear date.year < yearBound := by
        unfold nextYear
        split <;> omega
      have := daysBeforeYear_nextYear h.year_ne
      have := daysBeforeYear_add_le (nextYear_ne_zero date.year) (by omega) hnext
      have := yearLength_pos (nextYear date.year)
      omega

/-! ## The next day -/

/-- The year of the day after a day. -/
def yearOfNext (date : Date) : Int :=
  if date.month = 12 ∧ date.day = 31 then nextYear date.year else date.year

/-- The last of December is the day before a new year, and no other day is. -/
theorem IsCalendarDay.dayNumber_succ_eq_iff (h : date.IsCalendarDay) :
    date.dayNumber + 1 = daysBeforeYear (nextYear date.year) ↔ date.month = 12 ∧ date.day = 31 := by
  have hyear := daysBeforeYear_nextYear h.year_ne
  have hlast := yearLength_eq date.year
  have hdecember : daysInMonth (some date.year) 12 = 31 := rfl
  have hday := h.day_le
  rcases Nat.lt_or_eq_of_le h.month.2 with hmonth | hmonth
  · have := daysBeforeMonth_mono date.year h.month.1 hmonth
    simp only [dayNumber, firstOfMonth]
    omega
  · rw [hmonth, hdecember] at hday
    simp only [dayNumber, firstOfMonth, hmonth, true_and]
    omega

/-- The day after a day lies in the year that `yearOfNext` tells. -/
theorem IsCalendarDay.year_eq_yearOfNext (h : date.IsCalendarDay) (h' : date'.IsCalendarDay)
    (hnumber : date'.dayNumber = date.dayNumber + 1) : date'.year = date.yearOfNext := by
  have hyear := daysBeforeYear_nextYear h.year_ne
  rw [yearOfNext]
  split
  case isTrue hlast =>
    rw [← h.dayNumber_succ_eq_iff, ← hnumber] at hlast
    have hlength := yearLength_pos (nextYear date.year)
    exact h'.year_eq (nextYear_ne_zero date.year) (by omega) (by omega)
  case isFalse hlast =>
    rw [← h.dayNumber_succ_eq_iff, ← hnumber] at hlast
    have hfirst := h.dayNumber_ge
    have hend := h.dayNumber_lt
    exact h'.year_eq h.year_ne (by omega) (by omega)

/-- The next day lies in the same year or in the one after it. -/
theorem IsDay.addDays?_one_year (h : date.IsDay) (hmoved : date.addDays? 1 = some date') :
    date'.IsDay ∧ date.year ≤ date'.year ∧ date'.year ≤ nextYear date.year := by
  have hday := h.addDays?_isDayOf 1 (h.isDayCount_add 1 (by omega) (by omega))
  rw [hmoved] at hday
  have hlater := lt_nextYear date.year
  refine ⟨hday.1, ?_⟩
  rw [h.isCalendarDay.year_eq_yearOfNext hday.1.isCalendarDay hday.2, yearOfNext]
  split <;> omega

/-- A day has a next one unless that would lie in a year that is too large. -/
theorem IsDay.isSome_addDays?_one_iff (h : date.IsDay) :
    (date.addDays? 1).isSome = true ↔ date.yearOfNext < yearBound := by
  obtain ⟨target, htarget, hnumber⟩ := exists_isCalendarDay (date.dayNumber + 1)
  have hge : -yearBound ≤ target.year :=
    h.year_ge.trans (h.isCalendarDay.year_le_of_dayNumber_le htarget (by omega))
  rw [h.addDays?_eq (h.isDayCount_add 1 (by omega) (by omega)) htarget hnumber,
    ← h.isCalendarDay.year_eq_yearOfNext htarget hnumber]
  by_cases hlt : target.year < yearBound
  · exact iff_of_true (by rw [if_pos ⟨hge, hlt⟩]; rfl) hlt
  · exact iff_of_false (by simp [hlt]) hlt

end Date

end SimpleTypes
