import SimpleTypes.Proofs.Time.DayMoves
import SimpleTypes.Time.Moment

/-!
# Moves

Moments moved by days. A move walks over whole months, forward or back, with
the days that are left counted from the first of the month.

* `Date.Walks`: the rounds of the two walks, with no measure that bounds them.
* `Date.IsDay.walks_iff`: every walk ends, and its end is that of the move.
* `Moment.addDays?_isExact`: moves of moments end on the right day, add up and
  can be taken back.
-/

namespace SimpleTypes

namespace Date

/-! ## Walks -/

/-- The walk from a month with a number of days to go, counted from its first.
Forward it leaves the month if the days pass its end. Back it enters the
preceding month if there are no days. It ends in the month that has the day, or
without a day where the calendar has no further month. -/
inductive Walks : Int → Nat → Int → Option Date → Prop
  | arrives {year : Int} {month : Nat} {day : Int} (hpos : 1 ≤ day)
      (hle : day ≤ daysInMonth (some year) month) :
      Walks year month day (some ⟨year, month, day.toNat⟩)
  | onward {year year' : Int} {month month' : Nat} {day : Int} {reached : Option Date}
      (hpast : daysInMonth (some year) month < day)
      (hnext : followingMonth? year month = some (year', month'))
      (hrest : Walks year' month' (day - daysInMonth (some year) month) reached) :
      Walks year month day reached
  | pastEnd {year : Int} {month : Nat} {day : Int} (hpast : daysInMonth (some year) month < day)
      (hend : followingMonth? year month = none) : Walks year month day none
  | back {year year' : Int} {month month' : Nat} {day : Int} {reached : Option Date}
      (hbefore : day < 1) (hprevious : precedingMonth? year month = some (year', month'))
      (hrest : Walks year' month' (day + daysInMonth (some year') month') reached) :
      Walks year month day reached
  | beforeStart {year : Int} {month : Nat} {day : Int} (hbefore : day < 1)
      (hstart : precedingMonth? year month = none) : Walks year month day none

variable {date : Date} {year : Int} {month : Nat} {day days : Int}
  {reached reached' : Option Date}

/-- A walk has one end: in every month there is one round that it can take. -/
theorem Walks.unique (h : Walks year month day reached) (h' : Walks year month day reached') :
    reached = reached' := by
  induction h with
  | arrives hpos hle =>
    cases h' with
    | arrives => rfl
    | onward hpast | pastEnd hpast => omega
    | back hbefore | beforeStart hbefore => omega
  | onward hpast hnext hrest ih =>
    cases h' with
    | arrives _ hle => omega
    | onward _ hnext' hrest' =>
      rw [hnext, Option.some.injEq, Prod.mk.injEq] at hnext'
      obtain ⟨rfl, rfl⟩ := hnext'
      exact ih hrest'
    | pastEnd _ hend => simp [hnext] at hend
    | back hbefore | beforeStart hbefore => omega
  | pastEnd hpast hend =>
    cases h' with
    | arrives _ hle => omega
    | onward _ hnext => simp [hend] at hnext
    | pastEnd => rfl
    | back hbefore | beforeStart hbefore => omega
  | back hbefore hprevious hrest ih =>
    cases h' with
    | arrives hpos => omega
    | onward hpast | pastEnd hpast => omega
    | back _ hprevious' hrest' =>
      rw [hprevious, Option.some.injEq, Prod.mk.injEq] at hprevious'
      obtain ⟨rfl, rfl⟩ := hprevious'
      exact ih hrest'
    | beforeStart _ hstart => simp [hprevious] at hstart
  | beforeStart hbefore hstart =>
    cases h' with
    | arrives hpos => omega
    | onward hpast | pastEnd hpast => omega
    | back _ hprevious => simp [hstart] at hprevious
    | beforeStart => rfl

/-- From a month of the calendar the walk forward ends, since no month is
empty. -/
theorem forward?_walks (day : Nat) (hy : IsYear year) (hm : IsMonth month) (hd : 1 ≤ day) :
    Walks year month day (forward? year month day) := by
  fun_induction forward? year month day with
  | case1 year month day length hstop =>
    have hlength := daysInMonth_pos (some year) hm
    simp only [length] at hstop
    exact .arrives (by omega) (by omega)
  | case2 year month day length hgo year' month' hnext ih =>
    obtain ⟨hy', hm', -⟩ := followingMonth?_eq_some hy hm hnext
    simp only [length] at hgo ih
    have hrest := ih hy' hm' (by omega)
    rw [Int.ofNat_sub (by omega)] at hrest
    exact .onward (by omega) hnext hrest
  | case3 year month day length hgo hend =>
    simp only [length] at hgo
    exact .pastEnd (by omega) hend

/-- From a month of the calendar the walk back ends. -/
theorem backward?_walks (days : Nat) (hy : IsYear year) (hm : IsMonth month) :
    Walks year month (-days) (backward? year month days) := by
  fun_induction backward? year month days with
  | case1 year month days year' month' hprevious length hstop =>
    obtain ⟨-, hm', -⟩ := precedingMonth?_eq_some hy hm hprevious
    have hlength := daysInMonth_pos (some year') hm'
    simp only [length] at hstop ⊢
    have hday : daysInMonth (some year') month' - days
        = (-(days : Int) + daysInMonth (some year') month').toNat := by omega
    rw [hday]
    exact .back (by omega) hprevious (.arrives (by omega) (by omega))
  | case2 year month days year' month' hprevious length hgo ih =>
    obtain ⟨hy', hm', -⟩ := precedingMonth?_eq_some hy hm hprevious
    simp only [length] at hgo ih ⊢
    have hleft : -((days - daysInMonth (some year') month' : Nat) : Int)
        = -(days : Int) + daysInMonth (some year') month' := by omega
    have hrest := ih hy' hm'
    rw [hleft] at hrest
    exact .back (by omega) hprevious hrest
  | case3 year month days hstart => exact .beforeStart (by omega) hstart

/-- The walk of a move ends, and where it ends is the outcome of the move. -/
theorem IsDay.walks_iff (h : date.IsDay) (hcount : isDayCount (date.day + days) = true) :
    Walks date.year date.month (date.day + days) reached ↔ reached = date.addDays? days := by
  have hwalk : Walks date.year date.month (date.day + days) (date.addDays? days) := by
    rw [addDays?_of_isDayCount hcount]
    split
    case isTrue hpos =>
      have hforward := forward?_walks (date.day + days).toNat h.isYear h.month (by omega)
      rwa [Int.toNat_of_nonneg (by omega)] at hforward
    case isFalse hneg =>
      have hback := backward?_walks (-(date.day + days)).toNat h.isYear h.month
      rwa [Int.toNat_of_nonneg (by omega), neg_neg] at hback
  exact ⟨fun hreached => hreached.unique hwalk, fun heq => heq ▸ hwalk⟩

end Date

/-! ## Moves of moments -/

namespace Fields

variable {fields : Fields} {date : Date}

theorem date?_onDay (h : fields.date? = some date) (day : Date) :
    (fields.onDay day).date? = some day := by
  cases fields <;> first | rfl | cases h

theorem onDay_onDay (day day' : Date) : (fields.onDay day).onDay day' = fields.onDay day' := by
  cases fields <;> rfl

theorem onDay_date (h : fields.date? = some date) : fields.onDay date = fields := by
  cases fields <;> cases h <;> rfl

theorem kind_onDay (day : Date) : (fields.onDay day).kind = fields.kind := by
  cases fields <;> rfl

theorem clock?_onDay (day : Date) : (fields.onDay day).clock? = fields.clock? := by
  cases fields <;> rfl

end Fields

namespace Moment

open Date

variable {moment moved : Moment} {date middle : Date} {days : Int}

theorem addDays?_eq_map (hdate : moment.fields.date? = some date) :
    moment.addDays? days =
      (date.addDays? days).map fun day => { moment with fields := moment.fields.onDay day } := by
  simp only [addDays?, hdate]

/-- A moved moment is the moment on the day to which its date is moved. -/
theorem addDays?_eq_some_iff (hdate : moment.fields.date? = some date) :
    moment.addDays? days = some moved ↔
      ∃ day, date.addDays? days = some day ∧
        moved = { moment with fields := moment.fields.onDay day } := by
  simp only [addDays?_eq_map hdate, Option.map_eq_some_iff, @eq_comm _ moved]

/-- What it is for a moment with a date to be moved by days, where the calendar
without bounds has the day `target`. -/
structure IsExactMove (moment : Moment) (date target : Date) (days : Int) : Prop where
  isCalendarDay : target.IsCalendarDay
  number : target.dayNumber = date.dayNumber + days
  only : ∀ other : Date, other.IsCalendarDay → other.dayNumber = target.dayNumber → other = target
  /-- The walk ends, and it reaches the date of the moved moment. -/
  ends : ∀ reached, Walks date.year date.month (date.day + days) reached ↔
    reached = (moment.addDays? days).bind fun moved => moved.fields.date?
  fails : moment.addDays? days = none ↔ ¬(-yearBound ≤ target.year ∧ target.year < yearBound)
  arrives : ∀ moved, moment.addDays? days = some moved →
    moved.fields.date? = some target ∧ target.IsDay
  keeps : ∀ moved, moment.addDays? days = some moved →
    moved.kind = moment.kind ∧ moved.fields.clock? = moment.fields.clock? ∧
      moved.zone = moment.zone

theorem exists_isExactMove (hdate : moment.fields.date? = some date) (hday : date.IsDay)
    (hcount : isDayCount (date.day + days) = true) :
    ∃ target, IsExactMove moment date target days := by
  obtain ⟨target, htarget, hnumber⟩ := exists_isCalendarDay (date.dayNumber + days)
  have hmove := hday.addDays?_eq hcount htarget hnumber
  refine ⟨target, htarget, hnumber, fun other h heq => h.eq_of_dayNumber_eq htarget heq,
    fun reached => ?ends, ?fails, fun moved hmoved => ?arrives, fun moved hmoved => ?keeps⟩
  case ends =>
    rw [hday.walks_iff hcount, addDays?_eq_map hdate, Option.bind_map]
    simp only [Function.comp_def, Fields.date?_onDay hdate, Option.bind_fun_some]
  case fails =>
    rw [addDays?_eq_map hdate, Option.map_eq_none_iff, hmove, ite_eq_right_iff]
    simp only [reduceCtorEq, imp_false]
  case arrives =>
    obtain ⟨day, hreached, rfl⟩ := (addDays?_eq_some_iff hdate).mp hmoved
    rw [hmove, Option.ite_none_right_eq_some, Option.some.injEq] at hreached
    obtain ⟨⟨hge, hlt⟩, rfl⟩ := hreached
    exact ⟨Fields.date?_onDay hdate target, htarget.isDay hge hlt⟩
  case keeps =>
    obtain ⟨day, -, rfl⟩ := (addDays?_eq_some_iff hdate).mp hmoved
    exact ⟨Fields.kind_onDay day, Fields.clock?_onDay day, rfl⟩

theorem addDays?_add {a b : Int} (hdate : moment.fields.date? = some date) (hday : date.IsDay)
    (hmoved : moment.addDays? a = some moved) (hmiddle : moved.fields.date? = some middle)
    (hcount : isDayCount (middle.day + b) = true)
    (hcount' : isDayCount (date.day + (a + b)) = true) :
    moved.addDays? b = moment.addDays? (a + b) := by
  obtain ⟨day, hreached, rfl⟩ := (addDays?_eq_some_iff hdate).mp hmoved
  obtain rfl : day = middle := Option.some.inj ((Fields.date?_onDay hdate day).symm.trans hmiddle)
  rw [addDays?_eq_map hmiddle, addDays?_eq_map hdate, hday.addDays?_add hreached hcount hcount']
  simp only [Fields.onDay_onDay]

theorem addDays?_zero (hdate : moment.fields.date? = some date) (hday : date.IsDay) :
    moment.addDays? 0 = some moment := by
  rw [addDays?_eq_map hdate, hday.addDays?_zero, Option.map_some, Fields.onDay_date hdate]

/-- Moves by any number of days that can be counted are exact. They end on the
day with the right number and change nothing but the date, and they fail only if
the year of that day is out of range. Two of them add up to one, and one is
taken back by its opposite. -/
theorem addDays?_isExact (hdate : moment.fields.date? = some date) (hday : date.IsDay) :
    (∀ days, isDayCount (date.day + days) = true →
      ∃ target, IsExactMove moment date target days) ∧
    (∀ a b moved middle, moment.addDays? a = some moved → moved.fields.date? = some middle →
      isDayCount (middle.day + b) = true → isDayCount (date.day + (a + b)) = true →
      moved.addDays? b = moment.addDays? (a + b)) ∧
    ∀ days moved middle, moment.addDays? days = some moved → moved.fields.date? = some middle →
      isDayCount (middle.day + -days) = true → moved.addDays? (-days) = some moment := by
  refine ⟨fun days hcount => exists_isExactMove hdate hday hcount,
    fun a b moved middle hmoved hmiddle => addDays?_add hdate hday hmoved hmiddle, ?_⟩
  intro days moved middle hmoved hmiddle hcount
  have hback : isDayCount (date.day + (days + -days)) = true := by
    rw [Int.add_right_neg]
    exact hday.isDayCount_add 0 (by omega) (by omega)
  rw [addDays?_add hdate hday hmoved hmiddle hcount hback, Int.add_right_neg,
    addDays?_zero hdate hday]

/-- Half an hour before the midnight that ends the year -1, in a zone west of
UTC, a day later and back again. -/
theorem addDays?_isExact_newYear :
    ∃ moved,
      (⟨.dateTime ⟨-1, 12, 31⟩ ⟨23, 30, 0, ['5']⟩, some (-60)⟩ : Moment).addDays? 1 = some moved ∧
      moved.fields.date? = some ⟨1, 1, 1⟩ ∧
      moved.fields.clock? = some ⟨23, 30, 0, ['5']⟩ ∧ moved.zone = some (-60) ∧
      moved.addDays? (-1) = some ⟨.dateTime ⟨-1, 12, 31⟩ ⟨23, 30, 0, ['5']⟩, some (-60)⟩ := by
  have hday : (⟨-1, 12, 31⟩ : Date).IsDay := (isValid_iff _).mp (by decide)
  have hnext : (⟨1, 1, 1⟩ : Date).IsDay := (isValid_iff _).mp (by decide)
  obtain ⟨hmoves, -, hback⟩ := @addDays?_isExact
    ⟨.dateTime ⟨-1, 12, 31⟩ ⟨23, 30, 0, ['5']⟩, some (-60)⟩ ⟨-1, 12, 31⟩ rfl hday
  obtain ⟨target, hmove⟩ := hmoves 1 (hday.isDayCount_add 1 (by decide) (by decide))
  obtain rfl : ⟨1, 1, 1⟩ = target := by
    refine hmove.only _ hnext.isCalendarDay ?_
    rw [hmove.number]
    decide
  obtain ⟨moved, hmoved⟩ := Option.ne_none_iff_exists'.mp
    (mt hmove.fails.mp (not_not_intro ⟨by decide, by decide⟩))
  obtain ⟨hdate, -⟩ := hmove.arrives moved hmoved
  obtain ⟨-, hclock, hzone⟩ := hmove.keeps moved hmoved
  exact ⟨moved, hmoved, hdate, hclock, hzone, hback 1 moved _ hmoved hdate
    (hnext.isDayCount_add (-1) (by decide) (by decide))⟩

end Moment

end SimpleTypes
