import Sipana.Lib.CivilDate

/-!
# Calendars

`java.util.Calendar` in its default, lenient mode, with the calendar system that
`getInstance` normally chooses: Julian before 15 October 1582, Gregorian from
that day on. A calendar is the fields it has computed from an instant; `set`
overwrites the fields it names and leaves the others as they are. The time zone
has a fixed offset.

The instant of the fields of an instant is that instant, and the fields of the
instant of a Gregorian date are those of the date.
-/

namespace Sipana

open CivilDate

/-- An offset from UTC, in milliseconds, that is the same all year. -/
structure TimeZone where
  rawOffset : Int
  bounded : -86400000 < rawOffset ∧ rawOffset < 86400000

inductive Era
  | bce
  | ce
deriving DecidableEq, Repr

@[ext] structure Calendar where
  era : Era
  /-- The year of the era. -/
  year : Int
  /-- January is 0. -/
  month : Int
  dayOfMonth : Int
  hourOfDay : Int
  minute : Int
  second : Int
  millisecond : Int
deriving DecidableEq, Repr

namespace Calendar

/-- 15 October 1582. -/
def gregorianCutover : Int := -141427

/-- The date of a day. -/
def dateOf (day : Int) : Date :=
  if gregorianCutover ≤ day then gregorian.ofDays day else julian.ofDays day

variable (zone : TimeZone)

/-- The calendar after `setTimeInMillis(millis)`. -/
def setTimeInMillis (millis : Int) : Calendar :=
  let localMillis := millis + zone.rawOffset
  let date := dateOf (localMillis / 86400000)
  let timeOfDay := localMillis % 86400000
  -- 1 BCE is the year 0
  { era := if date.year ≤ 0 then .bce else .ce
    year := if date.year ≤ 0 then 1 - date.year else date.year
    month := date.month
    dayOfMonth := date.day
    hourOfDay := timeOfDay / 3600000
    minute := timeOfDay / 60000 % 60
    second := timeOfDay / 1000 % 60
    millisecond := timeOfDay % 1000 }

/-- `Calendar.getInstance()` at the given time. -/
def getInstance (now : Int) : Calendar := setTimeInMillis zone now

/-- `set(year, month, date)`. -/
def setDate (c : Calendar) (year month date : Int) : Calendar :=
  { c with year := year, month := month, dayOfMonth := date }

/-- `set(year, month, date, hourOfDay, minute)`. -/
def setDateTime (c : Calendar) (year month date hourOfDay minute : Int) :
    Calendar :=
  { c with
    year := year, month := month, dayOfMonth := date,
    hourOfDay := hourOfDay, minute := minute }

/-- The year, where 1 BCE is the year 0. -/
def properYear (c : Calendar) : Int :=
  match c.era with
  | .bce => 1 - c.year
  | .ce => c.year

def timeOfDay (c : Calendar) : Int :=
  ((c.hourOfDay * 60 + c.minute) * 60 + c.second) * 1000 + c.millisecond

def date (c : Calendar) : Date := ⟨c.properYear, c.month, c.dayOfMonth⟩

/-- The day of the fields; hours past midnight count as further days. -/
def fixedDate (c : Calendar) : Int :=
  let gfd := gregorian.toDays c.date + c.timeOfDay / 86400000
  let jfd := julian.toDays c.date + c.timeOfDay / 86400000
  -- a Gregorian date before the cutover is read as a Julian one
  if 1582 ≤ c.properYear ∧ gregorianCutover ≤ gfd then gfd else jfd

def getTimeInMillis (c : Calendar) : Int :=
  c.fixedDate * 86400000 + c.timeOfDay % 86400000 - zone.rawOffset

variable {zone}

/-! ## The fields of an instant -/

theorem timeOfDay_setTimeInMillis (millis : Int) :
    (setTimeInMillis zone millis).timeOfDay =
      (millis + zone.rawOffset) % 86400000 := by
  simp only [setTimeInMillis, timeOfDay]
  omega

/-- The milliseconds since the minute began. -/
def sinceMinute (c : Calendar) : Int := c.second * 1000 + c.millisecond

theorem sinceMinute_setTimeInMillis (millis : Int) :
    (setTimeInMillis zone millis).sinceMinute =
      (millis + zone.rawOffset) % 60000 := by
  simp only [setTimeInMillis, sinceMinute]
  omega

theorem date_setTimeInMillis (millis : Int) :
    (setTimeInMillis zone millis).date =
      dateOf ((millis + zone.rawOffset) / 86400000) := by
  simp only [setTimeInMillis, date, properYear]
  generalize dateOf ((millis + zone.rawOffset) / 86400000) = d
  obtain ⟨year, month, day⟩ := d
  dsimp only
  by_cases hyear : year ≤ 0
  · simp only [hyear, if_true, Date.mk.injEq, and_true]
    omega
  · simp only [hyear, if_false]

/-- From the cutover on the years are those after 1581. -/
theorem year_of_cutover_le {day : Int} (h : gregorianCutover ≤ day) :
    1582 ≤ (gregorian.ofDays day).year := by
  by_contra hyear
  have hle : gregorian.yearOf day + 1 ≤ 1582 := by
    have hlt : gregorian.yearOf day < 1582 := Int.not_le.mp hyear
    omega
  have hstart := gregorian.start_le_iff.mpr hle
  have hday := (gregorian.yearOf_spec day).2
  have hfirst : gregorian.start 1582 = -141714 := rfl
  have hcutover : gregorianCutover = -141427 := rfl
  omega

/-- Before the cutover they are those up to 1582. -/
theorem year_of_lt_cutover {day : Int} (h : day < gregorianCutover) :
    (julian.ofDays day).year ≤ 1582 := by
  by_contra hyear
  have hle : 1583 ≤ julian.yearOf day := by
    have hlt : 1582 < julian.yearOf day := Int.not_le.mp hyear
    omega
  have hstart := julian.start_le_iff.mpr hle
  have hday := (julian.yearOf_spec day).1
  have hfirst : julian.start 1583 = -141339 := rfl
  have hcutover : gregorianCutover = -141427 := rfl
  omega

/-- In the year of the cutover the calendars are 10 days apart. -/
theorem toDays_1582 {date : Date} (hyear : date.year = 1582)
    (h : julian.Valid date) :
    gregorian.toDays date + 10 = julian.toDays date := by
  obtain ⟨year, month, day⟩ := date
  subst hyear
  have hgregorian : gregorian.Valid ⟨1582, month, day⟩ := h
  rw [YearRule.toDays_of_valid h, YearRule.toDays_of_valid hgregorian]
  have hleap : gregorian.isLeap 1582 = julian.isLeap 1582 := rfl
  have hstart : gregorian.start 1582 + 10 = julian.start 1582 := rfl
  dsimp only
  rw [hleap]
  omega

/-- The day of a date that was found for a day. -/
theorem fixedDate_eq {c : Calendar} {day : Int} (hdate : c.date = dateOf day)
    (htime : 0 ≤ c.timeOfDay ∧ c.timeOfDay < 86400000) :
    c.fixedDate = day := by
  have hzero : c.timeOfDay / 86400000 = 0 := by omega
  have hyear : c.properYear = (dateOf day).year := congrArg Date.year hdate
  unfold fixedDate
  rw [hdate, hyear, hzero]
  by_cases hday : gregorianCutover ≤ day
  · have hgregorian : dateOf day = gregorian.ofDays day := if_pos hday
    rw [hgregorian, (gregorian.ofDays_spec day).2]
    dsimp only
    rw [if_pos ⟨year_of_cutover_le hday, by omega⟩, Int.add_zero]
  · have hjulian : dateOf day = julian.ofDays day := if_neg hday
    obtain ⟨hvalid, hdays⟩ := julian.ofDays_spec day
    rw [hjulian]
    dsimp only
    rw [if_neg, hdays, Int.add_zero]
    -- in 1582 the Gregorian day is earlier still, so it is not chosen
    intro hgregorian
    obtain ⟨hlo, hcutover⟩ := hgregorian
    have hyear := year_of_lt_cutover (Int.not_le.mp hday)
    have hshift := toDays_1582 (Int.le_antisymm hyear hlo) hvalid
    omega

theorem fixedDate_setTimeInMillis (millis : Int) :
    (setTimeInMillis zone millis).fixedDate =
      (millis + zone.rawOffset) / 86400000 := by
  refine fixedDate_eq (date_setTimeInMillis millis) ?_
  rw [timeOfDay_setTimeInMillis]
  omega

/-- The fields of an instant determine it. -/
theorem getTimeInMillis_setTimeInMillis (millis : Int) :
    getTimeInMillis zone (setTimeInMillis zone millis) = millis := by
  rw [getTimeInMillis, fixedDate_setTimeInMillis, timeOfDay_setTimeInMillis]
  omega

/-! ## The instant of fields -/

/-- A date from the cutover on and a time of day. -/
structure Valid (c : Calendar) : Prop where
  era : c.era = .ce
  date : gregorian.Valid c.date
  cutover : gregorianCutover ≤ gregorian.toDays c.date
  hourOfDay : 0 ≤ c.hourOfDay ∧ c.hourOfDay < 24
  minute : 0 ≤ c.minute ∧ c.minute < 60
  second : 0 ≤ c.second ∧ c.second < 60
  millisecond : 0 ≤ c.millisecond ∧ c.millisecond < 1000

namespace Valid

variable {c : Calendar}

theorem year_eq (h : c.Valid) : c.date.year = c.year := by
  show c.properYear = c.year
  rw [properYear, h.era]

theorem timeOfDay_bounds (h : c.Valid) :
    0 ≤ c.timeOfDay ∧ c.timeOfDay < 86400000 := by
  have hhour := h.hourOfDay
  have hminute := h.minute
  have hsecond := h.second
  have hmillisecond := h.millisecond
  unfold timeOfDay
  omega

theorem dateOf_toDays (h : c.Valid) :
    dateOf (gregorian.toDays c.date) = c.date := by
  rw [dateOf, if_pos h.cutover, YearRule.ofDays_toDays h.date]

theorem getTimeInMillis_eq (h : c.Valid) :
    getTimeInMillis zone c = gregorian.toDays c.date * 86400000 +
      c.timeOfDay - zone.rawOffset := by
  have htime := h.timeOfDay_bounds
  rw [getTimeInMillis, fixedDate_eq h.dateOf_toDays.symm htime]
  omega

theorem year_le (h : c.Valid) : 1582 ≤ c.year := by
  have hyear := year_of_cutover_le h.cutover
  rwa [YearRule.ofDays_toDays h.date, h.year_eq] at hyear

/-- Valid fields are found again. -/
theorem setTimeInMillis_getTimeInMillis (h : c.Valid) :
    setTimeInMillis zone (getTimeInMillis zone c) = c := by
  have htime := h.timeOfDay_bounds
  have hday : (getTimeInMillis zone c + zone.rawOffset) / 86400000 =
      gregorian.toDays c.date := by
    rw [h.getTimeInMillis_eq]
    omega
  have hrest : (getTimeInMillis zone c + zone.rawOffset) % 86400000 =
      c.timeOfDay := by
    rw [h.getTimeInMillis_eq]
    omega
  have hlo := h.year_le
  have hce : ¬ c.year ≤ 0 := by omega
  simp only [setTimeInMillis, hday, hrest, h.dateOf_toDays, h.year_eq, hce,
    if_false]
  have hhour := h.hourOfDay
  have hminute := h.minute
  have hsecond := h.second
  have hmillisecond := h.millisecond
  ext
  · exact h.era.symm
  · rfl
  · rfl
  · rfl
  · show c.timeOfDay / 3600000 = c.hourOfDay
    unfold timeOfDay
    omega
  · show c.timeOfDay / 60000 % 60 = c.minute
    unfold timeOfDay
    omega
  · show c.timeOfDay / 1000 % 60 = c.second
    unfold timeOfDay
    omega
  · show c.timeOfDay % 1000 = c.millisecond
    unfold timeOfDay
    omega

end Valid

/-- An instant from the cutover on has valid fields. -/
theorem valid_setTimeInMillis {millis : Int}
    (h : gregorianCutover ≤ (millis + zone.rawOffset) / 86400000) :
    (setTimeInMillis zone millis).Valid := by
  have hgregorian : dateOf ((millis + zone.rawOffset) / 86400000) =
      gregorian.ofDays ((millis + zone.rawOffset) / 86400000) := if_pos h
  obtain ⟨hvalid, hdays⟩ :=
    gregorian.ofDays_spec ((millis + zone.rawOffset) / 86400000)
  have hyear := year_of_cutover_le h
  have hdate : (setTimeInMillis zone millis).date =
      gregorian.ofDays ((millis + zone.rawOffset) / 86400000) := by
    rw [date_setTimeInMillis, hgregorian]
  refine ⟨?_, hdate ▸ hvalid, ?_, ?_, ?_, ?_, ?_⟩
  · show (if (dateOf _).year ≤ 0 then Era.bce else Era.ce) = .ce
    rw [hgregorian, if_neg (by omega)]
  · rw [hdate, hdays]
    exact h
  all_goals
    simp only [setTimeInMillis]
    omega

/-- A year before the common era is long before 1970. -/
theorem getTimeInMillis_of_bce {c : Calendar} (hera : c.era = .bce)
    (hyear : 1 ≤ c.year) (hmonth : 0 ≤ c.month ∧ c.month < 12)
    (hday : c.dayOfMonth ≤ 31)
    (htime : 0 ≤ c.timeOfDay ∧ c.timeOfDay < 86400000) :
    getTimeInMillis zone c < -86400000 := by
  have hproper : c.properYear = 1 - c.year := by rw [properYear, hera]
  have hdays : julian.toDays c.date < julian.start (2 - c.year) + 30 := by
    have hlt : julian.toDays c.date < julian.start (c.properYear + 1) +
        c.dayOfMonth - 1 := YearRule.toDays_lt hmonth.1 hmonth.2
    rw [hproper, show 1 - c.year + 1 = 2 - c.year by omega] at hlt
    omega
  have hstart : julian.start (2 - c.year) ≤ julian.start 1 :=
    julian.start_le_iff.mpr (by omega)
  have hfirst : julian.start 1 = -719164 := rfl
  have hoffset := zone.bounded
  rw [getTimeInMillis, fixedDate, if_neg (by omega)]
  omega

end Calendar

end Sipana
