import Sipana.Server.DateField

/-!
# What the date parser accepts

`getAsObject` rejects a text that is not written as a date and accepts every
other one: the numbers are not checked, and the lenient calendar counts a date
that does not exist on into the next months. A text is treated as it should be
iff its date exists. In that case the time that is read is the one typed, unless
the clock of the server stands before the common era.
-/

namespace Sipana

open MillisConverter Decimal CivilDate

namespace DateText

def date (t : DateText) : Date := ⟨t.year, t.month - 1, t.day⟩

/-- A date of the Gregorian calendar, and a time of day. -/
structure Real (t : DateText) : Prop where
  year : 1 ≤ (t.year : Int)
  date : gregorian.Valid t.date
  time : ∀ time ∈ t.time, (time.1 : Int) < 24 ∧ (time.2 : Int) < 60

/-- The date is after 1 January 1970. -/
def AfterEpoch (t : DateText) : Prop := 0 < gregorian.toDays t.date

variable {R : Decimal.Reader} {zone : TimeZone} {now : Int} {t : DateText}

/-! ## Dates that exist -/

/-- The fields that the text names. -/
def calendar (t : DateText) (hour minute : Fin (10 ^ 2)) : Calendar where
  era := .ce
  year := t.year
  month := t.month - 1
  dayOfMonth := t.day
  hourOfDay := hour
  minute := minute
  second := 0
  millisecond := 0

theorem shows_calendar {hour minute : Fin (10 ^ 2)}
    (htime : t.time = some (hour, minute)) :
    t.Shows (t.calendar hour minute) where
  day := rfl
  month := by
    show (t.month : Int) = t.month - 1 + 1
    omega
  year := rfl
  time := ⟨hour, minute, htime, rfl, rfl⟩

theorem Real.calendar_valid (h : t.Real) (hafter : t.AfterEpoch)
    {hour minute : Fin (10 ^ 2)} (htime : t.time = some (hour, minute)) :
    (t.calendar hour minute).Valid where
  era := rfl
  date := h.date
  cutover := by
    have hpos : 0 < gregorian.toDays (t.calendar hour minute).date := hafter
    show -141427 ≤ gregorian.toDays (t.calendar hour minute).date
    omega
  hourOfDay := ⟨Int.natCast_nonneg _, (h.time _ htime).1⟩
  minute := ⟨Int.natCast_nonneg _, (h.time _ htime).2⟩
  second := by
    show (0 : Int) ≤ 0 ∧ (0 : Int) < 60
    omega
  millisecond := by
    show (0 : Int) ≤ 0 ∧ (0 : Int) < 1000
    omega

/-- What was typed is shown again. -/
theorem Real.shown (h : t.Real) (hafter : t.AfterEpoch) (htime : t.time ≠ none)
    (hera : (Calendar.getInstance zone now).era = .ce) :
    t.Written [' '] (getAsString zone (Calendar.getTimeInMillis zone
      (t.set (Calendar.getInstance zone now)))).text := by
  obtain ⟨⟨hour, minute⟩, htime⟩ := Option.ne_none_iff_exists'.mp htime
  have hvalid := h.calendar_valid hafter htime
  have hset := (shows_calendar htime).set_valid hvalid hera
  have hdays : 0 < gregorian.toDays
      (t.set (Calendar.getInstance zone now)).date := by
    rw [(shows_calendar htime).set_eq, hera]
    exact hafter
  have hoffset := zone.bounded
  have hbounds := hset.timeOfDay_bounds
  have hpos : 0 < Calendar.getTimeInMillis zone
      (t.set (Calendar.getInstance zone now)) := by
    rw [hset.getTimeInMillis_eq]
    omega
  rw [getAsString_eq, if_pos hpos, hset.setTimeInMillis_getTimeInMillis]
  exact ((shows_calendar htime).shows_set _).written

/-- Before the common era nothing is shown. -/
theorem Real.not_shown (h : t.Real) (hafter : t.AfterEpoch)
    (htime : t.time ≠ none) {gap : List Char}
    (hera : (Calendar.getInstance zone now).era = .bce) :
    ¬ t.Written gap (getAsString zone (Calendar.getTimeInMillis zone
      (t.set (Calendar.getInstance zone now)))).text := by
  obtain ⟨⟨hour, minute⟩, htime⟩ := Option.ne_none_iff_exists'.mp htime
  have hread := (shows_calendar htime).getTimeInMillis_of_bce
    (h.calendar_valid hafter htime) hera
  rw [getAsString_eq, if_neg (by omega)]
  exact not_written_empty

end DateText

/-! ## The parser -/

/-- Exactly the texts of dates that exist are accepted, and a time after
1 January 1970 is shown as it was typed. `blank` is the white space that may
stand between a date and a time. -/
structure AcceptsRealDates (R : Decimal.Reader) (zone : TimeZone) (now : Int)
    (blank : List Char → Prop) (param : StringRef) : Prop where
  accepted : (∃ millis, getAsObject R zone now param = .ok millis) ↔
    ∃ (t : DateText) (gap : List Char), t.Written gap param.text ∧
      (t.time ≠ none → blank gap) ∧ t.Real
  shown : ∀ (t : DateText) (gap : List Char) (millis : Int),
    t.Written gap param.text → getAsObject R zone now param = .ok millis →
      t.time ≠ none → t.AfterEpoch →
        t.Written [' '] (getAsString zone millis).text

/-- The parser treats a text as it should iff, in case it is written as a date,
the date exists and the clock is in the common era if it matters. -/
theorem accepts_real_dates_iff (R : Decimal.Reader) (zone : TimeZone)
    (now : Int) (blank : List Char → Prop) {param : StringRef}
    (hne : param.text ≠ "") :
    AcceptsRealDates R zone now blank param ↔
      ∀ (t : DateText) (gap : List Char), t.Written gap param.text →
        (t.time ≠ none → blank gap) ∧ t.Real ∧
          (t.time ≠ none → t.AfterEpoch →
            (Calendar.getInstance zone now).era = .ce) := by
  refine ⟨fun h t gap hwritten => ?_, fun h => ⟨?_, ?_⟩⟩
  · have hread : getAsObject R zone now param = .ok (Calendar.getTimeInMillis
        zone (t.set (Calendar.getInstance zone now))) := hwritten.getAsObject_eq
    obtain ⟨t', gap', hwritten', hblank, hreal⟩ := h.accepted.mp ⟨_, hread⟩
    -- a text has one reading, so it is this date that exists
    obtain rfl := hwritten.unique hwritten'
    obtain rfl := hwritten.unique_gap hwritten'
    refine ⟨hblank, hreal, fun htime hafter => ?_⟩
    have hshown := h.shown t gap _ hwritten hread htime hafter
    cases hera : (Calendar.getInstance zone now).era with
    | ce => rfl
    | bce => exact absurd hshown (hreal.not_shown hafter htime hera)
  · rw [DateText.getAsObject_eq_ok_iff hne]
    constructor
    · intro haccepted
      obtain ⟨t, gap, hwritten⟩ := haccepted
      obtain ⟨hblank, hreal, -⟩ := h t gap hwritten
      exact ⟨t, gap, hwritten, hblank, hreal⟩
    · intro haccepted
      obtain ⟨t, gap, hwritten, -, -⟩ := haccepted
      exact ⟨t, gap, hwritten⟩
  · intro t gap millis hwritten hread htime hafter
    obtain ⟨-, hreal, hera⟩ := h t gap hwritten
    rw [hwritten.getAsObject_eq, Except.ok.injEq] at hread
    rw [← hread]
    exact hreal.shown hafter htime (hera htime hafter)

/-- A time on a leap day. -/
def leapDay : DateText where
  day := ⟨29, by decide⟩
  month := ⟨2, by decide⟩
  year := ⟨2008, by decide⟩
  time := some (⟨10, by decide⟩, ⟨30, by decide⟩)

theorem leapDay_written : leapDay.Written [' '] "29/02/2008 10:30" :=
  ⟨by simp [leapDay], by simp [whiteSpace], [], by simp, by decide⟩

theorem leapDay_real : leapDay.Real where
  year := by decide
  date := ⟨by decide, 29, by rfl, by decide, by decide⟩
  time := by
    intro time htime
    obtain rfl := Option.some.inj htime
    decide

theorem leapDay_accepted :
    AcceptsRealDates asciiReader utc 0 (· = [' '])
      (.new "29/02/2008 10:30") := by
  refine (accepts_real_dates_iff asciiReader utc 0 _ (by decide)).mpr
    fun t gap hwritten => ?_
  obtain rfl := leapDay_written.unique hwritten
  obtain rfl := leapDay_written.unique_gap hwritten
  exact ⟨fun _ => rfl, leapDay_real, fun _ _ => by decide⟩

/-- 31 February, which is read as 3 March. -/
def noDay : DateText where
  day := ⟨31, by decide⟩
  month := ⟨2, by decide⟩
  year := ⟨2009, by decide⟩
  time := none

theorem noDay_written : noDay.Written [] "31/02/2009" :=
  ⟨by simp [noDay], by simp, [], by simp, by decide⟩

theorem noDay_accepted :
    ¬ AcceptsRealDates asciiReader utc 0 (· = [' ']) (.new "31/02/2009") := by
  intro h
  obtain ⟨t, gap, hwritten, -, hreal⟩ :=
    h.accepted.mp ⟨_, noDay_written.getAsObject_eq⟩
  obtain rfl := noDay_written.unique hwritten
  obtain ⟨-, l, hl, -, hle⟩ := hreal.date
  obtain rfl : 28 = l := Option.some.inj hl
  exact absurd hle (by decide)

end Sipana
