import Sipana.Server.DateText

/-!
# The round trip of a date field

A date field shows an instant and reads the text back when the page is
submitted. The text ends with the minute, and what is read is put on a calendar
of the current time, so the seconds of the current time take the place of those
that are not shown: the minute is found again iff the field is read at the very
beginning of a minute (and in the common era).
-/

namespace Sipana

open MillisConverter Decimal

/-- The beginning of the minute that the fields of an instant name. -/
def TimeZone.wholeMinute (zone : TimeZone) (millis : Int) : Int :=
  millis - (millis + zone.rawOffset) % 60000

/-- If the zone differs from UTC in whole minutes, it is a minute of UTC. -/
theorem TimeZone.wholeMinute_eq {zone : TimeZone}
    (h : 60000 ∣ zone.rawOffset) (millis : Int) :
    zone.wholeMinute millis = millis - millis % 60000 := by
  unfold wholeMinute
  omega

namespace DateText

/-- The numbers are those of the fields. -/
structure Shows (t : DateText) (c : Calendar) : Prop where
  day : (t.day : Int) = c.dayOfMonth
  month : (t.month : Int) = c.month + 1
  year : (t.year : Int) = c.year
  time : ∃ hour minute, t.time = some (hour, minute) ∧
    (hour : Int) = c.hourOfDay ∧ (minute : Int) = c.minute

variable {R : Decimal.Reader} {zone : TimeZone} {now millis : Int}
  {t : DateText} {c : Calendar}

/-! ## What is shown -/

theorem Shows.written (h : t.Shows c) : t.Written [' '] (format c) := by
  obtain ⟨hour, minute, htime, hhour, hminute⟩ := h.time
  refine ⟨by simp [htime], by simp [whiteSpace], [], by simp, ?_⟩
  have hday := h.day
  have hmonth := h.month
  have hyear := h.year
  have hday' : c.dayOfMonth.toNat = t.day := by omega
  have hmonth' : (c.month + 1).toNat = t.month := by omega
  have hyear' : c.year.toNat = t.year := by omega
  have hhour' : c.hourOfDay.toNat = hour := by omega
  have hminute' : c.minute.toNat = minute := by omega
  rw [format, String.toList_ofList, hday', hmonth', hyear', hhour', hminute',
    htime, timeChars]
  simp

/-- Valid fields can be shown up to the year 9999. -/
theorem exists_shows (h : c.Valid) (hyear : c.year ≤ 9999) :
    ∃ t : DateText, t.Shows c := by
  have hmonth : 0 ≤ c.month ∧ c.month < 12 := ⟨h.date.1, h.date.month_lt⟩
  have hday : 1 ≤ c.dayOfMonth ∧ c.dayOfMonth ≤ 31 := h.date.day_bounds
  have hyear' := h.year_le
  have hhour := h.hourOfDay
  have hminute := h.minute
  refine ⟨{
    day := ⟨c.dayOfMonth.toNat, by omega⟩
    month := ⟨(c.month + 1).toNat, by omega⟩
    year := ⟨c.year.toNat, by omega⟩
    time := some (⟨c.hourOfDay.toNat, by omega⟩, ⟨c.minute.toNat, by omega⟩) },
    Int.toNat_of_nonneg (by omega), Int.toNat_of_nonneg (by omega),
    Int.toNat_of_nonneg (by omega), _, _, rfl, Int.toNat_of_nonneg hhour.1,
    Int.toNat_of_nonneg hminute.1⟩

/-! ## What is read -/

/-- All fields are set but the era, the second and the millisecond. -/
theorem Shows.set_eq (h : t.Shows c) (d : Calendar) : t.set d =
    { c with
      era := d.era, second := d.second, millisecond := d.millisecond } := by
  obtain ⟨hour, minute, htime, hhour, hminute⟩ := h.time
  have hmonth : (t.month : Int) - 1 = c.month := by
    rw [h.month]
    omega
  simp only [set, htime, Calendar.setDateTime, h.day, hmonth, h.year, hhour,
    hminute]

theorem Shows.shows_set (h : t.Shows c) (d : Calendar) : t.Shows (t.set d) := by
  rw [h.set_eq]
  exact ⟨h.day, h.month, h.year, h.time⟩

theorem getInstance_clock (zone : TimeZone) (now : Int) :
    (0 ≤ (Calendar.getInstance zone now).second ∧
      (Calendar.getInstance zone now).second < 60) ∧
    0 ≤ (Calendar.getInstance zone now).millisecond ∧
      (Calendar.getInstance zone now).millisecond < 1000 := by
  simp only [Calendar.getInstance, Calendar.setTimeInMillis]
  omega

/-- In the common era the fields that are read are valid. -/
theorem Shows.set_valid (h : t.Shows c) (hc : c.Valid)
    (hera : (Calendar.getInstance zone now).era = .ce) :
    (t.set (Calendar.getInstance zone now)).Valid := by
  obtain ⟨hsecond, hmillisecond⟩ := getInstance_clock zone now
  have hdate : (t.set (Calendar.getInstance zone now)).date = c.date := by
    rw [h.set_eq, hera, ← hc.era]
    rfl
  refine ⟨?_, hdate ▸ hc.date, hdate ▸ hc.cutover, ?_, ?_, ?_, ?_⟩
  all_goals rw [h.set_eq]
  · exact hera
  · exact hc.hourOfDay
  · exact hc.minute
  · exact hsecond
  · exact hmillisecond

/-- The seconds are those of the current time. -/
theorem Shows.getTimeInMillis_of_ce (h : t.Shows c) (hc : c.Valid)
    (hera : (Calendar.getInstance zone now).era = .ce) :
    Calendar.getTimeInMillis zone (t.set (Calendar.getInstance zone now)) =
      Calendar.getTimeInMillis zone c - c.sinceMinute +
        (now + zone.rawOffset) % 60000 := by
  have hclock : (Calendar.getInstance zone now).sinceMinute =
      (now + zone.rawOffset) % 60000 :=
    Calendar.sinceMinute_setTimeInMillis now
  rw [hc.getTimeInMillis_eq, (h.set_valid hc hera).getTimeInMillis_eq,
    ← hclock, h.set_eq, hera, ← hc.era]
  simp only [Calendar.date, Calendar.properYear, Calendar.timeOfDay,
    Calendar.sinceMinute]
  omega

theorem Shows.getTimeInMillis_of_bce (h : t.Shows c) (hc : c.Valid)
    (hera : (Calendar.getInstance zone now).era = .bce) :
    Calendar.getTimeInMillis zone (t.set (Calendar.getInstance zone now)) <
      -86400000 := by
  obtain ⟨hsecond, hmillisecond⟩ := getInstance_clock zone now
  have hhour := hc.hourOfDay
  have hminute := hc.minute
  have hyear := hc.year_le
  rw [h.set_eq]
  apply Calendar.getTimeInMillis_of_bce
  · exact hera
  · show 1 ≤ c.year
    omega
  · exact ⟨hc.date.1, hc.date.month_lt⟩
  · exact hc.date.day_bounds.2
  · simp only [Calendar.timeOfDay]
    omega

end DateText

/-! ## The round trip -/

section RoundTrip

variable {R : Decimal.Reader} {zone : TimeZone} {now millis : Int}

/-- What is shown for the instant is read as its minute at the time `now`. -/
def RoundTrip (R : Decimal.Reader) (zone : TimeZone) (now millis : Int) :
    Prop :=
  getAsObject R zone now (getAsString zone millis) =
    .ok (zone.wholeMinute millis)

/-- The text of an instant after the epoch. -/
theorem exists_written (hmillis : 1 ≤ millis)
    (hyear : (Calendar.setTimeInMillis zone millis).year ≤ 9999) :
    (Calendar.setTimeInMillis zone millis).Valid ∧
    ∃ t : DateText, t.Shows (Calendar.setTimeInMillis zone millis) ∧
      t.Written [' '] (getAsString zone millis).text := by
  have hoffset := zone.bounded
  have hday : Calendar.gregorianCutover ≤
      (millis + zone.rawOffset) / 86400000 := by
    show -141427 ≤ (millis + zone.rawOffset) / 86400000
    omega
  have hvalid := Calendar.valid_setTimeInMillis hday
  obtain ⟨t, hshows⟩ := DateText.exists_shows hvalid hyear
  refine ⟨hvalid, t, hshows, ?_⟩
  rw [getAsString_eq, if_pos (by omega)]
  exact hshows.written

/-- The seconds of the current time are added to the minute. -/
theorem getAsObject_getAsString (hmillis : 1 ≤ millis)
    (hyear : (Calendar.setTimeInMillis zone millis).year ≤ 9999)
    (hera : (Calendar.getInstance zone now).era = .ce) :
    getAsObject R zone now (getAsString zone millis) =
      .ok (zone.wholeMinute millis + (now + zone.rawOffset) % 60000) := by
  obtain ⟨hvalid, t, hshows, hwritten⟩ := exists_written hmillis hyear
  rw [hwritten.getAsObject_eq, hshows.getTimeInMillis_of_ce hvalid hera,
    Calendar.getTimeInMillis_setTimeInMillis,
    Calendar.sinceMinute_setTimeInMillis]
  rfl

/-- A date field that is shown and read back has its minute iff it is read at
the beginning of a minute. -/
theorem date_field_round_trip (R : Decimal.Reader) (zone : TimeZone)
    (now : Int) (hmillis : 1 ≤ millis)
    (hyear : (Calendar.setTimeInMillis zone millis).year ≤ 9999) :
    RoundTrip R zone now millis ↔ (now + zone.rawOffset) % 60000 = 0 ∧
      (Calendar.getInstance zone now).era = .ce := by
  unfold RoundTrip
  cases hera : (Calendar.getInstance zone now).era with
  | ce =>
    rw [getAsObject_getAsString hmillis hyear hera, Except.ok.injEq]
    refine ⟨fun h => ⟨?_, rfl⟩, fun h => ?_⟩
    · omega
    · have hclock := h.1
      omega
  | bce =>
    -- the year is read as one before the common era
    obtain ⟨hvalid, t, hshows, hwritten⟩ := exists_written hmillis hyear
    have hread := hshows.getTimeInMillis_of_bce hvalid hera
    have hoffset := zone.bounded
    rw [hwritten.getAsObject_eq, Except.ok.injEq, TimeZone.wholeMinute]
    refine ⟨fun h => ?_, fun h => absurd h.2 nofun⟩
    omega

def utc : TimeZone := ⟨0, by decide⟩

theorem epoch_read_at_a_minute : RoundTrip asciiReader utc 60000 1 :=
  (date_field_round_trip asciiReader utc 60000 (by decide) (by decide)).mpr
    (by decide)

/-- Half a minute after the epoch, the first minute is read as its middle. -/
theorem seconds_of_the_clock : ¬ RoundTrip asciiReader utc 30000 1 := by
  rw [RoundTrip, getAsObject_getAsString (by decide) (by decide) (by decide)]
  decide

end RoundTrip

end Sipana
