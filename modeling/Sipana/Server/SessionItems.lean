import Sipana.Server.AddressList
import Sipana.Server.Calendar

/-!
# The list of sessions on the page

Each session of a search is an entry of a list: its id, and a text with its start
time, request method, users and state. `getDateString` leaves the date out if
the day of the month is today's, whatever the month. So two start times read
alike exactly when they are the same, or whole days apart on that day of the
month (`getDateString_eq_iff`). This is so in a time zone with a fixed offset;
where clocks go back, an hour reads alike twice.
-/

namespace Sipana

/-! ## Texts of the states -/

/-- The properties with the texts of the states. -/
inductive SipanaPropertyType
  | sipSessionStatusInitiated
  | sipSessionStatusProvisioned
  | sipSessionStatusEstablished
  | sipSessionStatusCompleted
  | sipSessionStatusFailed
  | sipSessionStatusTimeout
  | sipSessionStatusDisconnecting
  | sipSessionStatusCanceled
deriving DecidableEq, Repr

namespace SipanaPropertyType

/-- Some properties share a key. -/
def key : SipanaPropertyType → String
  | sipSessionStatusInitiated => "sipana.sip.status.initiated"
  | sipSessionStatusProvisioned => "sipana.sip.status.initiated"
  | sipSessionStatusEstablished => "sipana.sip.status.established"
  | sipSessionStatusCompleted => "sipana.sip.status.completed"
  | sipSessionStatusFailed => "sipana.sip.status.failed"
  | sipSessionStatusTimeout => "sipana.sip.status.timeout"
  | sipSessionStatusDisconnecting => "sipana.sip.status.timeout"
  | sipSessionStatusCanceled => "sipana.sip.status.timeout"

def defaultValue : SipanaPropertyType → String
  | sipSessionStatusInitiated => "INITIATED"
  | sipSessionStatusProvisioned => "PROVISIONED"
  | sipSessionStatusEstablished => "ESTABLISHED"
  | sipSessionStatusCompleted => "COMPLETED"
  | sipSessionStatusFailed => "FAILED"
  | sipSessionStatusTimeout => "TIMEOUT"
  | sipSessionStatusDisconnecting => "DISCONNECTING"
  | sipSessionStatusCanceled => "CANCELED"

end SipanaPropertyType

/-- The system properties that are set. -/
abbrev SystemProperties := String → Option String

def SipanaProperties.getProperty (system : SystemProperties)
    (p : SipanaPropertyType) : String := (system p.key).getD p.defaultValue

namespace SIPSessionState

def propertyType : SIPSessionState → SipanaPropertyType
  | initiated => .sipSessionStatusInitiated
  | provisioned => .sipSessionStatusProvisioned
  | established => .sipSessionStatusEstablished
  | completed => .sipSessionStatusCompleted
  | failed => .sipSessionStatusFailed
  | timeout => .sipSessionStatusTimeout
  | disconnecting => .sipSessionStatusDisconnecting
  | canceled => .sipSessionStatusCanceled

def getStateString (system : SystemProperties) (state : SIPSessionState) :
    String := SipanaProperties.getProperty system state.propertyType

end SIPSessionState

/-! ## Entries -/

structure SelectItem where
  value : Int
  label : String
deriving DecidableEq, Repr

namespace SIPSessionController

variable (zone : TimeZone)

/-- The pattern `HH:mm:ss,S`. -/
def formatTime (c : Calendar) : List Char :=
  Decimal.pad 2 c.hourOfDay.toNat ++
    ':' :: (Decimal.pad 2 c.minute.toNat ++
    ':' :: (Decimal.pad 2 c.second.toNat ++
    ',' :: Decimal.pad 1 c.millisecond.toNat))

/-- The pattern `yyyy-MM-dd HH:mm:ss,S`. -/
def formatDate (c : Calendar) : List Char :=
  Decimal.pad 4 c.year.toNat ++
    '-' :: (Decimal.pad 2 (c.month + 1).toNat ++
    '-' :: (Decimal.pad 2 c.dayOfMonth.toNat ++ ' ' :: formatTime c))

/-- `getDateString(dateInMillis)` at the time `now`. -/
def getDateString (now dateInMillis : Int) : String :=
  let date := Calendar.setTimeInMillis zone dateInMillis
  if (Calendar.getInstance zone now).dayOfMonth = date.dayOfMonth then
    String.ofList (formatTime date)
  else String.ofList (formatDate date)

/-- The entry of a session, made at the time `now`. -/
def item (system : SystemProperties) (now : Int) (session : SIPSession) :
    SelectItem where
  value := session.id
  label := getDateString zone now session.startTime ++
    " " ++ session.requestMethod ++
    ", From: " ++ session.fromUser ++
    ", To: " ++ session.toUser ++
    ", Status: " ++ session.state.getStateString system

/-! ## Start times that read alike -/

theorem formatTime_inj {c c' : Calendar} (hc : c.Valid) (hc' : c'.Valid)
    (h : formatTime c = formatTime c') :
    c.hourOfDay = c'.hourOfDay ∧ c.minute = c'.minute ∧
      c.second = c'.second ∧ c.millisecond = c'.millisecond := by
  obtain ⟨hhour, -, h⟩ := Decimal.pad_append_cons_inj rfl rfl h
  obtain ⟨hminute, -, h⟩ := Decimal.pad_append_cons_inj rfl rfl h
  obtain ⟨hsecond, -, h⟩ := Decimal.pad_append_cons_inj rfl rfl h
  have hmillisecond := Decimal.pad_inj h
  obtain ⟨-, -, -, hhour₀, hminute₀, hsecond₀, hmillisecond₀⟩ := hc
  obtain ⟨-, -, -, hhour₁, hminute₁, hsecond₁, hmillisecond₁⟩ := hc'
  refine ⟨?_, ?_, ?_, ?_⟩ <;> omega

theorem formatDate_inj {c c' : Calendar} (hc : c.Valid) (hc' : c'.Valid)
    (h : formatDate c = formatDate c') : c = c' := by
  obtain ⟨hyear, -, h⟩ := Decimal.pad_append_cons_inj rfl rfl h
  obtain ⟨hmonth, -, h⟩ := Decimal.pad_append_cons_inj rfl rfl h
  obtain ⟨hday, -, h⟩ := Decimal.pad_append_cons_inj rfl rfl h
  obtain ⟨hhour, hminute, hsecond, hmillisecond⟩ := formatTime_inj hc hc' h
  have hyears := And.intro hc.year_le hc'.year_le
  have hmonths : 0 ≤ c.month ∧ 0 ≤ c'.month := ⟨hc.date.1, hc'.date.1⟩
  have hdays : 1 ≤ c.dayOfMonth ∧ 1 ≤ c'.dayOfMonth :=
    ⟨hc.date.day_bounds.1, hc'.date.day_bounds.1⟩
  apply Calendar.ext
  · exact hc.era.trans hc'.era.symm
  · omega
  · omega
  · omega
  · exact hhour
  · exact hminute
  · exact hsecond
  · exact hmillisecond

/-- A time alone is no date. -/
theorem formatTime_ne_formatDate (c c' : Calendar) :
    formatTime c ≠ formatDate c' := by
  intro h
  obtain ⟨-, hchar, -⟩ := Decimal.pad_append_cons_inj rfl rfl h
  exact absurd hchar (by decide)

variable {zone} {now t t' : Int}

/-- Start times are after 1970. -/
theorem valid_of_nonneg (h : 0 ≤ t) :
    (Calendar.setTimeInMillis zone t).Valid := by
  apply Calendar.valid_setTimeInMillis
  have hbounded := zone.bounded
  rw [Calendar.gregorianCutover]
  omega

/-- A day later the clock reads the same. -/
theorem formatTime_eq_iff (ht : 0 ≤ t) (ht' : 0 ≤ t') :
    formatTime (Calendar.setTimeInMillis zone t) =
        formatTime (Calendar.setTimeInMillis zone t') ↔
      (t - t') % 86400000 = 0 := by
  have hclock : (Calendar.setTimeInMillis zone t).timeOfDay =
      (t + zone.rawOffset) % 86400000 := Calendar.timeOfDay_setTimeInMillis t
  have hclock' : (Calendar.setTimeInMillis zone t').timeOfDay =
      (t' + zone.rawOffset) % 86400000 := Calendar.timeOfDay_setTimeInMillis t'
  constructor
  · intro h
    obtain ⟨hhour, hminute, hsecond, hmillisecond⟩ :=
      formatTime_inj (valid_of_nonneg ht) (valid_of_nonneg ht') h
    rw [Calendar.timeOfDay, hhour, hminute, hsecond, hmillisecond] at hclock
    rw [Calendar.timeOfDay, hclock] at hclock'
    omega
  · intro h
    have hsame : (t + zone.rawOffset) % 86400000 =
        (t' + zone.rawOffset) % 86400000 := by omega
    simp only [formatTime, Calendar.setTimeInMillis, hsame]

/-- The number of the day in its month. -/
def dayOfMonth (zone : TimeZone) (t : Int) : Int :=
  (Calendar.setTimeInMillis zone t).dayOfMonth

theorem getDateString_today (h : dayOfMonth zone now = dayOfMonth zone t) :
    (getDateString zone now t).toList =
      formatTime (Calendar.setTimeInMillis zone t) := by
  have hdate : getDateString zone now t =
      String.ofList (formatTime (Calendar.setTimeInMillis zone t)) := if_pos h
  rw [hdate, String.toList_ofList]

theorem getDateString_other (h : dayOfMonth zone now ≠ dayOfMonth zone t) :
    (getDateString zone now t).toList =
      formatDate (Calendar.setTimeInMillis zone t) := by
  have hdate : getDateString zone now t =
      String.ofList (formatDate (Calendar.setTimeInMillis zone t)) := if_neg h
  rw [hdate, String.toList_ofList]

/-- Two start times read alike if they are the same. They also do if both are on
a day with today's number and whole days apart. -/
theorem getDateString_eq_iff (zone : TimeZone) (now t t' : Int) (ht : 0 ≤ t)
    (ht' : 0 ≤ t') :
    getDateString zone now t = getDateString zone now t' ↔
      t = t' ∨ dayOfMonth zone now = dayOfMonth zone t ∧
        dayOfMonth zone now = dayOfMonth zone t' ∧
        (t - t') % 86400000 = 0 := by
  rw [← String.toList_inj]
  by_cases htoday : dayOfMonth zone now = dayOfMonth zone t <;>
    by_cases htoday' : dayOfMonth zone now = dayOfMonth zone t'
  · rw [getDateString_today htoday, getDateString_today htoday',
      formatTime_eq_iff ht ht']
    constructor
    · intro h
      exact Or.inr ⟨htoday, htoday', h⟩
    · rintro (rfl | ⟨-, -, h⟩)
      · rw [Int.sub_self, Int.zero_emod]
      · exact h
  · rw [getDateString_today htoday, getDateString_other htoday']
    constructor
    · intro h
      exact absurd h (formatTime_ne_formatDate _ _)
    · rintro (rfl | ⟨-, h, -⟩)
      · exact absurd htoday htoday'
      · exact absurd h htoday'
  · rw [getDateString_other htoday, getDateString_today htoday']
    constructor
    · intro h
      exact absurd h.symm (formatTime_ne_formatDate _ _)
    · rintro (rfl | ⟨h, -, -⟩)
      · exact absurd htoday' htoday
      · exact absurd h htoday
  · rw [getDateString_other htoday, getDateString_other htoday']
    constructor
    · intro h
      have hsame := formatDate_inj (valid_of_nonneg ht) (valid_of_nonneg ht') h
      have hinstant := congrArg (Calendar.getTimeInMillis zone) hsame
      rw [Calendar.getTimeInMillis_setTimeInMillis,
        Calendar.getTimeInMillis_setTimeInMillis] at hinstant
      exact Or.inl hinstant
    · rintro (rfl | ⟨h, -, -⟩)
      · rfl
      · exact absurd h htoday

/-- Midnight of 5 January and of 5 February 1970, on 5 March. -/
theorem same_day_of_the_month :
    getDateString ⟨0, by decide⟩ 5443200000 345600000 =
      getDateString ⟨0, by decide⟩ 5443200000 3024000000 :=
  (getDateString_eq_iff ⟨0, by decide⟩ 5443200000 345600000 3024000000
    (by decide) (by decide)).mpr
      (Or.inr ⟨by decide, by decide, by decide⟩)

end SIPSessionController

end Sipana
