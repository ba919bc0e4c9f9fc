import Mathlib.Algebra.Order.BigOperators.Group.List
import Mathlib.Algebra.Ring.Int.Defs
import Mathlib.Order.Monotone.Basic
import Mathlib.Tactic.Common

/-!
# Civil dates

A rule for leap years numbers the days of a calendar. `toDays` counts the days
up to a date, where a month or a day that does not exist is counted on into the
next months, and `ofDays` finds the date of a day. On dates that exist the two
are inverse to each other.
-/

namespace CivilDate

/-! ## Blocks of given lengths -/

/-- The block in which the given offset is, and the offset in that block. -/
def locate : List Int → Int → Nat × Int
  | [], d => (0, d)
  | l :: ls, d =>
    if d < l then (0, d) else ((locate ls (d - l)).1 + 1, (locate ls (d - l)).2)

theorem locate_spec {ls : List Int} {d : Int} (hlo : 0 ≤ d) (hhi : d < ls.sum) :
    ∃ l, ls[(locate ls d).1]? = some l ∧ 0 ≤ (locate ls d).2 ∧
      (locate ls d).2 < l ∧
      (ls.take (locate ls d).1).sum + (locate ls d).2 = d := by
  induction ls generalizing d with
  | nil =>
    rw [List.sum_nil] at hhi
    omega
  | cons l ls ih =>
    rw [List.sum_cons] at hhi
    rw [locate]
    split
    · next hlt => exact ⟨l, rfl, hlo, hlt, by simp⟩
    · next hge =>
      obtain ⟨l', hl', hrest, hlt, hsum⟩ :=
        ih (d := d - l) (by omega) (by omega)
      refine ⟨l', hl', hrest, hlt, ?_⟩
      rw [List.take_succ_cons, List.sum_cons]
      omega

theorem sum_take_bounds {ls : List Int} (hpos : ∀ l ∈ ls, 0 < l) {i : Nat}
    {l : Int} (hi : ls[i]? = some l) :
    0 ≤ (ls.take i).sum ∧ (ls.take i).sum + l ≤ ls.sum := by
  induction ls generalizing i with
  | nil => exact absurd hi (by simp)
  | cons l' ls ih =>
    rw [List.forall_mem_cons] at hpos
    cases i with
    | zero =>
      obtain rfl : l' = l := by simpa using hi
      have hrest : 0 ≤ ls.sum :=
        List.sum_nonneg fun x hx => Int.le_of_lt (hpos.2 x hx)
      simp only [List.take_zero, List.sum_nil, List.sum_cons]
      omega
    | succ i =>
      obtain ⟨hlo, hhi⟩ := ih hpos.2 hi
      simp only [List.take_succ_cons, List.sum_cons]
      omega

/-- The offset `r` in the block of index `i`. -/
theorem locate_sum_take {ls : List Int} (hpos : ∀ l ∈ ls, 0 < l) {i : Nat}
    {l r : Int} (hi : ls[i]? = some l) (hlo : 0 ≤ r) (hhi : r < l) :
    locate ls ((ls.take i).sum + r) = (i, r) := by
  induction ls generalizing i with
  | nil => exact absurd hi (by simp)
  | cons l' ls ih =>
    cases i with
    | zero =>
      obtain rfl : l' = l := by simpa using hi
      rw [List.take_zero, List.sum_nil, Int.zero_add, locate, if_pos hhi]
    | succ i =>
      -- the offset is behind the first block
      rw [List.forall_mem_cons] at hpos
      have hbefore := (sum_take_bounds hpos.2 hi).1
      have hrest := ih hpos.2 hi
      have hoffset : (List.take (i + 1) (l' :: ls)).sum + r - l' =
          (ls.take i).sum + r := by
        rw [List.take_succ_cons, List.sum_cons]
        omega
      rw [locate, if_neg (by omega), hoffset, hrest]

/-! ## Years -/

/-- The lengths of the months of a year. -/
def monthLengths (leap : Bool) : List Int :=
  [31, if leap then 29 else 28, 31, 30, 31, 30, 31, 31, 30, 31, 30, 31]

theorem monthLengths_pos {leap : Bool} {l : Int} (h : l ∈ monthLengths leap) :
    0 < l := by
  cases leap <;> revert l <;> decide

theorem monthLengths_le {leap : Bool} {l : Int} (h : l ∈ monthLengths leap) :
    l ≤ 31 := by
  cases leap <;> revert l <;> decide

theorem sum_monthLengths (leap : Bool) :
    (monthLengths leap).sum = if leap then 366 else 365 := by
  cases leap <;> rfl

/-- A rule for leap years. The days are counted from any day on; `start` is the
first day of a year, and `guess` is at most one year off. -/
structure YearRule where
  isLeap : Int → Bool
  start : Int → Int
  guess : Int → Int
  start_succ : ∀ y, start (y + 1) = start y + if isLeap y then 366 else 365
  guess_spec : ∀ d, start (guess d - 1) ≤ d ∧ d < start (guess d + 2)

/-- A month is counted from 0, a day of a month from 1. -/
structure Date where
  year : Int
  month : Int
  day : Int
deriving DecidableEq, Repr

namespace YearRule

variable (R : YearRule)

/-- The year of a day. -/
def yearOf (d : Int) : Int :=
  if d < R.start (R.guess d) then R.guess d - 1
  else if d < R.start (R.guess d + 1) then R.guess d
  else R.guess d + 1

theorem yearOf_spec (d : Int) :
    R.start (R.yearOf d) ≤ d ∧ d < R.start (R.yearOf d + 1) := by
  obtain ⟨hlo, hhi⟩ := R.guess_spec d
  unfold yearOf
  split
  · next hlt =>
    rw [Int.sub_add_cancel]
    exact ⟨hlo, hlt⟩
  · next hge =>
    split
    · next hlt => exact ⟨Int.not_lt.mp hge, hlt⟩
    · next hge =>
      rw [Int.add_assoc]
      exact ⟨Int.not_lt.mp hge, hhi⟩

theorem start_lt_succ (y : Int) : R.start y < R.start (y + 1) := by
  rw [R.start_succ]
  split <;> omega

theorem start_lt_iff {y y' : Int} : R.start y < R.start y' ↔ y < y' :=
  (strictMono_int_of_lt_succ R.start_lt_succ).lt_iff_lt

theorem start_le_iff {y y' : Int} : R.start y ≤ R.start y' ↔ y ≤ y' :=
  (strictMono_int_of_lt_succ R.start_lt_succ).le_iff_le

theorem yearOf_eq {y d : Int} (hlo : R.start y ≤ d)
    (hhi : d < R.start (y + 1)) : R.yearOf d = y := by
  obtain ⟨hlo', hhi'⟩ := R.yearOf_spec d
  have hle := R.start_lt_iff.mp (Int.lt_of_le_of_lt hlo hhi')
  have hge := R.start_lt_iff.mp (Int.lt_of_le_of_lt hlo' hhi)
  omega

/-! ## Dates -/

/-- The day of a date, which need not exist. -/
def toDays (date : Date) : Int :=
  let year := date.year + date.month / 12
  let month := (date.month % 12).toNat
  R.start year + ((monthLengths (R.isLeap year)).take month).sum +
    (date.day - 1)

def ofDays (d : Int) : Date :=
  let year := R.yearOf d
  let place := locate (monthLengths (R.isLeap year)) (d - R.start year)
  ⟨year, place.1, place.2 + 1⟩

/-- The dates that exist. -/
def Valid (date : Date) : Prop :=
  0 ≤ date.month ∧ ∃ l ∈ (monthLengths (R.isLeap date.year))[date.month.toNat]?,
    1 ≤ date.day ∧ date.day ≤ l

variable {R}

/-- A date is counted from its year. -/
theorem toDays_lt {date : Date} (hlo : 0 ≤ date.month) (hhi : date.month < 12) :
    R.toDays date < R.start (date.year + 1) + date.day - 1 := by
  have hyear : date.year + date.month / 12 = date.year := by omega
  have hlt : (date.month % 12).toNat <
      (monthLengths (R.isLeap date.year)).length := by
    show (date.month % 12).toNat < 12
    omega
  obtain ⟨-, hafter⟩ := sum_take_bounds (fun _ => monthLengths_pos)
    (List.getElem?_eq_getElem hlt)
  have hpos := monthLengths_pos (List.getElem_mem hlt)
  rw [sum_monthLengths] at hafter
  rw [toDays, hyear, R.start_succ]
  omega

theorem Valid.month_lt {date : Date} (h : R.Valid date) : date.month < 12 := by
  obtain ⟨hmonth, l, hl, -⟩ := h
  have hlt := (List.getElem?_eq_some_iff.mp hl).1
  have hlength : (monthLengths (R.isLeap date.year)).length = 12 := rfl
  omega

theorem Valid.day_bounds {date : Date} (h : R.Valid date) :
    1 ≤ date.day ∧ date.day ≤ 31 := by
  obtain ⟨-, l, hl, hlo, hhi⟩ := h
  have hle := monthLengths_le (List.mem_of_getElem? hl)
  exact ⟨hlo, Int.le_trans hhi hle⟩

theorem toDays_of_valid {date : Date} (h : R.Valid date) :
    R.toDays date = R.start date.year +
      ((monthLengths (R.isLeap date.year)).take date.month.toNat).sum +
        (date.day - 1) := by
  have hlt := h.month_lt
  have hyear : date.year + date.month / 12 = date.year := by
    have := h.1
    omega
  have hmonth : date.month % 12 = date.month := by
    have := h.1
    omega
  rw [toDays, hyear, hmonth]

/-- A date that exists is in its year. -/
theorem Valid.yearOf_toDays {date : Date} (h : R.Valid date) :
    R.yearOf (R.toDays date) = date.year := by
  rw [toDays_of_valid h]
  obtain ⟨-, l, hl, hlo, hhi⟩ := h
  obtain ⟨hbefore, hafter⟩ :=
    sum_take_bounds (fun _ => monthLengths_pos) hl
  rw [sum_monthLengths] at hafter
  apply R.yearOf_eq
  · omega
  · rw [R.start_succ]
    omega

theorem ofDays_toDays {date : Date} (h : R.Valid date) :
    R.ofDays (R.toDays date) = date := by
  unfold ofDays
  rw [h.yearOf_toDays, toDays_of_valid h]
  obtain ⟨hmonth, l, hl, hlo, hhi⟩ := h
  have hoffset : R.start date.year +
      ((monthLengths (R.isLeap date.year)).take date.month.toNat).sum +
        (date.day - 1) - R.start date.year =
      ((monthLengths (R.isLeap date.year)).take date.month.toNat).sum +
        (date.day - 1) := by omega
  dsimp only
  rw [hoffset, locate_sum_take (fun _ => monthLengths_pos) hl (by omega)
    (by omega), Int.toNat_of_nonneg hmonth, Int.sub_add_cancel]

theorem ofDays_spec (d : Int) :
    R.Valid (R.ofDays d) ∧ R.toDays (R.ofDays d) = d := by
  obtain ⟨hlo, hhi⟩ := R.yearOf_spec d
  rw [R.start_succ, ← sum_monthLengths] at hhi
  unfold ofDays
  generalize R.yearOf d = y at hlo hhi
  obtain ⟨l, hl, hrest, hlt, hsum⟩ :=
    locate_spec (d := d - R.start y) (by omega) (Int.sub_left_lt_of_lt_add hhi)
  have hvalid : R.Valid ⟨y,
      (locate (monthLengths (R.isLeap y)) (d - R.start y)).1,
      (locate (monthLengths (R.isLeap y)) (d - R.start y)).2 + 1⟩ := by
    refine ⟨Int.natCast_nonneg _, l, hl, ?_, ?_⟩
    · show 1 ≤ (locate _ _).2 + 1
      omega
    · show (locate _ _).2 + 1 ≤ l
      omega
  refine ⟨hvalid, ?_⟩
  rw [toDays_of_valid hvalid]
  dsimp only
  rw [Int.toNat_natCast]
  omega

end YearRule

/-! ## The Gregorian and the Julian rule -/

/-- Day 0 is 1 January 1970. -/
def gregorian : YearRule where
  isLeap y := y % 4 = 0 ∧ (y % 100 ≠ 0 ∨ y % 400 = 0)
  start y := 365 * (y - 1970) + (y - 1969) / 4 - (y - 1901) / 100 +
    (y - 1601) / 400
  -- 400 years have 146097 days
  guess d := (400 * d + 287811090) / 146097
  start_succ y := by
    simp only [decide_eq_true_eq]
    split <;> omega
  guess_spec d := by omega

/-- The same days by the Julian calendar, which dates them 13 days earlier. -/
def julian : YearRule where
  isLeap y := y % 4 = 0
  start y := 365 * (y - 1970) + (y - 1969) / 4 + 13
  -- 4 years have 1461 days
  guess d := (4 * d + 2878170) / 1461
  start_succ y := by
    simp only [decide_eq_true_eq]
    split <;> omega
  guess_spec d := by omega

example : gregorian.toDays ⟨1582, 9, 15⟩ = julian.toDays ⟨1582, 9, 5⟩ := by
  decide

end CivilDate
