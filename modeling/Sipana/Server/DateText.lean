import Sipana.Server.MillisConverter

/-!
# Date texts

`DateText` has the numbers of a text `dd/MM/yyyy HH:mm`, where the time may be
missing, and `Written` says what such a text looks like. A text is written so
iff it matches one of the patterns of `MillisConverter`, and `splitDate` finds
the numbers.
-/

namespace Sipana

open RegularExpression MillisConverter Decimal

structure DateText where
  day : Fin (10 ^ 2)
  month : Fin (10 ^ 2)
  year : Fin (10 ^ 4)
  /-- The hour and the minute. -/
  time : Option (Fin (10 ^ 2) × Fin (10 ^ 2))
deriving DecidableEq

namespace DateText

def timeChars : Option (Fin (10 ^ 2) × Fin (10 ^ 2)) → List Char
  | none => []
  | some (hour, minute) => pad 2 hour ++ ':' :: pad 2 minute

/-- The text has these numbers, `gap` is the white space between the date and
the time, and white space may follow. -/
def Written (t : DateText) (gap : List Char) (s : String) : Prop :=
  (gap = [] ↔ t.time = none) ∧ (∀ c ∈ gap, c ∈ whiteSpace) ∧
    ∃ trailing, (∀ c ∈ trailing, c ∈ whiteSpace) ∧
      s.toList = pad 2 t.day ++ '/' :: (pad 2 t.month ++ '/' ::
        (pad 4 t.year ++ (gap ++ (timeChars t.time ++ trailing))))

variable {w : List Char} {P : RegularExpression Char}

/-! ## Patterns -/

/-- A word of `n` digits is the text of a number. -/
theorem mem_digit_pow {n : Nat} (hn : 0 < n) :
    w ∈ (digit ^ n).matches' ↔ ∃ k : Fin (10 ^ n), w = pad n k := by
  rw [digit, CharClass.mem_oneOf_pow]
  simp only [mem_digits_iff]
  constructor
  · intro h
    obtain ⟨rfl, hdigits⟩ := h
    exact ⟨⟨_, ofDigitChars_lt hdigits⟩,
      (pad_ofDigitChars (List.length_pos_iff.mp hn) hdigits).symm⟩
  · intro h
    obtain ⟨k, rfl⟩ := h
    exact ⟨length_pad hn k.isLt, fun c hc => isDigit_of_mem_pad hc⟩

theorem mem_number_mul {n : Nat} (hn : 0 < n) :
    w ∈ (digit ^ n * P).matches' ↔
      ∃ k : Fin (10 ^ n), ∃ l ∈ P.matches', w = pad n k ++ l := by
  rw [matches'_mul, Language.mem_mul]
  simp only [mem_digit_pow hn]
  constructor
  · intro h
    obtain ⟨_, ⟨k, rfl⟩, l, hl, rfl⟩ := h
    exact ⟨k, l, hl, rfl⟩
  · intro h
    obtain ⟨k, l, hl, rfl⟩ := h
    exact ⟨_, ⟨k, rfl⟩, l, hl, rfl⟩

theorem mem_char_mul {c : Char} :
    w ∈ (char c * P).matches' ↔ ∃ l ∈ P.matches', w = c :: l := by
  rw [matches'_mul, Language.mem_mul, matches'_char]
  constructor
  · intro h
    obtain ⟨_, rfl, l, hl, rfl⟩ := h
    exact ⟨l, hl, rfl⟩
  · intro h
    obtain ⟨l, hl, rfl⟩ := h
    exact ⟨[c], rfl, l, hl, rfl⟩

theorem mem_gap_mul : w ∈ ((space * space.star) * P).matches' ↔
    ∃ gap, gap ≠ [] ∧ (∀ c ∈ gap, c ∈ whiteSpace) ∧
      ∃ l ∈ P.matches', w = gap ++ l := by
  rw [matches'_mul, Language.mem_mul, matches'_mul]
  constructor
  · intro h
    obtain ⟨_, ⟨_, hfirst, gap, hgap, rfl⟩, l, hl, rfl⟩ := h
    obtain ⟨c, hc, rfl⟩ := CharClass.mem_oneOf.mp hfirst
    exact ⟨c :: gap, List.cons_ne_nil _ _,
      List.forall_mem_cons.mpr ⟨hc, CharClass.mem_oneOf_star.mp hgap⟩,
      l, hl, rfl⟩
  · intro h
    obtain ⟨gap, hne, hgap, l, hl, rfl⟩ := h
    obtain ⟨c, gap, rfl⟩ := List.exists_cons_of_ne_nil hne
    rw [List.forall_mem_cons] at hgap
    exact ⟨_, ⟨[c], CharClass.mem_oneOf.mpr ⟨c, hgap.1, rfl⟩, gap,
      CharClass.mem_oneOf_star.mpr hgap.2, rfl⟩, l, hl, rfl⟩

/-- The group that is repeated, written out. -/
theorem matches'_date : ((digit ^ 2 * char '/') ^ 2 * P).matches' =
    (digit ^ 2 * (char '/' * (digit ^ 2 * (char '/' * P)))).matches' := by
  simp only [matches'_mul, matches'_pow, pow_two, mul_assoc]

theorem mem_date_mul : w ∈ ((digit ^ 2 * char '/') ^ 2 * P).matches' ↔
    ∃ day month : Fin (10 ^ 2), ∃ l ∈ P.matches',
      w = pad 2 day ++ '/' :: (pad 2 month ++ '/' :: l) := by
  have htwo : 0 < 2 := by omega
  rw [matches'_date, mem_number_mul htwo]
  constructor
  · intro h
    obtain ⟨day, _, hday, rfl⟩ := h
    obtain ⟨_, hslash, rfl⟩ := mem_char_mul.mp hday
    obtain ⟨month, _, hmonth, rfl⟩ := (mem_number_mul htwo).mp hslash
    obtain ⟨l, hl, rfl⟩ := mem_char_mul.mp hmonth
    exact ⟨day, month, l, hl, rfl⟩
  · intro h
    obtain ⟨day, month, l, hl, rfl⟩ := h
    exact ⟨day, _, mem_char_mul.mpr ⟨_, (mem_number_mul htwo).mpr
      ⟨month, _, mem_char_mul.mpr ⟨l, hl, rfl⟩, rfl⟩, rfl⟩, rfl⟩

theorem date_rmatch_iff {s : String} : datePattern.rmatch s.toList = true ↔
    ∃ t : DateText, t.time = none ∧ t.Written [] s := by
  have hfour : 0 < 4 := by omega
  rw [rmatch_iff_matches', datePattern, mem_date_mul]
  constructor
  · intro h
    obtain ⟨day, month, _, hyear, hs⟩ := h
    obtain ⟨year, trailing, htrailing, rfl⟩ := (mem_number_mul hfour).mp hyear
    exact ⟨⟨day, month, year, none⟩, rfl, by simp, by simp, trailing,
      CharClass.mem_oneOf_star.mp htrailing, hs⟩
  · intro h
    obtain ⟨⟨day, month, year, _⟩, rfl, -, -, trailing, htrailing, hs⟩ := h
    exact ⟨day, month, _, (mem_number_mul hfour).mpr
      ⟨year, trailing, CharClass.mem_oneOf_star.mpr htrailing, rfl⟩, hs⟩

theorem mem_time_mul : w ∈ (digit ^ 2 * (char ':' * (digit ^ 2 * P))).matches' ↔
    ∃ hour minute : Fin (10 ^ 2), ∃ l ∈ P.matches',
      w = timeChars (some (hour, minute)) ++ l := by
  have htwo : 0 < 2 := by omega
  rw [mem_number_mul htwo]
  constructor
  · intro h
    obtain ⟨hour, _, hafter, rfl⟩ := h
    obtain ⟨_, hminute, rfl⟩ := mem_char_mul.mp hafter
    obtain ⟨minute, l, hl, rfl⟩ := (mem_number_mul htwo).mp hminute
    exact ⟨hour, minute, l, hl, by simp [timeChars]⟩
  · intro h
    obtain ⟨hour, minute, l, hl, rfl⟩ := h
    exact ⟨hour, _, mem_char_mul.mpr ⟨_, (mem_number_mul htwo).mpr
      ⟨minute, l, hl, rfl⟩, rfl⟩, by simp [timeChars]⟩

theorem dateTime_rmatch_iff {s : String} :
    dateTimePattern.rmatch s.toList = true ↔
      ∃ (t : DateText) (gap : List Char), t.time ≠ none ∧ t.Written gap s := by
  have hfour : 0 < 4 := by omega
  rw [rmatch_iff_matches', dateTimePattern, mem_date_mul]
  constructor
  · intro h
    obtain ⟨day, month, _, hyear, hs⟩ := h
    obtain ⟨year, _, hafter, rfl⟩ := (mem_number_mul hfour).mp hyear
    obtain ⟨gap, hne, hgap, _, htime, rfl⟩ := mem_gap_mul.mp hafter
    obtain ⟨hour, minute, trailing, htrailing, rfl⟩ := mem_time_mul.mp htime
    exact ⟨⟨day, month, year, some (hour, minute)⟩, gap, nofun, by simp [hne],
      hgap, trailing, CharClass.mem_oneOf_star.mp htrailing, hs⟩
  · intro h
    obtain ⟨⟨day, month, year, time⟩, gap, htime, hne, hgap, trailing,
      htrailing, hs⟩ := h
    obtain ⟨⟨hour, minute⟩, rfl⟩ := Option.ne_none_iff_exists'.mp htime
    exact ⟨day, month, _, (mem_number_mul hfour).mpr ⟨year, _,
      mem_gap_mul.mpr ⟨gap, fun h => htime (hne.mp h), hgap, _,
        mem_time_mul.mpr ⟨hour, minute, trailing,
          CharClass.mem_oneOf_star.mpr htrailing, rfl⟩, rfl⟩, rfl⟩, hs⟩

/-- The patterns match the texts that are written so. -/
theorem matches_iff {s : String} :
    (dateTimePattern.rmatch s.toList = true ∨
      datePattern.rmatch s.toList = true) ↔
    ∃ (t : DateText) (gap : List Char), t.Written gap s := by
  rw [dateTime_rmatch_iff, date_rmatch_iff]
  constructor
  · intro h
    rcases h with ⟨t, gap, -, hwritten⟩ | ⟨t, -, hwritten⟩
    · exact ⟨t, gap, hwritten⟩
    · exact ⟨t, [], hwritten⟩
  · intro h
    obtain ⟨t, gap, hwritten⟩ := h
    by_cases htime : t.time = none
    · obtain rfl := hwritten.1.mpr htime
      exact Or.inr ⟨t, htime, hwritten⟩
    · exact Or.inl ⟨t, gap, htime, hwritten⟩

/-! ## The numbers -/

/-- The texts of the numbers. -/
def fields (t : DateText) : List (List Char) :=
  match t.time with
  | none => [pad 2 t.day, pad 2 t.month, pad 4 t.year]
  | some (hour, minute) =>
    [pad 2 t.day, pad 2 t.month, pad 4 t.year, pad 2 hour, pad 2 minute]

theorem fields_ne_nil {t : DateText} {w : List Char} (h : w ∈ t.fields) :
    w ≠ [] := by
  obtain ⟨day, month, year, _ | ⟨hour, minute⟩⟩ := t <;>
    simp only [fields, List.mem_cons, List.not_mem_nil, or_false] at h
  · rcases h with rfl | rfl | rfl <;> exact pad_ne_nil _ _
  · rcases h with rfl | rfl | rfl | rfl | rfl <;> exact pad_ne_nil _ _

theorem isSpace_of_mem {c : Char} (h : c ∈ whiteSpace) : isSpace c = true :=
  List.contains_iff_mem.mpr h

/-- A digit is neither white space nor a separator. -/
theorem digit_spec {c : Char} (h : c.isDigit = true) :
    isSpace c = false ∧ isSeparator c = false := by
  have hall : "0123456789".toList.all
      (fun d => !isSpace d && !isSeparator d) = true := by decide
  have hc := List.all_eq_true.mp hall c (mem_digits_iff.mpr h)
  rwa [Bool.and_eq_true, Bool.not_eq_true', Bool.not_eq_true'] at hc

theorem replaceRuns_pad (n k : Nat) (b : Char) (inRun : Bool) (l : List Char) :
    Tokens.replaceRuns isSpace b inRun (pad n k ++ l) =
      pad n k ++ Tokens.replaceRuns isSpace b false l :=
  Tokens.replaceRuns_append_of_false (pad_ne_nil n k)
    (fun _ hc => (digit_spec (isDigit_of_mem_pad hc)).1) b inRun l

theorem splitOnP_pad (n k : Nat) {c : Char} (hc : isSeparator c = true)
    (l : List Char) :
    (pad n k ++ c :: l).splitOnP isSeparator =
      pad n k :: l.splitOnP isSeparator :=
  List.splitOnP_append_cons_of_forall_mem
    (fun _ h => (digit_spec (isDigit_of_mem_pad h)).2) c hc l

/-- What is left of white space at the end. -/
theorem replaceRuns_trailing {trailing : List Char}
    (h : ∀ c ∈ trailing, c ∈ whiteSpace) :
    Tokens.replaceRuns isSpace ':' false trailing =
      if trailing = [] then [] else [':'] := by
  split
  · next hempty =>
    subst hempty
    rfl
  · next hne =>
    have hrun := Tokens.replaceRuns_run (p := isSpace) hne
      (fun c hc => isSpace_of_mem (h c hc)) ':' []
    rwa [List.append_nil] at hrun

theorem splitOnP_last (n k : Nat) (trailing : List Char) :
    (pad n k ++ if trailing = [] then [] else [':']).splitOnP isSeparator =
      pad n k :: if trailing = [] then [] else [[]] := by
  split
  · rw [List.append_nil]
    exact List.splitOnP_eq_singleton
      fun _ h => (digit_spec (isDigit_of_mem_pad h)).2
  · rw [splitOnP_pad _ _ (by rfl), List.splitOnP_nil]

variable {t : DateText} {gap : List Char} {s : String}

/-- The pieces before those at the end are dropped. -/
theorem Written.pieces (h : t.Written gap s) : ∃ trailing : List Char,
    (Tokens.replaceRuns isSpace ':' false s.toList).splitOnP isSeparator =
      t.fields ++ if trailing = [] then [] else [[]] := by
  obtain ⟨hgap, hspace, trailing, htrailing, hs⟩ := h
  have hslash : ∀ l, Tokens.replaceRuns isSpace ':' false ('/' :: l) =
      '/' :: Tokens.replaceRuns isSpace ':' false l := fun _ => rfl
  have hcolon : ∀ l, Tokens.replaceRuns isSpace ':' false (':' :: l) =
      ':' :: Tokens.replaceRuns isSpace ':' false l := fun _ => rfl
  refine ⟨trailing, ?_⟩
  rw [hs, replaceRuns_pad, hslash, replaceRuns_pad, hslash, replaceRuns_pad,
    splitOnP_pad _ _ (by rfl), splitOnP_pad _ _ (by rfl)]
  obtain ⟨day, month, year, _ | ⟨hour, minute⟩⟩ := t
  · -- the year is the last number
    obtain rfl := hgap.mpr rfl
    rw [List.nil_append, timeChars, List.nil_append,
      replaceRuns_trailing htrailing, splitOnP_last]
    rfl
  · -- the gap is one separator, the colon of the time another one
    have hne : gap ≠ [] := fun hnil => absurd (hgap.mp hnil) nofun
    have hrun : ∀ c ∈ gap, isSpace c = true :=
      fun c hc => isSpace_of_mem (hspace c hc)
    rw [timeChars, List.append_assoc, List.cons_append,
      Tokens.replaceRuns_run hne hrun, replaceRuns_pad, hcolon, replaceRuns_pad,
      replaceRuns_trailing htrailing, splitOnP_pad _ _ (by rfl),
      splitOnP_pad _ _ (by rfl), splitOnP_last]
    rfl

theorem rdropWhile_fields (t : DateText) :
    t.fields.rdropWhile List.isEmpty = t.fields := by
  rw [List.rdropWhile_eq_self_iff]
  intro hne
  have hlast := fields_ne_nil (List.getLast_mem hne)
  rwa [List.isEmpty_iff]

/-- The text is taken apart into the texts of its numbers. -/
theorem Written.splitDate_eq (h : t.Written gap s) :
    splitDate s = t.fields := by
  obtain ⟨trailing, hpieces⟩ := h.pieces
  have hlength : 1 < t.fields.length := by
    unfold fields
    split <;> simp
  unfold splitDate
  dsimp only
  rw [hpieces, if_neg (by rw [List.length_append]; omega)]
  split
  · rw [List.append_nil, rdropWhile_fields]
  · rw [List.rdropWhile_concat_pos _ _ _ (by rfl), rdropWhile_fields]

/-! ## Conversion -/

/-- The calendar after the call of `set`. -/
def set (t : DateText) (c : Calendar) : Calendar :=
  match t.time with
  | none => c.setDate t.year (t.month - 1) t.day
  | some (hour, minute) =>
    c.setDateTime t.year (t.month - 1) t.day hour minute

variable {R : Decimal.Reader} {zone : TimeZone} {now : Int}
  {param : StringRef}

theorem parseInt_pad {n : Nat} (hle : n ≤ 4) (k : Fin (10 ^ n)) :
    parseInt R (pad n k) = .ok k := by
  have hpow : 10 ^ n ≤ 10 ^ 4 := Nat.pow_le_pow_right (by omega) hle
  have hk := k.isLt
  rw [parseInt, Reader.parse_of_isDigit (pad_ne_nil n k)
    (fun _ hc => isDigit_of_mem_pad hc), ofDigitChars_pad]
  · rw [ofDigitChars_pad]
    omega
  · rw [ofDigitChars_pad]
    omega

theorem setFields_eq (c : Calendar) :
    setFields R t.fields c = .ok (t.set c) := by
  have htwo := @parseInt_pad R 2 (by omega)
  have hfour := @parseInt_pad R 4 (by omega)
  obtain ⟨day, month, year, _ | ⟨hour, minute⟩⟩ := t
  · simp [setFields, fields, parseItem, htwo, hfour, set]
    rfl
  · simp [setFields, fields, parseItem, htwo, hfour, set]
    rfl

theorem not_written_empty : ¬ t.Written gap "" := by
  intro h
  obtain ⟨-, -, trailing, -, hs⟩ := h
  exact absurd hs.symm (List.append_ne_nil_of_left_ne_nil (pad_ne_nil _ _) _)

theorem Written.literal_eq (h : t.Written gap param.text) :
    param.literal = false := by
  by_contra hliteral
  rw [param.text_eq (by simpa using hliteral)] at h
  exact not_written_empty h

/-- A text that is written so is converted, whatever its numbers are. -/
theorem Written.getAsObject_eq (h : t.Written gap param.text) :
    getAsObject R zone now param = .ok (Calendar.getTimeInMillis zone
      (t.set (Calendar.getInstance zone now))) := by
  rw [getAsObject, h.literal_eq, if_neg Bool.false_ne_true,
    if_pos (matches_iff.mpr ⟨t, gap, h⟩), h.splitDate_eq, setFields_eq]
  rfl

/-- Any other text is rejected. -/
theorem getAsObject_of_not_written (hne : param.text ≠ "")
    (h : ¬ ∃ (t : DateText) (gap : List Char), t.Written gap param.text) :
    getAsObject R zone now param =
      .error (.converterException invalidDate) := by
  have hliteral : ¬ param.literal = true :=
    fun hliteral => hne (param.text_eq hliteral)
  rw [getAsObject, if_neg hliteral,
    if_neg (fun hmatch => h (matches_iff.mp hmatch))]

theorem getAsObject_eq_ok_iff (hne : param.text ≠ "") :
    (∃ millis, getAsObject R zone now param = .ok millis) ↔
      ∃ (t : DateText) (gap : List Char), t.Written gap param.text := by
  constructor
  · intro h
    by_contra hwritten
    obtain ⟨millis, haccepted⟩ := h
    rw [getAsObject_of_not_written hne hwritten] at haccepted
    exact absurd haccepted nofun
  · intro h
    obtain ⟨t, gap, hwritten⟩ := h
    exact ⟨_, hwritten.getAsObject_eq⟩

/-! ## A text has one reading -/

theorem fields_injective : Function.Injective fields := by
  rintro ⟨day, month, year, time⟩ ⟨day', month', year', time'⟩ h
  cases time with
  | none =>
    cases time' with
    | none =>
      simp only [fields, List.cons.injEq, and_true] at h
      obtain ⟨hday, hmonth, hyear⟩ := h
      rw [Fin.ext (pad_inj hday), Fin.ext (pad_inj hmonth),
        Fin.ext (pad_inj hyear)]
    | some time' => simp [fields] at h
  | some time =>
    cases time' with
    | none => simp [fields] at h
    | some time' =>
      simp only [fields, List.cons.injEq, and_true] at h
      obtain ⟨hday, hmonth, hyear, hhour, hminute⟩ := h
      have htime : time = time' :=
        Prod.ext (Fin.ext (pad_inj hhour)) (Fin.ext (pad_inj hminute))
      rw [Fin.ext (pad_inj hday), Fin.ext (pad_inj hmonth),
        Fin.ext (pad_inj hyear), htime]

theorem Written.unique {t' : DateText} {gap' : List Char}
    (h : t.Written gap s) (h' : t'.Written gap' s) : t = t' :=
  fields_injective (h.splitDate_eq.symm.trans h'.splitDate_eq)

theorem takeWhile_pad (n k : Nat) (l : List Char) :
    (pad n k ++ l).takeWhile isSpace = [] := by
  obtain ⟨c, cs, hpad⟩ := List.exists_cons_of_ne_nil (pad_ne_nil n k)
  have hc : c ∈ pad n k := hpad ▸ List.mem_cons_self
  have hdigit := (digit_spec (isDigit_of_mem_pad hc)).1
  rw [hpad, List.cons_append,
    List.takeWhile_cons_of_neg (ne_true_of_eq_false hdigit)]

/-- The white space before a time begins after the ten characters of a date. -/
theorem Written.takeWhile_drop (h : t.Written gap s) (htime : t.time ≠ none) :
    (s.toList.drop 10).takeWhile isSpace = gap := by
  obtain ⟨-, hspace, trailing, -, hs⟩ := h
  obtain ⟨⟨hour, minute⟩, htime⟩ := Option.ne_none_iff_exists'.mp htime
  have hdate : (pad 2 t.day ++ '/' :: (pad 2 t.month ++ '/' ::
      pad 4 t.year)).length = 10 := by
    simp only [List.length_append, List.length_cons,
      length_pad (by omega) t.day.isLt, length_pad (by omega) t.month.isLt,
      length_pad (by omega) t.year.isLt]
  have hdrop : s.toList.drop 10 = gap ++ (timeChars t.time ++ trailing) := by
    have hassoc : s.toList = (pad 2 t.day ++ '/' :: (pad 2 t.month ++ '/' ::
        pad 4 t.year)) ++ (gap ++ (timeChars t.time ++ trailing)) := by
      simp [hs]
    rw [hassoc, List.drop_left' hdate]
  have hrun : ∀ c ∈ gap, isSpace c = true :=
    fun c hc => isSpace_of_mem (hspace c hc)
  rw [hdrop, List.takeWhile_append_of_pos hrun, htime, timeChars,
    List.append_assoc, takeWhile_pad, List.append_nil]

theorem Written.unique_gap {t' : DateText} {gap' : List Char}
    (h : t.Written gap s) (h' : t'.Written gap' s) : gap = gap' := by
  obtain rfl := h.unique h'
  by_cases htime : t.time = none
  · rw [h.1.mpr htime, h'.1.mpr htime]
  · rw [← h.takeWhile_drop htime, h'.takeWhile_drop htime]

end DateText

end Sipana
