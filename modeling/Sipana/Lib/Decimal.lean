import Mathlib.Data.List.Basic
import Mathlib.Tactic.Common
import Mathlib.Tactic.Linarith

/-!
# Decimal texts

Printing and reading numbers in base ten, over lists of characters. What a
reader takes for a digit beyond ASCII, and whether it takes a plus sign, differs
between versions of a platform; both are part of a `Reader`. A number that is
printed is read back by every reader, and a text of a given number of ASCII
digits is the padded text of its value.
-/

namespace Decimal

/-! ## Texts of numbers -/

theorem isDigit_of_mem_toDigits {n : Nat} {c : Char}
    (h : c ∈ Nat.toDigits 10 n) : c.isDigit = true :=
  Nat.isDigit_of_mem_toDigits (by decide) (by decide) h

theorem toList_toString (n : Int) : (toString n).toList =
    if 0 ≤ n then Nat.toDigits 10 n.toNat
    else '-' :: Nat.toDigits 10 (-n).toNat := by
  rw [Int.toString_eq_repr, Int.repr_eq_if]
  split
  · rw [Nat.toList_repr]
  · rw [String.toList_append, Nat.toList_repr]
    rfl

/-- The text of a number has digits and at most a sign. -/
theorem mem_toString {n : Int} {c : Char} (h : c ∈ (toString n).toList) :
    c = '-' ∨ c.isDigit = true := by
  rw [toList_toString] at h
  split at h
  · exact Or.inr (isDigit_of_mem_toDigits h)
  · rcases List.mem_cons.mp h with h | h
    · exact Or.inl h
    · exact Or.inr (isDigit_of_mem_toDigits h)

theorem toList_toString_ne_nil {n : Int} : (toString n).toList ≠ [] := by
  rw [toList_toString]
  split
  · exact Nat.toDigits_ne_nil
  · exact List.cons_ne_nil _ _

/-! ## Reading -/

/-- How numbers are read. -/
structure Reader where
  digit : Char → Option Nat
  plusSign : Bool
  ascii : ∀ c, c.toNat < 128 →
    digit c = if c.isDigit then some (c.toNat - 48) else none

namespace Reader

variable (R : Reader)

def value? (cs : List Char) : Option Nat :=
  cs.foldlM (fun value c => (R.digit c).map (10 * value + ·)) 0

/-- At least one digit. -/
def magnitude (cs : List Char) : Option Nat :=
  if cs = [] then none else R.value? cs

/-- A number between `lo` and `hi`, with an optional sign. -/
def parse (lo hi : Int) (cs : List Char) : Option Int :=
  let value := match cs with
    | '-' :: ds => (R.magnitude ds).map fun n : Nat => -(n : Int)
    | '+' :: ds =>
      if R.plusSign then (R.magnitude ds).map Int.ofNat else none
    | ds => (R.magnitude ds).map Int.ofNat
  value.filter fun n => lo ≤ n ∧ n ≤ hi

variable {R : Reader}

theorem digit_of_isDigit {c : Char} (h : c.isDigit = true) :
    R.digit c = some (c.toNat - 48) := by
  have hrange := Char.isDigit_iff_toNat.mp h
  have hascii : c.toNat < 128 := Nat.lt_of_le_of_lt hrange.2 (by decide)
  rw [R.ascii c hascii, if_pos h]

theorem foldlM_of_isDigit {cs : List Char} (h : ∀ c ∈ cs, c.isDigit = true)
    (init : Nat) :
    cs.foldlM (fun value c => (R.digit c).map (10 * value + ·)) init =
      some (Nat.ofDigitChars 10 cs init) := by
  induction cs generalizing init with
  | nil => rw [Nat.ofDigitChars_nil]; rfl
  | cons c cs ih =>
    rw [List.foldlM_cons, digit_of_isDigit (h c List.mem_cons_self),
      Nat.ofDigitChars_cons]
    exact ih (fun d hd => h d (List.mem_cons_of_mem c hd)) _

/-- A character that is no digit makes the text unreadable. -/
theorem foldlM_of_mem {cs : List Char} {c : Char} (hc : c ∈ cs)
    (h : R.digit c = none) (init : Nat) :
    cs.foldlM (fun value c => (R.digit c).map (10 * value + ·)) init =
      none := by
  induction cs generalizing init with
  | nil => exact absurd hc List.not_mem_nil
  | cons d cs ih =>
    rw [List.foldlM_cons]
    rcases List.mem_cons.mp hc with rfl | hc
    · rw [h]
      rfl
    · cases R.digit d with
      | none => rfl
      | some n => exact ih hc (10 * init + n)

theorem magnitude_of_mem {cs : List Char} {c : Char} (hc : c ∈ cs)
    (h : R.digit c = none) : R.magnitude cs = none := by
  rw [magnitude, if_neg (List.ne_nil_of_mem hc)]
  exact foldlM_of_mem hc h 0

theorem magnitude_of_isDigit {cs : List Char} (hne : cs ≠ [])
    (h : ∀ c ∈ cs, c.isDigit = true) :
    R.magnitude cs = some (Nat.ofDigitChars 10 cs 0) := by
  rw [magnitude, if_neg hne]
  exact foldlM_of_isDigit h 0

theorem magnitude_toDigits (n : Nat) :
    R.magnitude (Nat.toDigits 10 n) = some n := by
  rw [magnitude_of_isDigit Nat.toDigits_ne_nil
    fun c hc => isDigit_of_mem_toDigits hc, Nat.ofDigitChars_ten_toDigits]

theorem parse_of_isDigit {cs : List Char} (hne : cs ≠ [])
    (h : ∀ c ∈ cs, c.isDigit = true) {lo hi : Int}
    (hlo : lo ≤ Nat.ofDigitChars 10 cs 0)
    (hhi : Nat.ofDigitChars 10 cs 0 ≤ hi) :
    R.parse lo hi cs = some ↑(Nat.ofDigitChars 10 cs 0) := by
  have hvalue := magnitude_of_isDigit (R := R) hne h
  unfold parse
  split
  · exact absurd (h '-' List.mem_cons_self) (by decide)
  · exact absurd (h '+' List.mem_cons_self) (by decide)
  · rw [hvalue]
    simp [hlo, hhi]

theorem parse_minus (lo hi : Int) (ds : List Char) :
    R.parse lo hi ('-' :: ds) =
      ((R.magnitude ds).map fun n : Nat => -(n : Int)).filter
        fun n => lo ≤ n ∧ n ≤ hi := rfl

/-- A character that is neither a digit nor a sign is in no number. -/
theorem parse_of_mem {cs : List Char} {c : Char} (hc : c ∈ cs)
    (h : R.digit c = none) (hminus : c ≠ '-') (hplus : c ≠ '+') (lo hi : Int) :
    R.parse lo hi cs = none := by
  unfold parse
  split
  · rw [magnitude_of_mem ((List.mem_cons.mp hc).resolve_left hminus) h]
    rfl
  · rw [magnitude_of_mem ((List.mem_cons.mp hc).resolve_left hplus) h]
    split <;> rfl
  · rw [magnitude_of_mem hc h]
    rfl

/-- A number that is printed is read back. -/
theorem parse_toString {n lo hi : Int} (hlo : lo ≤ n) (hhi : n ≤ hi) :
    R.parse lo hi (toString n).toList = some n := by
  rw [toList_toString]
  split
  · next hn =>
    have hvalue : (Nat.ofDigitChars 10 (Nat.toDigits 10 n.toNat) 0 : Int) =
        n := by rw [Nat.ofDigitChars_ten_toDigits, Int.toNat_of_nonneg hn]
    rw [parse_of_isDigit Nat.toDigits_ne_nil
      (fun c hc => isDigit_of_mem_toDigits hc) (by rwa [hvalue])
      (by rwa [hvalue]), hvalue]
  · next hn =>
    have hneg : -((-n).toNat : Int) = n := by omega
    rw [parse_minus, magnitude_toDigits, Option.map_some, hneg]
    simp [hlo, hhi]

end Reader

/-! ## A number determines its text -/

/-- The reader that takes ASCII digits only. -/
def asciiReader : Reader where
  digit c := if c.isDigit then some (c.toNat - 48) else none
  plusSign := true
  ascii _ _ := rfl

theorem toString_injective : Function.Injective (toString : Int → String) := by
  intro m n h
  have hread : ∀ k : Int, k.natAbs ≤ m.natAbs + n.natAbs →
      asciiReader.parse (-(m.natAbs + n.natAbs)) (m.natAbs + n.natAbs)
        (toString k).toList = some k :=
    fun k hk => Reader.parse_toString (by omega) (by omega)
  have hm := hread m (by omega)
  rw [h, hread n (by omega)] at hm
  exact (Option.some.inj hm).symm

/-! ## Padding -/

/-- The digits of a number, with zeros in front up to the given length. -/
def pad (width n : Nat) : List Char := (Nat.toDigits 10 n).leftpad width '0'

theorem pad_ne_nil (width n : Nat) : pad width n ≠ [] := by
  unfold pad List.leftpad
  exact List.append_ne_nil_of_right_ne_nil _ Nat.toDigits_ne_nil

theorem isDigit_of_mem_pad {width n : Nat} {c : Char} (h : c ∈ pad width n) :
    c.isDigit = true := by
  unfold pad List.leftpad at h
  rcases List.mem_append.mp h with h | h
  · rw [List.eq_of_mem_replicate h]
    decide
  · exact isDigit_of_mem_toDigits h

theorem length_pad {width n : Nat} (hwidth : 0 < width) (h : n < 10 ^ width) :
    (pad width n).length = width := by
  have hlength := (Nat.length_toDigits_le_iff (by decide) hwidth).mpr h
  rw [pad, List.length_leftpad]
  omega

@[simp] theorem ofDigitChars_pad (width n : Nat) :
    Nat.ofDigitChars 10 (pad width n) 0 = n := by
  rw [pad, List.leftpad, Nat.ofDigitChars_append,
    Nat.ofDigitChars_replicate_zero, Nat.mul_zero,
    Nat.ofDigitChars_ten_toDigits]

theorem pad_inj {width m n : Nat} (h : pad width m = pad width n) : m = n := by
  have hvalue := congrArg (Nat.ofDigitChars 10 · 0) h
  simpa only [ofDigitChars_pad] using hvalue

/-- Digits end at the first character that is none. -/
theorem append_cons_inj {ds es l l' : List Char} {c d : Char}
    (hds : ∀ x ∈ ds, x.isDigit = true) (hes : ∀ x ∈ es, x.isDigit = true)
    (hc : c.isDigit = false) (hd : d.isDigit = false)
    (h : ds ++ c :: l = es ++ d :: l') : ds = es ∧ c = d ∧ l = l' := by
  induction ds generalizing es with
  | nil =>
    cases es with
    | nil => exact ⟨rfl, List.cons.inj h⟩
    | cons e es =>
      rw [(List.cons.inj h).1, hes e List.mem_cons_self] at hc
      cases hc
  | cons x ds ih =>
    cases es with
    | nil =>
      rw [← (List.cons.inj h).1, hds x List.mem_cons_self] at hd
      cases hd
    | cons e es =>
      obtain ⟨rfl, htail⟩ := List.cons.inj h
      obtain ⟨rfl, hrest⟩ := ih (fun y hy => hds y (List.mem_cons_of_mem x hy))
        (fun y hy => hes y (List.mem_cons_of_mem x hy)) htail
      exact ⟨rfl, hrest⟩

/-- The number at the front of a text, whatever it was padded to. -/
theorem pad_append_cons_inj {v w m n : Nat} {l l' : List Char} {c d : Char}
    (hc : c.isDigit = false) (hd : d.isDigit = false)
    (h : pad v m ++ c :: l = pad w n ++ d :: l') : m = n ∧ c = d ∧ l = l' := by
  obtain ⟨hpad, hrest⟩ := append_cons_inj (fun _ => isDigit_of_mem_pad)
    (fun _ => isDigit_of_mem_pad) hc hd h
  have hvalue := congrArg (Nat.ofDigitChars 10 · 0) hpad
  simp only [ofDigitChars_pad] at hvalue
  exact ⟨hvalue, hrest⟩

theorem ofDigitChars_lt {cs : List Char} (h : ∀ c ∈ cs, c.isDigit = true) :
    Nat.ofDigitChars 10 cs 0 < 10 ^ cs.length := by
  induction cs with
  | nil => simp
  | cons c cs ih =>
    have hc := Char.isDigit_iff_toNat.mp (h c List.mem_cons_self)
    have hcs := ih fun d hd => h d (List.mem_cons_of_mem c hd)
    rw [Nat.ofDigitChars_cons, Nat.ofDigitChars_eq_ofDigitChars_zero,
      List.length_cons, Nat.pow_succ, Nat.mul_zero, Nat.zero_add]
    have hdigit : c.toNat - '0'.toNat ≤ 9 := by
      have hnine : '9'.toNat = '0'.toNat + 9 := rfl
      omega
    have hscaled := Nat.mul_le_mul_left (10 ^ cs.length) hdigit
    omega

theorem eq_of_ofDigitChars {cs ds : List Char} (hlength : cs.length = ds.length)
    (hcs : ∀ c ∈ cs, c.isDigit = true) (hds : ∀ d ∈ ds, d.isDigit = true)
    (h : Nat.ofDigitChars 10 cs 0 = Nat.ofDigitChars 10 ds 0) : cs = ds := by
  induction cs generalizing ds with
  | nil => exact (List.length_eq_zero_iff.mp hlength.symm).symm
  | cons c cs ih =>
    cases ds with
    | nil => exact absurd hlength nofun
    | cons d ds =>
      have hlength' : cs.length = ds.length := Nat.succ.inj hlength
      have hcs' := fun x hx => hcs x (List.mem_cons_of_mem c hx)
      have hds' := fun x hx => hds x (List.mem_cons_of_mem d hx)
      have hc := Char.isDigit_iff_toNat.mp (hcs c List.mem_cons_self)
      have hd := Char.isDigit_iff_toNat.mp (hds d List.mem_cons_self)
      have hclt := ofDigitChars_lt hcs'
      have hdlt := ofDigitChars_lt hds'
      rw [Nat.ofDigitChars_cons, Nat.ofDigitChars_cons,
        Nat.ofDigitChars_eq_ofDigitChars_zero,
        Nat.ofDigitChars_eq_ofDigitChars_zero (l := ds), hlength'] at h
      rw [hlength'] at hclt
      generalize hbase : 10 ^ ds.length = base at h hclt hdlt
      have hpos : 0 < base := by omega
      -- the first digits are the quotients by this power of ten
      have hdiv := congrArg (· / base) h
      simp only [Nat.mul_add_div hpos, Nat.div_eq_of_lt hclt,
        Nat.div_eq_of_lt hdlt] at hdiv
      have hchar : c = d := Char.ext (UInt32.toNat_inj.mp (by
        show c.toNat = d.toNat
        omega))
      subst hchar
      rw [ih hlength' hcs' hds' (Nat.add_left_cancel h)]

/-- A text of ASCII digits is the padded text of its value. -/
theorem pad_ofDigitChars {cs : List Char} (hne : cs ≠ [])
    (h : ∀ c ∈ cs, c.isDigit = true) :
    pad cs.length (Nat.ofDigitChars 10 cs 0) = cs :=
  eq_of_ofDigitChars
    (length_pad (List.length_pos_iff.mpr hne) (ofDigitChars_lt h))
    (fun _ hc => isDigit_of_mem_pad hc) h (ofDigitChars_pad _ _)

end Decimal
