import Mathlib.Algebra.Group.Nat.Basic
import Mathlib.Data.Nat.Digits

/-!
# chrono's calendar readings

The staging layer reads and compares `DateTime<Utc>` values by their calendar fields.
chrono builds one only from a date of the proleptic Gregorian calendar inside its year
range and a time of day below 24:00:00, so the structure carries that check as a field and
`Utc.with_ymd_and_hms` is its one constructor. Readings are ordered as chrono orders
them: by date, then by time of day. Fixed-width decimal text, which both the staging file
names and the date display use, closes the module, with the proof that the date display
tells calendar days apart in every year chrono allows, the signed five-digit ones included.
-/

namespace Parseable.Chrono

/-- The year of `NaiveDate::MIN`. -/
def minYear : Int := -262143

/-- The year of `NaiveDate::MAX`. -/
def maxYear : Int := 262142

/-- A leap year of the proleptic Gregorian calendar (chrono's `YearFlags`). -/
def isLeapYear (year : Int) : Bool :=
  year % 4 == 0 && (year % 100 != 0 || year % 400 == 0)

/-- The days of a month, January being 1. -/
def daysInMonth (year : Int) (month : Nat) : Nat :=
  match month with
  | 2 => if isLeapYear year then 29 else 28
  | 4 | 6 | 9 | 11 => 30
  | _ => 31

/-- `NaiveDate::from_ymd_opt` and `NaiveTime::from_hms_opt` both succeed. -/
def validYmdHms (year : Int) (month day hour min sec : Nat) : Bool :=
  minYear ≤ year && year ≤ maxYear && 1 ≤ month && month ≤ 12 && 1 ≤ day &&
    day ≤ daysInMonth year month && hour < 24 && min < 60 && sec < 60

/-- A `DateTime<Utc>` at a whole second; chrono builds no other. -/
structure DateTime where
  year : Int
  month : Nat
  day : Nat
  hour : Nat
  minute : Nat
  second : Nat
  valid : validYmdHms year month day hour minute second = true
  deriving DecidableEq, Repr

/-- `Utc.with_ymd_and_hms`: `LocalResult::Single` of a valid reading, `LocalResult::None`
otherwise (a fixed offset is never ambiguous). -/
def withYmdAndHms (year : Int) (month day hour min sec : Nat) : Option DateTime :=
  if h : validYmdHms year month day hour min sec = true then
    some ⟨year, month, day, hour, min, sec, h⟩
  else none

/-- No month has more than 31 days. -/
theorem daysInMonth_le (year : Int) (month : Nat) : daysInMonth year month ≤ 31 := by
  unfold daysInMonth
  split
  · split <;> omega
  all_goals omega

/-- The ranges every field of a reading keeps. -/
theorem DateTime.bounds (time : DateTime) :
    1 ≤ time.month ∧ time.month ≤ 12 ∧ 1 ≤ time.day ∧ time.day ≤ 31 ∧ time.hour < 24 ∧
      time.minute < 60 ∧ time.second < 60 := by
  have h := time.valid
  simp only [validYmdHms, Bool.and_eq_true, decide_eq_true_eq] at h
  have := daysInMonth_le time.year time.month
  omega

/-- A date-time's own fields build it back. -/
theorem withYmdAndHms_fields (time : DateTime) :
    withYmdAndHms time.year time.month time.day time.hour time.minute time.second = some time :=
  dif_pos time.valid

/-- The place of a reading within its year. chrono compares the date (year, then day of the
year) and then the second of the day; with every field inside its range this orders the
month, day, hour, minute and second lexicographically. -/
def DateTime.rank (time : DateTime) : Nat :=
  (((time.month * 32 + time.day) * 24 + time.hour) * 60 + time.minute) * 60 + time.second

/-- The order of date-times: by year, then by month, day, hour, minute and second. -/
instance : LE DateTime := ⟨fun a b => a.year < b.year ∨ a.year = b.year ∧ a.rank ≤ b.rank⟩

/-- Comparing date-times is decidable. -/
instance (a b : DateTime) : Decidable (a ≤ b) := inferInstanceAs (Decidable (_ ∨ _))

/-! ## Fixed-width decimal text -/

/-- The decimal digit `d` as a char. -/
def digitChar (d : Nat) : Char := Char.ofNat ('0'.toNat + d)

/-- The last `w` decimal digits of `n`, most significant first: what chrono's
`write_hundreds` and Rust's `{:02}` and `{:04}` print for a value below `10 ^ w`. -/
def digits : Nat → Nat → List Char
  | 0, _ => []
  | w + 1, n => digitChar (n / 10 ^ w % 10) :: digits w n

/-- A decimal digit's char is a digit, reads back as that digit, and takes one byte. -/
theorem digitChar_spec : ∀ d, d < 10 →
    (digitChar d).isDigit = true ∧ (digitChar d).toNat - '0'.toNat = d ∧ (digitChar d).utf8Size = 1 := by
  decide

/-- A fixed-width decimal text has its width. -/
@[simp] theorem length_digits (w n : Nat) : (digits w n).length = w := by
  induction w with
  | zero => rfl
  | succ w ih => simp [digits, ih]

/-- Every char of a fixed-width decimal text is a digit's char. -/
theorem mem_digits {w n : Nat} {c : Char} (h : c ∈ digits w n) : ∃ d < 10, c = digitChar d := by
  induction w with
  | zero => cases h
  | succ w ih =>
    rcases List.mem_cons.mp h with h | h
    · exact ⟨_, Nat.mod_lt _ (by decide), h⟩
    · exact ih h

/-- A year in chrono's `%Y`: four digits in `0..=9999`, and otherwise its sign and at least
four digits (`{:+05}`). -/
def yearText (year : Int) : List Char :=
  if 0 ≤ year ∧ year ≤ 9999 then digits 4 year.toNat
  else (if year < 0 then '-' else '+') ::
    if year.natAbs < 10000 then digits 4 year.natAbs else Nat.toDigits 10 year.natAbs

/-- `date_naive().to_string()`: the Display of a reading's date, `%Y-%m-%d`. -/
def DateTime.dateNaiveString (time : DateTime) : String :=
  ⟨yearText time.year ++ '-' :: digits 2 time.month ++ '-' :: digits 2 time.day⟩

/-! ## Reading a date's text back -/

/-- A digit's char reads back as that digit. -/
theorem digitChar_toNat_sub {d : Nat} (hd : d < 10) : (digitChar d).toNat - '0'.toNat = d :=
  (digitChar_spec d hd).2.1

/-- A digit's char is no sign. -/
theorem digitChar_ne_sign {d : Nat} (hd : d < 10) : digitChar d ≠ '-' ∧ digitChar d ≠ '+' := by
  revert d; decide

/-- The digit chars agree with those of `Nat.toDigits`. -/
theorem digitChar_eq_nat_digitChar {d : Nat} (hd : d < 10) : Nat.digitChar d = digitChar d := by
  revert d; decide

/-- Equal texts of width `w` are of numbers equal modulo `10 ^ w`. -/
theorem mod_eq_of_digits_eq {w a b : Nat} (h : digits w a = digits w b) : a % 10 ^ w = b % 10 ^ w := by
  induction w with
  | zero => simp only [pow_zero, Nat.mod_one]
  | succ w ih =>
    simp only [digits, List.cons.injEq] at h
    have hd : a / 10 ^ w % 10 = b / 10 ^ w % 10 := by
      rw [← digitChar_toNat_sub (Nat.mod_lt _ (by decide)), h.1, digitChar_toNat_sub (Nat.mod_lt _ (by decide))]
    rw [Nat.mod_pow_succ, Nat.mod_pow_succ, ih h.2, hd]

/-- One step of `Nat.toDigitsCore` in base 10. -/
theorem toDigitsCore_succ (f n : Nat) (ds : List Char) :
    Nat.toDigitsCore 10 (f + 1) n ds =
      if n / 10 = 0 then Nat.digitChar (n % 10) :: ds
      else Nat.toDigitsCore 10 f (n / 10) (Nat.digitChar (n % 10) :: ds) := rfl

/-- With enough fuel, the digits `Nat.toDigits` prints are those of `Nat.digits`, most
significant first. -/
theorem toDigitsCore_eq {f n : Nat} (ds : List Char) (hn : 0 < n) (hf : n < f) :
    Nat.toDigitsCore 10 f n ds = (Nat.digits 10 n).reverse.map digitChar ++ ds := by
  induction f generalizing n ds with
  | zero => omega
  | succ f ih =>
    rw [toDigitsCore_succ, Nat.digits_def' (by decide) hn, List.reverse_cons, List.map_append,
      List.append_assoc, digitChar_eq_nat_digitChar (Nat.mod_lt _ (by decide))]
    by_cases h : n / 10 = 0
    · rw [if_pos h, h, Nat.digits_zero]; rfl
    · rw [if_neg h, ih _ (Nat.pos_of_ne_zero h) (by omega)]; rfl

/-- `Nat.toDigits` of a positive number is its decimal digits, most significant first. -/
theorem toDigits_eq {n : Nat} (hn : 0 < n) : Nat.toDigits 10 n = (Nat.digits 10 n).reverse.map digitChar := by
  rw [Nat.toDigits, toDigitsCore_eq [] hn (Nat.lt_succ_self n), List.append_nil]

/-- The value of each printed digit. -/
theorem map_toNat_sub_toDigits {n : Nat} (hn : 0 < n) :
    (Nat.toDigits 10 n).map (fun c => c.toNat - '0'.toNat) = (Nat.digits 10 n).reverse := by
  rw [toDigits_eq hn, List.map_map]
  conv_rhs => rw [← List.map_id (Nat.digits 10 n).reverse]
  exact List.map_congr_left fun d hd =>
    digitChar_toNat_sub (Nat.digits_lt_base (by decide) (List.mem_reverse.mp hd))

/-- Distinct positive numbers print differently. -/
theorem toDigits_injective {a b : Nat} (ha : 0 < a) (hb : 0 < b) (h : Nat.toDigits 10 a = Nat.toDigits 10 b) :
    a = b := by
  have hd := congrArg (List.map fun c => c.toNat - '0'.toNat) h
  rw [map_toNat_sub_toDigits ha, map_toNat_sub_toDigits hb, List.reverse_inj] at hd
  rw [← Nat.ofDigits_digits 10 a, hd, Nat.ofDigits_digits]

/-- `Nat.toDigits` of a positive number has as many chars as it has digits. -/
theorem length_toDigits {n : Nat} (hn : 0 < n) : (Nat.toDigits 10 n).length = (Nat.digits 10 n).length := by
  rw [toDigits_eq hn, List.length_map, List.length_reverse]


/-- Five digits or more for a magnitude of at least `10000`. -/
theorem four_lt_length_toDigits {n : Nat} (hn : ¬n < 10000) : 4 < (Nat.toDigits 10 n).length := by
  rw [length_toDigits (by omega)]
  refine Nat.lt_of_not_le fun hl => hn ?_
  calc n < 10 ^ (Nat.digits 10 n).length := Nat.lt_base_pow_length_digits (by decide)
    _ ≤ 10 ^ 4 := Nat.pow_le_pow_right (by decide) hl
    _ = 10000 := rfl

/-- The magnitude a year's text shows after its sign determines it. -/
theorem magnitude_injective {a b : Nat}
    (h : (if a < 10000 then digits 4 a else Nat.toDigits 10 a) =
      if b < 10000 then digits 4 b else Nat.toDigits 10 b) : a = b := by
  by_cases ha : a < 10000 <;> by_cases hb : b < 10000 <;> simp only [ha, hb, if_true, if_false] at h
  · have hab := mod_eq_of_digits_eq h
    rw [show (10 : Nat) ^ 4 = 10000 from rfl, Nat.mod_eq_of_lt ha, Nat.mod_eq_of_lt hb] at hab
    exact hab
  · have hl := congrArg List.length h
    rw [length_digits] at hl
    exact absurd hl (Nat.ne_of_lt (four_lt_length_toDigits hb))
  · have hl := congrArg List.length h
    rw [length_digits] at hl
    exact absurd hl.symm (Nat.ne_of_lt (four_lt_length_toDigits ha))
  · exact toDigits_injective (by omega) (by omega) h

/-- A fixed-width decimal text never starts with a sign. -/
theorem digits_ne_sign_cons (w n : Nat) (y : Int) (rest : List Char) :
    digits (w + 1) n ≠ (if y < 0 then '-' else '+') :: rest := by
  intro h
  have hd := digitChar_ne_sign (Nat.mod_lt (n / 10 ^ w) (by decide : 10 > 0))
  rw [digits, List.cons.injEq] at h
  by_cases hy : y < 0 <;> simp only [hy, if_true, if_false] at h
  exacts [hd.1 h.1, hd.2 h.1]

/-- chrono's `%Y` is injective: no two years print alike. -/
theorem yearText_injective {y y' : Int} (h : yearText y = yearText y') : y = y' := by
  unfold yearText at h
  by_cases hy : 0 ≤ y ∧ y ≤ 9999 <;> by_cases hy' : 0 ≤ y' ∧ y' ≤ 9999 <;>
    simp only [hy, hy', if_true, if_false] at h
  · have hab := mod_eq_of_digits_eq h
    rw [show (10 : Nat) ^ 4 = 10000 from rfl, Nat.mod_eq_of_lt (by omega), Nat.mod_eq_of_lt (by omega)] at hab
    omega
  · exact absurd h (digits_ne_sign_cons 3 _ y' _)
  · exact absurd h.symm (digits_ne_sign_cons 3 _ y _)
  · obtain ⟨hsign, hmag⟩ := List.cons.inj h
    have habs := magnitude_injective hmag
    by_cases hn : y < 0 <;> by_cases hn' : y' < 0 <;> simp only [hn, hn', if_true, if_false] at hsign
    all_goals first | omega | exact absurd hsign (by decide)

/-- A year prints as four chars at least. -/
theorem four_le_length_yearText (year : Int) : 4 ≤ (yearText year).length := by
  have hmag : 4 ≤ (if year.natAbs < 10000 then digits 4 year.natAbs else Nat.toDigits 10 year.natAbs).length := by
    split
    · simp
    · exact Nat.le_of_lt (four_lt_length_toDigits ‹_›)
  unfold yearText
  split
  · simp
  · rw [List.length_cons]; omega

/-- Two readings print the same date exactly when they fall on the same calendar day. -/
theorem dateNaiveString_eq_iff (a b : DateTime) :
    a.dateNaiveString = b.dateNaiveString ↔ a.year = b.year ∧ a.month = b.month ∧ a.day = b.day := by
  constructor
  · intro h
    obtain ⟨h, hd⟩ := List.append_inj' (congrArg String.data h) (by simp)
    obtain ⟨hy, hm⟩ := List.append_inj' h (by simp)
    have hm := mod_eq_of_digits_eq (List.cons.inj hm).2
    have hd := mod_eq_of_digits_eq (List.cons.inj hd).2
    have ha := a.bounds
    have hb := b.bounds
    rw [show (10 : Nat) ^ 2 = 100 from rfl] at hm hd
    exact ⟨yearText_injective hy, by omega, by omega⟩
  · rintro ⟨hy, hm, hd⟩
    simp only [DateTime.dateNaiveString, hy, hm, hd]

end Parseable.Chrono
