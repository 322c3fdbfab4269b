import ConcordiumLedger.Lib.DecimalText

/-!
# Lib.Calendar

The proleptic Gregorian calendar, counted in days and in seconds.

* `Date`, `DateTime` — a day of the calendar and a second of it, with the fields in their ranges.
* `dayNumber`        — the days since the first day of the year 0, counted year by year and month
  by month.
* `seconds`          — the seconds since then; a second has one date and time.
* `text`             — `Y-MM-DD hh:mm:ss`.
-/

namespace Calendar

/-! ## Years and months -/

def isLeap (year : Nat) : Bool := year % 4 = 0 && (year % 100 ≠ 0 || year % 400 = 0)

def yearLength (year : Nat) : Nat := if isLeap year then 366 else 365

def daysBeforeYear : Nat → Nat
  | 0 => 0
  | year + 1 => daysBeforeYear year + yearLength year

/-- The length of the month with the given index: January has the index 0. -/
def monthLength (leap : Bool) (index : Nat) : Nat :=
  [31, if leap then 29 else 28, 31, 30, 31, 30, 31, 31, 30, 31, 30, 31].getD index 0

def daysBeforeMonth (leap : Bool) : Nat → Nat
  | 0 => 0
  | index + 1 => daysBeforeMonth leap index + monthLength leap index

theorem daysBeforeYear_eq (year : Nat) :
    daysBeforeYear year + (year + 99) / 100 = 365 * year + (year + 3) / 4 + (year + 399) / 400 := by
  induction year with
  | zero => rfl
  | succ year ih =>
    rw [daysBeforeYear, yearLength]
    split
    · rename_i hleap
      simp only [isLeap, Bool.and_eq_true, Bool.or_eq_true, decide_eq_true_eq] at hleap
      omega
    · rename_i hleap
      simp only [isLeap, Bool.and_eq_true, Bool.or_eq_true, decide_eq_true_eq] at hleap
      omega

/-- A count by periods, in which a number is a period and a rest below its length, determines
both of them. -/
theorem period_unique {before : Nat → Nat} {length : Nat → Nat}
    (hsucc : ∀ n, before (n + 1) = before n + length n) {m n i j : Nat} (hi : i < length m)
    (hj : j < length n) (h : before m + i = before n + j) : m = n ∧ i = j := by
  have hmono : Monotone before := monotone_nat_of_le_succ fun k => by
    rw [hsucc]
    exact Nat.le_add_right _ _
  have hnot : ∀ {a b x y : Nat}, x < length a → before a + x = before b + y → ¬ a < b := by
    intro a b x y hx hxy hab
    have hle := hmono hab
    rw [hsucc] at hle
    omega
  have hm : ¬ m < n := hnot hi h
  have hn : ¬ n < m := hnot hj h.symm
  obtain rfl : m = n := by omega
  exact ⟨rfl, by omega⟩

/-! ## Dates -/

/-- A day of the calendar. -/
structure Date where
  year : Nat
  month : Nat
  day : Nat
  month_range : 1 ≤ month ∧ month ≤ 12
  day_range : 1 ≤ day ∧ day ≤ monthLength (isLeap year) (month - 1)

namespace Date

def dayOfYear (d : Date) : Nat := daysBeforeMonth (isLeap d.year) (d.month - 1) + (d.day - 1)

def dayNumber (d : Date) : Nat := daysBeforeYear d.year + d.dayOfYear

theorem dayOfYear_lt (d : Date) : d.dayOfYear < yearLength d.year := by
  have hall : ∀ leap : Bool, ∀ i < 12, daysBeforeMonth leap i + monthLength leap i ≤
      if leap then 366 else 365 := by decide
  have hmonth := d.month_range
  have hday := d.day_range
  have hle := hall (isLeap d.year) (d.month - 1) (by omega)
  rw [dayOfYear, yearLength]
  omega

theorem dayNumber_injective {d e : Date} (h : d.dayNumber = e.dayNumber) : d = e := by
  have hyear := period_unique (fun _ => rfl) d.dayOfYear_lt e.dayOfYear_lt h
  cases d with
  | mk year month day hmonth hday =>
    cases e with
    | mk year' month' day' hmonth' hday' =>
      obtain ⟨hyear, hdays⟩ := hyear
      replace hyear : year = year' := hyear
      subst hyear
      have hlt : day - 1 < monthLength (isLeap year) (month - 1) := by omega
      have hlt' : day' - 1 < monthLength (isLeap year) (month' - 1) := by omega
      have := period_unique (fun _ => rfl) hlt hlt' hdays
      obtain rfl : month = month' := by omega
      obtain rfl : day = day' := by omega
      rfl

end Date

/-- A second of the calendar. -/
structure DateTime where
  date : Date
  hour : Nat
  minute : Nat
  second : Nat
  hour_lt : hour < 24
  minute_lt : minute < 60
  second_lt : second < 60

namespace DateTime

/-- The seconds since the beginning of the year 0. -/
def seconds (t : DateTime) : Nat :=
  86400 * t.date.dayNumber + 3600 * t.hour + 60 * t.minute + t.second

theorem seconds_injective {t u : DateTime} (h : t.seconds = u.seconds) : t = u := by
  cases t with
  | mk date hour minute second hhour hminute hsecond =>
    cases u with
    | mk date' hour' minute' second' hhour' hminute' hsecond' =>
      simp only [seconds] at h
      obtain rfl : date = date' := Date.dayNumber_injective (by omega)
      obtain rfl : hour = hour' := by omega
      obtain rfl : minute = minute' := by omega
      obtain rfl : second = second' := by omega
      rfl

/-- The first second of 1970. -/
def unixEpoch : DateTime where
  date :=
    { year := 1970
      month := 1
      day := 1
      month_range := by decide
      day_range := by decide }
  hour := 0
  minute := 0
  second := 0
  hour_lt := by decide
  minute_lt := by decide
  second_lt := by decide

theorem unixEpoch_seconds : unixEpoch.seconds = 62167219200 := by
  have hyears := daysBeforeYear_eq 1970
  simp only [seconds, unixEpoch, Date.dayNumber, Date.dayOfYear, Nat.sub_self, daysBeforeMonth]
  omega

/-- The seconds since 1970. -/
def unixSeconds (t : DateTime) : Int := t.seconds - unixEpoch.seconds

theorem unixSeconds_injective {t u : DateTime} (h : t.unixSeconds = u.unixSeconds) : t = u := by
  apply seconds_injective
  simp only [unixSeconds] at h
  omega

/-! ## Texts -/

open CMem

/-- `Y-MM-DD hh:mm:ss` -/
def text (t : DateTime) : List UInt8 :=
  decimal t.date.year ++ [45] ++ lastDigits 2 t.date.month ++ [45] ++ lastDigits 2 t.date.day ++
    [32] ++ lastDigits 2 t.hour ++ [58] ++ lastDigits 2 t.minute ++ [58] ++ lastDigits 2 t.second

theorem monthLength_le (leap : Bool) (index : Nat) : monthLength leap index ≤ 31 := by
  by_cases h : index < 12
  · have hall : ∀ leap : Bool, ∀ i < 12, monthLength leap i ≤ 31 := by decide
    exact hall leap index h
  · rw [monthLength, List.getD_eq_getElem?_getD, List.getElem?_eq_none (Nat.not_lt.mp h)]
    decide

theorem append_lastDigits_inj {a b : List UInt8} {k m n : Nat} (hm : m < 10 ^ k) (hn : n < 10 ^ k)
    (h : a ++ lastDigits k m = b ++ lastDigits k n) : a = b ∧ m = n := by
  obtain ⟨hfront, hback⟩ := List.append_inj' h (by rw [lastDigits_length, lastDigits_length])
  have hvalue := congrArg digitsValue hback
  rw [digitsValue_lastDigits, digitsValue_lastDigits, Nat.mod_eq_of_lt hm, Nat.mod_eq_of_lt hn]
    at hvalue
  exact ⟨hfront, hvalue⟩

/-- The text says what date and time it is. -/
theorem text_injective {t u : DateTime} (h : t.text = u.text) : t = u := by
  have hday := monthLength_le (isLeap t.date.year) (t.date.month - 1)
  have hday' := monthLength_le (isLeap u.date.year) (u.date.month - 1)
  have hd := t.date.day_range
  have hd' := u.date.day_range
  have hm := t.date.month_range
  have hm' := u.date.month_range
  obtain ⟨h, hsecond⟩ := append_lastDigits_inj (by have := t.second_lt; omega)
    (by have := u.second_lt; omega) h
  obtain ⟨h, hminute⟩ := append_lastDigits_inj (by have := t.minute_lt; omega)
    (by have := u.minute_lt; omega) (List.append_cancel_right h)
  obtain ⟨h, hhour⟩ := append_lastDigits_inj (by have := t.hour_lt; omega)
    (by have := u.hour_lt; omega) (List.append_cancel_right h)
  obtain ⟨h, hday⟩ := append_lastDigits_inj (by omega) (by omega) (List.append_cancel_right h)
  obtain ⟨h, hmonth⟩ := append_lastDigits_inj (by omega) (by omega) (List.append_cancel_right h)
  have hyear := congrArg digitsValue (List.append_cancel_right h)
  rw [digitsValue_decimal, digitsValue_decimal] at hyear
  apply seconds_injective
  simp only [seconds, Date.dayNumber, Date.dayOfYear, hsecond, hminute, hhour, hday, hmonth, hyear]

end DateTime

end Calendar
