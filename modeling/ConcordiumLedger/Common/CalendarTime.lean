import ConcordiumLedger.Common.TimeFacts
import ConcordiumLedger.Lib.Calendar

/-!
# Common.CalendarTime

The conversion of `time.c` against the calendar.

* `secondsToTm_shows`    — the fields are those of the date and time of the given second.
* `timeToDisplayText_eq` — their text is that of the date and time.

The conversion counts years from March on, so that a leap day is the last day of its year
(`march_date`).
-/

namespace ConcordiumLedger

open CMem Calendar

/-- The fields of a `tm` say which date and time it is. -/
structure Tm.Shows (tm : Tm) (t : DateTime) : Prop where
  year : tm.year + 1900 = t.date.year
  mon : tm.mon + 1 = t.date.month
  mday : tm.mday = t.date.day
  hour : tm.hour = t.hour
  min : tm.min = t.minute
  sec : tm.sec = t.second

/-! ## The months -/

/-- The loop stops in the month in which the days end. -/
theorem monthsLoop_split (days : List Int) : ∀ months remdays : Int, 0 ≤ remdays →
    remdays < days.sum → ∃ k : Nat, k < days.length ∧
      monthsLoop days months remdays = (months + k, remdays - (days.take k).sum) ∧
      0 ≤ remdays - (days.take k).sum ∧ remdays - (days.take k).sum < days.getD k 0 := by
  induction days with
  | nil =>
    intro months remdays h0 hlt
    rw [List.sum_nil] at hlt
    omega
  | cons d days ih =>
    intro months remdays h0 hlt
    rw [List.sum_cons] at hlt
    rw [monthsLoop]
    by_cases hd : d ≤ remdays
    · obtain ⟨k, hk, hloop, hlow, hup⟩ := ih (months + 1) (remdays - d) (by omega) (by omega)
      refine ⟨k + 1, by rw [List.length_cons]; omega, ?_, ?_, ?_⟩
      · rw [if_pos hd, hloop, List.take_succ_cons, List.sum_cons]
        ext
        · simp only
          omega
        · simp only
          omega
      · rw [List.take_succ_cons, List.sum_cons]
        omega
      · rw [List.take_succ_cons, List.sum_cons, List.getD_cons_succ]
        omega
    · refine ⟨0, by rw [List.length_cons]; omega, ?_, ?_, ?_⟩
      · rw [if_neg hd, List.take_zero, List.sum_nil]
        simp
      · rw [List.take_zero, List.sum_nil]
        omega
      · rw [List.take_zero, List.sum_nil, List.getD_cons_zero]
        omega

/-- The date in a year that begins with March: January and February belong to the next year of the
calendar, and its last day is the leap day of that year. -/
theorem march_date {year k : Nat} {rest : Int} (hk : k < 12) (h0 : 0 ≤ rest)
    (hrest : rest < daysInMonth.getD k 0) (hleap : k = 11 → rest = 28 → isLeap (year + 1) = true) :
    ∃ d : Date, d.year = (if 10 ≤ k then year + 1 else year) ∧
      d.month = (if 10 ≤ k then k - 9 else k + 3) ∧ (d.day : Int) = rest + 1 ∧
      (d.dayNumber : Int) = daysBeforeYear (year + 1) - 306 + (daysInMonth.take k).sum + rest := by
  by_cases hwinter : 10 ≤ k
  · have hlength : ∀ leap : Bool, ∀ i < 2, daysInMonth.getD (i + 10) 0 =
        monthLength leap i + if i = 1 ∧ leap = false then 1 else 0 := by decide
    have hbefore : ∀ leap : Bool, ∀ i < 2,
        (daysBeforeMonth leap i : Int) + 306 = (daysInMonth.take (i + 10)).sum := by decide
    obtain ⟨i, rfl⟩ : ∃ i, k = i + 10 := ⟨k - 10, by omega⟩
    have hlen := hlength (isLeap (year + 1)) i (by omega)
    have hsum := hbefore (isLeap (year + 1)) i (by omega)
    have hday : rest.toNat + 1 ≤ monthLength (isLeap (year + 1)) i := by
      by_cases hlast : i = 1 ∧ isLeap (year + 1) = false
      · obtain ⟨rfl, hno⟩ := hlast
        have hne : ¬ rest = 28 := by
          intro hrest'
          rw [hleap rfl hrest'] at hno
          cases hno
        have h28 : monthLength (isLeap (year + 1)) 1 = 28 := by
          rw [hno]
          rfl
        rw [h28] at hlen ⊢
        simp only [hno, and_self, if_true] at hlen
        omega
      · rw [if_neg hlast] at hlen
        omega
    refine ⟨⟨year + 1, i + 1, rest.toNat + 1, by omega, ⟨by omega, hday⟩⟩, (if_pos hwinter).symm,
      ?_, ?_, ?_⟩
    · rw [if_pos hwinter]
      show i + 1 = i + 10 - 9
      omega
    · show ((rest.toNat + 1 : Nat) : Int) = _
      omega
    · simp only [Date.dayNumber, Date.dayOfYear, Nat.add_sub_cancel]
      omega
  · have hlength : ∀ leap : Bool, ∀ i < 10,
        daysInMonth.getD i 0 = monthLength leap (i + 2) := by decide
    have hbefore : ∀ leap : Bool, ∀ i < 10, (daysBeforeMonth leap (i + 2) : Int) + 306 =
        (if leap then 366 else 365) + (daysInMonth.take i).sum := by decide
    have hlen := hlength (isLeap year) k (by omega)
    have hsum := hbefore (isLeap year) k (by omega)
    refine ⟨⟨year, k + 3, rest.toNat + 1, by omega, ⟨by omega, ?_⟩⟩, (if_neg hwinter).symm,
      (if_neg hwinter).symm, ?_, ?_⟩
    · show rest.toNat + 1 ≤ monthLength (isLeap year) (k + 2)
      omega
    · simp only
      omega
    · have hindex : k + 3 - 1 = k + 2 := rfl
      simp only [Date.dayNumber, Date.dayOfYear, Nat.add_sub_cancel, hindex, daysBeforeYear,
        yearLength]
      split at hsum
      · rename_i hyear
        rw [if_pos hyear]
        omega
      · rename_i hyear
        rw [if_neg hyear]
        omega

/-! ## The conversion -/

/-- The days in front of the March of the year `year`, by cycles of 400, 100 and 4 years from the
year 1600 on. -/
theorem daysBeforeYear_cycles {year a c q y : Nat} (hyear : year = 1600 + 400 * a + 100 * c + 4 * q + y)
    (hc : c < 4) (hq : q < 25) (hy : y < 4) :
    daysBeforeYear (year + 1) = 146097 * a + 36524 * c + 1461 * q + 365 * y + 584754 := by
  have heq := daysBeforeYear_eq (year + 1)
  omega

theorem secondsToTm_shows {t : Int} {tm : Tm} (h : secondsToTm t = some tm) (h0 : 0 ≤ t) :
    ∃ d : DateTime, tm.Shows d ∧ d.unixSeconds = t := by
  unfold secondsToTm at h
  split at h
  · cases h
  have hleap : leapoch = 951868800 := by decide
  have h100 : daysPer100Y = 36524 := by decide
  have h4 : daysPer4Y = 1461 := by decide
  obtain ⟨hs0, hs1, hs⟩ := splitDays_range (t - leapoch)
  obtain ⟨hd0, hd1, hd⟩ := splitQcCycles_range (splitDays (t - leapoch)).1
  simp only [h100, h4] at h
  generalize splitDays (t - leapoch) = day at *
  generalize splitQcCycles day.1 = qc at *
  have hc := cycles_range qc.2 36524 4 (by decide) hd0 (by decide) (by omega)
  generalize cycles qc.2 36524 4 = c at *
  have hq := cycles_range (qc.2 - c * 36524) 1461 25 (by decide) (by omega) (by decide) (by omega)
  generalize cycles (qc.2 - c * 36524) 1461 25 = q at *
  have hy := cycles_range (qc.2 - c * 36524 - q * 1461) 365 4 (by decide) (by omega) (by decide)
    (by omega)
  generalize cycles (qc.2 - c * 36524 - q * 1461) 365 4 = y at *
  generalize hR : qc.2 - c * 36524 - q * 1461 - y * 365 = remdays at *
  have hsum : daysInMonth.sum = 366 := by decide
  obtain ⟨k, hk, hloop, hrest0, hrest⟩ := monthsLoop_split daysInMonth 0 remdays (by omega)
    (by omega)
  rw [hloop] at h
  have hlen : daysInMonth.length = 12 := by decide
  rw [hlen] at hk
  split at h
  · cases h
  -- the year that begins with March, counted from the year 0
  obtain ⟨a, ha⟩ : ∃ a : Nat, (a : Int) = qc.1 + 1 := ⟨(qc.1 + 1).toNat, by omega⟩
  obtain ⟨year, hyear⟩ : ∃ year : Nat, (year : Int) = 2000 + (y + 4 * q + 100 * c + 400 * qc.1) :=
    ⟨(2000 + (y + 4 * q + 100 * c + 400 * qc.1)).toNat, by omega⟩
  have hdays := @daysBeforeYear_cycles year a c.toNat q.toNat y.toNat (by omega)
    (by omega) (by omega) (by omega)
  have hfeb : (daysInMonth.take 11).sum = 337 := by decide
  obtain ⟨date, hdy, hdm, hdd, hdn⟩ := @march_date year _ _ hk hrest0 hrest (by
    rintro rfl h28
    simp only [isLeap, Bool.and_eq_true, Bool.or_eq_true, decide_eq_true_eq]
    omega)
  have hh := tdiv_tmod day.2 3600 (by decide)
  have hmi := tdiv_tmod day.2 60 (by decide)
  have hmi' := tdiv_tmod (day.2.tdiv 60) 60 (by decide)
  have hnumber : (date.dayNumber : Int) = day.1 + 730545 := by omega
  refine ⟨⟨date, (day.2.tdiv 3600).toNat, ((day.2.tdiv 60).tmod 60).toNat, (day.2.tmod 60).toNat,
    by omega, by omega, by omega⟩, ?_, ?_⟩
  · split at h
    · rename_i hwinter
      cases h
      rw [if_pos (by omega)] at hdy hdm
      constructor <;> simp only <;> omega
    · rename_i hwinter
      cases h
      rw [if_neg (by omega)] at hdy hdm
      constructor <;> simp only <;> omega
  · rw [DateTime.unixSeconds, DateTime.unixEpoch_seconds]
    simp only [DateTime.seconds]
    push_cast
    rw [hnumber]
    omega

/-! ## The text -/

theorem prefixWithZero_append {v : Int} {n : Nat} (hv : v = n) (hn : n < 100) :
    prefixWithZero v ++ decimal n = lastDigits 2 n := by
  have htwo : lastDigits 2 n = [.ofNat (n / 10 % 10 + 48), .ofNat (n % 10 + 48)] := rfl
  rw [prefixWithZero, htwo]
  by_cases hlt : v < 10
  · have hone : n / 10 % 10 = 0 := by omega
    have hself : n % 10 = n := by omega
    rw [if_pos hlt, decimal_of_lt (by omega), hone, hself]
    rfl
  · have hmod : n / 10 % 10 = n / 10 := by omega
    rw [if_neg hlt, decimal_of_ge (by omega), decimal_of_lt (by omega), hmod]
    rfl

theorem ofInt_eq {v : Int} {n : Nat} (hv : v = n) : (UInt64.ofInt v).toNat = n % 2 ^ 64 := by
  simp only [UInt64.ofInt, UInt64.toNat_ofNat']
  omega

theorem twoDigits_eq {L : Nat} {text t : List UInt8} {v : Int} {n : Nat} (hv : v = n)
    (hn : n < 100) (h : twoDigits L text v = .ok t) : t = text ++ lastDigits 2 n := by
  obtain ⟨number, hnumber, h⟩ := except_bind_ok h
  cases h
  rw [numberToText_eq hnumber, ofInt_eq hv, Nat.mod_eq_of_lt (by omega), List.append_assoc,
    prefixWithZero_append hv hn]

theorem timeToDisplayText_eq {tm : Tm} {t : DateTime} {L : Nat} {text : List UInt8}
    (ht : tm.Shows t) (hyear : tm.year ≤ 9999) (h : timeToDisplayText tm L = .ok text) :
    text = t.text ++ [0] := by
  have hmonth := t.date.month_range
  have hday := t.date.day_range
  have hlength := DateTime.monthLength_le (isLeap t.date.year) (t.date.month - 1)
  have hhour := t.hour_lt
  have hminute := t.minute_lt
  have hsecond := t.second_lt
  have hy := ht.year
  obtain ⟨t1, h1, h⟩ := except_bind_ok h
  obtain ⟨t2, h2, h⟩ := except_bind_ok h
  obtain ⟨t3, h3, h⟩ := except_bind_ok h
  obtain ⟨t4, h4, h⟩ := except_bind_ok h
  obtain ⟨t5, h5, h⟩ := except_bind_ok h
  obtain ⟨t6, h6, h⟩ := except_bind_ok h
  cases h
  have e1 := numberToText_eq h1
  rw [ofInt_eq ht.year, Nat.mod_eq_of_lt (by omega)] at e1
  have e2 := twoDigits_eq ht.mon (by omega) h2
  have e3 := twoDigits_eq ht.mday (by omega) h3
  have e4 := twoDigits_eq ht.hour (by omega) h4
  have e5 := twoDigits_eq ht.min (by omega) h5
  have e6 := bin2dec_eq h6
  rw [ofInt_eq ht.sec, Nat.mod_eq_of_lt (by omega)] at e6
  have hsec := prefixWithZero_append ht.sec (by omega)
  rw [e6, e5, e4, e3, e2, e1, DateTime.text, ← hsec]
  simp only [List.append_assoc]

theorem numberToText_fits {L : Nat} {number : UInt64} (h : lengthOfNumber number ≤ L) :
    numberToText L number = .ok (decimal number.toNat) := by
  rw [numberToText, if_neg (by omega), digitsText_lengthOfNumber]

theorem bin2dec_fits {L : Nat} {number : UInt64} (h : lengthOfNumber number + 1 ≤ L) :
    bin2dec L number = .ok (decimal number.toNat ++ [0]) := by
  have hlen := decimal_length number
  rw [bin2dec, numberToText_fits (by omega)]
  show (if L < (decimal number.toNat).length + 1 then _ else _) = _
  rw [if_neg (by omega)]

theorem twoDigits_fits {text : List UInt8} {v : Int} (h0 : 0 ≤ v) (hlt : v < 100)
    (h : text.length + 2 ≤ 25) :
    ∃ t, twoDigits 25 text v = .ok t ∧ t.length ≤ text.length + 2 := by
  have hlen := prefixWithZero_length h0 hlt
  have hroom : lengthOfNumber (.ofInt v) ≤ subSize 25 (text ++ prefixWithZero v).length := by
    rw [subSize, List.length_append]
    omega
  have hok : twoDigits 25 text v =
      .ok (text ++ prefixWithZero v ++ decimal (UInt64.ofInt v).toNat) := by
    simp only [twoDigits, numberToText_fits hroom]
    rfl
  exact ⟨_, hok, twoDigits_length h0 hlt hok⟩

/-- 25 bytes take the text of any time up to the year 11899. -/
theorem timeToDisplayText_fits {tm : Tm} (hr : tm.InRange) (hy : -1900 ≤ tm.year)
    (hy' : tm.year ≤ 9999) : ∃ text, timeToDisplayText tm 25 = .ok text := by
  have hyear := uint64_ofInt_toNat (v := tm.year + 1900) (by omega) (by omega)
  have hlen := lengthOfNumber_le (.ofInt (tm.year + 1900)) (j := 5) (by decide) (by omega)
  have h1 : numberToText 25 (.ofInt (tm.year + 1900)) = _ := numberToText_fits (by omega)
  have l1 := (numberToText_length h1).1
  obtain ⟨t2, h2, l2⟩ := @twoDigits_fits (_ ++ [45]) (tm.mon + 1)
    (by have := hr.mon; omega) (by have := hr.mon; omega)
    (by rw [List.length_append, l1, List.length_singleton]; omega)
  rw [List.length_append, l1, List.length_singleton] at l2
  obtain ⟨t3, h3, l3⟩ := @twoDigits_fits (t2 ++ [45]) tm.mday
    (by have := hr.mday; omega) (by have := hr.mday; omega)
    (by rw [List.length_append, List.length_singleton]; omega)
  rw [List.length_append, List.length_singleton] at l3
  obtain ⟨t4, h4, l4⟩ := @twoDigits_fits (t3 ++ [32]) tm.hour hr.hour.1
    (by have := hr.hour; omega) (by rw [List.length_append, List.length_singleton]; omega)
  rw [List.length_append, List.length_singleton] at l4
  obtain ⟨t5, h5, l5⟩ := @twoDigits_fits (t4 ++ [58]) tm.min hr.min.1
    (by have := hr.min; omega) (by rw [List.length_append, List.length_singleton]; omega)
  rw [List.length_append, List.length_singleton] at l5
  have l6 := prefixWithZero_length hr.sec.1 (by have := hr.sec; omega)
  have h6 : bin2dec (subSize 25 (t5 ++ [58] ++ prefixWithZero tm.sec).length) (.ofInt tm.sec) = _ :=
    bin2dec_fits (by
      rw [subSize, List.length_append, List.length_append, List.length_singleton]
      omega)
  have hok : timeToDisplayText tm 25 = .ok (t5 ++ [58] ++ prefixWithZero tm.sec ++
      (decimal (UInt64.ofInt tm.sec).toNat ++ [0])) := by
    rw [timeToDisplayText, h1]
    show (twoDigits 25 _ _ >>= _) = _
    rw [h2]
    show (twoDigits 25 _ _ >>= _) = _
    rw [h3]
    show (twoDigits 25 _ _ >>= _) = _
    rw [h4]
    show (twoDigits 25 _ _ >>= _) = _
    rw [h5]
    show (bin2dec (subSize 25 (t5 ++ [58] ++ prefixWithZero tm.sec).length) _ >>= _) = _
    rw [h6]
    rfl
  exact ⟨_, hok⟩

/-- Every second that fits in 55 bits has a year that fits in an `int`. -/
theorem secondsToTm_isSome {t : Int} (h0 : 0 ≤ t) (h : t < 2 ^ 55) :
    ∃ tm, secondsToTm t = some tm := by
  have hmax : intMax = 2147483647 := by decide
  have hmin : intMin = -2147483648 := by decide
  have hleap : leapoch = 951868800 := by decide
  obtain ⟨hs0, hs1, hs⟩ := splitDays_range (t - leapoch)
  obtain ⟨hd0, hd1, hd⟩ := splitQcCycles_range (splitDays (t - leapoch)).1
  have h100 : daysPer100Y = 36524 := by decide
  have h4 : daysPer4Y = 1461 := by decide
  unfold secondsToTm
  rw [if_neg (by omega)]
  simp only [h100, h4]
  generalize splitDays (t - leapoch) = day at *
  generalize splitQcCycles day.1 = qc at *
  have hc := cycles_range qc.2 36524 4 (by decide) hd0 (by decide) (by omega)
  generalize cycles qc.2 36524 4 = c at *
  have hq := cycles_range (qc.2 - c * 36524) 1461 25 (by decide) (by omega) (by decide) (by omega)
  generalize cycles (qc.2 - c * 36524) 1461 25 = q at *
  have hy := cycles_range (qc.2 - c * 36524 - q * 1461) 365 4 (by decide) (by omega) (by decide)
    (by omega)
  generalize cycles (qc.2 - c * 36524 - q * 1461) 365 4 = y at *
  rw [if_neg (by omega)]
  exact ⟨_, rfl⟩

end ConcordiumLedger
