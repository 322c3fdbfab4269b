import ConcordiumLedger.Common.NumberFacts
import ConcordiumLedger.Common.Time

/-!
# Common.TimeFacts

The fields of a converted time are those of a calendar (`secondsToTm_range`), and so its text fits
the array that the scheduled transfer reserves (`timeToDisplayText_length`).
-/

namespace ConcordiumLedger

/-- The fields of a calendar time are in the ranges of a calendar. -/
structure Tm.InRange (t : Tm) : Prop where
  sec : 0 ≤ t.sec ∧ t.sec < 60
  min : 0 ≤ t.min ∧ t.min < 60
  hour : 0 ≤ t.hour ∧ t.hour < 24
  mday : 1 ≤ t.mday ∧ t.mday ≤ 31
  mon : 0 ≤ t.mon ∧ t.mon < 12

theorem tdiv_tmod (a b : Int) (hb : 0 < b) :
    a = b * a.tdiv b + a.tmod b ∧ -b < a.tmod b ∧ a.tmod b < b ∧ (0 ≤ a → 0 ≤ a.tmod b) :=
  ⟨(Int.mul_tdiv_add_tmod a b).symm, Int.lt_tmod_of_pos a hb, Int.tmod_lt_of_pos a hb,
    Int.tmod_nonneg b⟩

theorem splitDays_range (secs : Int) :
    0 ≤ (splitDays secs).2 ∧ (splitDays secs).2 < 86400 ∧
      secs = 86400 * (splitDays secs).1 + (splitDays secs).2 := by
  have h := tdiv_tmod secs 86400 (by decide)
  simp only [splitDays]
  split <;> simp only <;> omega

theorem splitQcCycles_range (days : Int) :
    0 ≤ (splitQcCycles days).2 ∧ (splitQcCycles days).2 < 146097 ∧
      days = 146097 * (splitQcCycles days).1 + (splitQcCycles days).2 := by
  have h := tdiv_tmod days 146097 (by decide)
  have hd : daysPer400Y = 146097 := by decide
  simp only [splitQcCycles, hd]
  split <;> simp only <;> omega

theorem cycles_range (remdays length most : Int) (hl : 0 < length) (h0 : 0 ≤ remdays)
    (hm : 0 < most) (hle : remdays ≤ most * length) :
    0 ≤ cycles remdays length most ∧ cycles remdays length most < most ∧
      0 ≤ remdays - cycles remdays length most * length ∧
      (remdays - cycles remdays length most * length < length ∨
        remdays = most * length ∧ cycles remdays length most = most - 1) := by
  obtain ⟨heq, _, hlt, hnn⟩ := tdiv_tmod remdays length hl
  have hnn := hnn h0
  have hq : 0 ≤ remdays.tdiv length := Int.tdiv_nonneg h0 hl.le
  have hqm : remdays.tdiv length ≤ most := by
    by_contra hc
    have : length * (most + 1) ≤ length * remdays.tdiv length :=
      Int.mul_le_mul_of_nonneg_left (by omega) hl.le
    have hc1 : length * (most + 1) = most * length + length := by ring
    omega
  simp only [cycles]
  split
  · rename_i hc
    rw [hc] at heq ⊢
    have h1 : (most - 1) * length = most * length - length := by ring
    have h2 : length * most = most * length := by ring
    refine ⟨by omega, by omega, by omega, ?_⟩
    right
    omega
  · have h2 : length * remdays.tdiv length = remdays.tdiv length * length := by ring
    refine ⟨hq, by omega, by omega, ?_⟩
    left
    omega

theorem monthsLoop_range (days : List Int) (hd : ∀ d ∈ days, d ≤ 31) (months remdays : Int)
    (h0 : 0 ≤ remdays) (hlt : remdays < days.sum) :
    0 ≤ (monthsLoop days months remdays).2 ∧ (monthsLoop days months remdays).2 < 31 ∧
      months ≤ (monthsLoop days months remdays).1 ∧
      (monthsLoop days months remdays).1 < months + days.length := by
  induction days generalizing months remdays with
  | nil => simp at hlt; omega
  | cons d rest ih =>
    unfold monthsLoop
    rw [List.sum_cons] at hlt
    have hd0 := hd d List.mem_cons_self
    simp only [List.length_cons]
    push_cast
    split
    · have := ih (fun x hx => hd x (List.mem_cons_of_mem _ hx)) (months + 1) (remdays - d)
        (by omega) (by omega)
      omega
    · omega

theorem secondsToTm_range {t : Int} {tm : Tm} (h : secondsToTm t = some tm) (h0 : 0 ≤ t) :
    tm.InRange ∧ -1900 ≤ tm.year := by
  unfold secondsToTm at h
  split at h
  · cases h
  have hleap : leapoch = 951868800 := by decide
  have h100 : daysPer100Y = 36524 := by decide
  have h4 : daysPer4Y = 1461 := by decide
  obtain ⟨hs0, hs1, hs⟩ := splitDays_range (t - leapoch)
  obtain ⟨hd0, hd1, hd⟩ := splitQcCycles_range (splitDays (t - leapoch)).1
  simp only [h100, h4] at h
  generalize splitDays (t - leapoch) = day at *
  generalize splitQcCycles day.1 = qc at *
  have hc := cycles_range qc.2 36524 4 (by decide) hd0 (by decide) (by omega)
  generalize cycles qc.2 36524 4 = c at *
  have hq := cycles_range (qc.2 - c * 36524) 1461 25 (by decide) (by omega) (by decide) (by omega)
  generalize cycles (qc.2 - c * 36524) 1461 25 = q at *
  have hy := cycles_range (qc.2 - c * 36524 - q * 1461) 365 4 (by decide) (by omega) (by decide)
    (by omega)
  generalize cycles (qc.2 - c * 36524 - q * 1461) 365 4 = y at *
  have hm := monthsLoop_range daysInMonth (by decide) 0
    (qc.2 - c * 36524 - q * 1461 - y * 365) (by omega)
    (by have : daysInMonth.sum = 366 := by decide
        omega)
  have hlen : daysInMonth.length = 12 := by decide
  generalize monthsLoop daysInMonth 0 _ = ml at *
  split at h
  · cases h
  have hh := tdiv_tmod day.2 3600 (by decide)
  have hmi := tdiv_tmod day.2 60 (by decide)
  have hmi' := tdiv_tmod (day.2.tdiv 60) 60 (by decide)
  rw [hlen] at hm
  split at h
  · cases h
    refine ⟨⟨?_, ?_, ?_, ?_, ?_⟩, ?_⟩ <;> simp only <;> omega
  · cases h
    refine ⟨⟨?_, ?_, ?_, ?_, ?_⟩, ?_⟩ <;> simp only <;> omega

theorem uint64_ofInt_toNat {v : Int} (h0 : 0 ≤ v) (h : v < 2 ^ 64) :
    ((UInt64.ofInt v).toNat : Int) = v := by
  simp only [UInt64.ofInt, UInt64.toNat_ofNat']
  omega

/-- The number of digits of a small number, with the zero that fills it up. -/
theorem prefixWithZero_length {v : Int} (h0 : 0 ≤ v) (h : v < 100) :
    (prefixWithZero v).length + lengthOfNumber (.ofInt v) ≤ 2 := by
  have hv := uint64_ofInt_toNat h0 (by omega)
  unfold prefixWithZero
  split
  · have := lengthOfNumber_le (.ofInt v) (j := 1) (by decide) (by omega)
    simp only [List.length_singleton]
    omega
  · have := lengthOfNumber_le (.ofInt v) (j := 2) (by decide) (by omega)
    simp only [List.length_nil]
    omega

theorem twoDigits_length {dstLength : Nat} {text t : List UInt8} {v : Int} (h0 : 0 ≤ v)
    (hlt : v < 100) (h : twoDigits dstLength text v = .ok t) : t.length ≤ text.length + 2 := by
  obtain ⟨number, hn, h⟩ := except_bind_ok h
  cases h
  have hlen := (numberToText_length hn).1
  have := prefixWithZero_length h0 hlt
  simp only [List.length_append]
  omega

/-- The text of a calendar time fits an array of 25 bytes. -/
theorem timeToDisplayText_length {time : Tm} {dstLength : Nat} {text : List UInt8}
    (hr : time.InRange) (hy : -1900 ≤ time.year) (hy' : time.year ≤ 9999)
    (h : timeToDisplayText time dstLength = .ok text) : text.length ≤ 25 ∧ 0 ∈ text := by
  have hyear := uint64_ofInt_toNat (v := time.year + 1900) (by omega) (by omega)
  have hyl := lengthOfNumber_le (.ofInt (time.year + 1900)) (j := 5) (by decide) (by omega)
  obtain ⟨t1, h1, h⟩ := except_bind_ok h
  obtain ⟨t2, h2, h⟩ := except_bind_ok h
  obtain ⟨t3, h3, h⟩ := except_bind_ok h
  obtain ⟨t4, h4, h⟩ := except_bind_ok h
  obtain ⟨t5, h5, h⟩ := except_bind_ok h
  obtain ⟨t6, h6, h⟩ := except_bind_ok h
  cases h
  have l1 := (numberToText_length h1).1
  have l2 := twoDigits_length (by have := hr.mon; omega) (by have := hr.mon; omega) h2
  have l3 := twoDigits_length (by have := hr.mday; omega) (by have := hr.mday; omega) h3
  have l4 := twoDigits_length hr.hour.1 (by have := hr.hour; omega) h4
  have l5 := twoDigits_length hr.min.1 (by have := hr.min; omega) h5
  have l6 := bin2dec_length h6
  have l7 := prefixWithZero_length hr.sec.1 (by have := hr.sec; omega)
  simp only [List.length_append, List.length_singleton] at l2 l3 l4 l5
  refine ⟨?_, List.mem_append_right _ l6.2.2⟩
  simp only [List.length_append, List.length_singleton]
  omega

end ConcordiumLedger
