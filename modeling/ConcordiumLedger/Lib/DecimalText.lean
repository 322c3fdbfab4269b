import ConcordiumLedger.Lib.Decimal
import Mathlib.Algebra.Field.Rat
import Mathlib.Data.List.DropRight
import Mathlib.Tactic.FieldSimp
import Mathlib.Tactic.NormNum

/-!
# Lib.DecimalText

Decimal fractions as text, with separators, and how to read such a text.

* `lastDigits len n` — the last `len` digits of `n`, zeroes in front included.
* `grouped n`        — the digits of `n` with a comma before every third one from the right.
* `fraction d f`     — the `d` digits of `f` without the zeroes at the end.
* `fixedPoint d n`   — the text of `n / 10 ^ d`.
* `fixedValue`       — the number that a text stands for; `fixedValue_fixedPoint`.
-/

namespace CMem

/-! ## Digits -/

def lastDigits : Nat → Nat → List UInt8
  | 0, _ => []
  | len + 1, n => lastDigits len (n / 10) ++ [.ofNat (n % 10 + 48)]

@[simp] theorem lastDigits_length (len n : Nat) : (lastDigits len n).length = len := by
  induction len generalizing n with
  | zero => rfl
  | succ len ih => simp only [lastDigits, List.length_append, ih, List.length_singleton]

theorem decimal_eq_append (k : Nat) {n : Nat} (h : 10 ^ k ≤ n) :
    decimal n = decimal (n / 10 ^ k) ++ lastDigits k n := by
  induction k generalizing n with
  | zero => simp [lastDigits]
  | succ k ih =>
    have hpos : 0 < 10 ^ k := by positivity
    rw [pow_succ] at h
    have hdiv : n / 10 / 10 ^ k = n / 10 ^ (k + 1) := by
      rw [Nat.div_div_eq_div_mul, pow_succ, Nat.mul_comm]
    rw [decimal_of_ge (by omega), ih (n := n / 10) (by omega), hdiv, lastDigits, List.append_assoc]

/-- A number with `k` digits or fewer is filled up with zeroes. -/
theorem lastDigits_eq_replicate {k n : Nat} (h : n < 10 ^ k) (hk : 0 < k) :
    lastDigits k n = List.replicate (k - (decimal n).length) 48 ++ decimal n := by
  induction k generalizing n with
  | zero => omega
  | succ k ih =>
    by_cases hlt : n < 10
    · have hzero : ∀ j, lastDigits j 0 = List.replicate j 48 := by
        intro j
        induction j with
        | zero => rfl
        | succ j ihj => rw [lastDigits, Nat.zero_div, ihj, List.replicate_succ']; rfl
      rw [decimal_of_lt hlt, lastDigits, Nat.div_eq_of_lt hlt, hzero, Nat.mod_eq_of_lt hlt]
      rfl
    · have hlt' : n / 10 < 10 ^ k := by rw [pow_succ] at h; omega
      have hk' : 0 < k := by
        cases k with
        | zero => rw [Nat.zero_add, pow_one] at h; omega
        | succ k => exact Nat.succ_pos k
      rw [decimal_of_ge (by omega), lastDigits, ih hlt' hk', List.append_assoc, List.length_append,
        List.length_singleton, Nat.add_sub_add_right]

/-- The value of a string of digits. -/
def digitsValue (bs : List UInt8) : Nat := bs.foldl (fun acc b => 10 * acc + (b.toNat - 48)) 0

theorem digitsValue_concat (bs : List UInt8) {n : Nat} (h : n < 10) :
    digitsValue (bs ++ [.ofNat (n + 48)]) = 10 * digitsValue bs + n := by
  have hb : (UInt8.ofNat (n + 48)).toNat = n + 48 := by
    rw [UInt8.toNat_ofNat']
    omega
  simp only [digitsValue, List.foldl_append, List.foldl_cons, List.foldl_nil, hb]
  omega

theorem digitsValue_lastDigits (k n : Nat) : digitsValue (lastDigits k n) = n % 10 ^ k := by
  induction k generalizing n with
  | zero => simp [lastDigits, digitsValue, Nat.mod_one]
  | succ k ih =>
    rw [lastDigits, digitsValue_concat _ (Nat.mod_lt n (by decide)), ih, pow_succ, Nat.mul_comm,
      Nat.mul_comm (10 ^ k), Nat.mod_mul]
    omega

theorem digitsValue_decimal (n : Nat) : digitsValue (decimal n) = n := by
  induction n using Nat.strongRecOn with
  | _ n ih =>
    by_cases h : n < 10
    · rw [decimal_of_lt h]
      exact (digitsValue_concat [] h).trans (by simp [digitsValue])
    · rw [decimal_of_ge (by omega), digitsValue_concat _ (Nat.mod_lt n (by decide)),
        ih (n / 10) (by omega)]
      omega

theorem decimal_inj {m n : Nat} (h : decimal m = decimal n) : m = n := by
  rw [← digitsValue_decimal m, h, digitsValue_decimal]

theorem decimal_ne_nil (n : Nat) : decimal n ≠ [] := by
  by_cases h : n < 10
  · rw [decimal_of_lt h]; simp
  · rw [decimal_of_ge (by omega)]; simp

/-- The bytes of the ten digits. -/
def isDigit (b : UInt8) : Bool := 48 ≤ b && b ≤ 57

theorem isDigit_ofNat {n : Nat} (h : n < 10) : isDigit (.ofNat (n + 48)) = true := by
  have hall : ∀ n < 10, isDigit (.ofNat (n + 48)) = true := by decide
  exact hall n h

theorem isDigit_of_mem_lastDigits {k n : Nat} {b : UInt8} (h : b ∈ lastDigits k n) :
    isDigit b = true := by
  induction k generalizing n with
  | zero => cases h
  | succ k ih =>
    rw [lastDigits, List.mem_append, List.mem_singleton] at h
    rcases h with h | rfl
    · exact ih h
    · exact isDigit_ofNat (Nat.mod_lt n (by decide))

theorem isDigit_of_mem_decimal {n : Nat} {b : UInt8} (h : b ∈ decimal n) : isDigit b = true := by
  induction n using Nat.strongRecOn with
  | _ n ih =>
    by_cases hn : n < 10
    · rw [decimal_of_lt hn, List.mem_singleton] at h
      subst h
      exact isDigit_ofNat hn
    · rw [decimal_of_ge (by omega), List.mem_append, List.mem_singleton] at h
      rcases h with h | rfl
      · exact ih (n / 10) (by omega) h
      · exact isDigit_ofNat (Nat.mod_lt n (by decide))

/-! ## The whole part -/

def grouped (n : Nat) : List UInt8 :=
  if n < 1000 then decimal n else grouped (n / 1000) ++ 44 :: lastDigits 3 n

theorem grouped_length (n : Nat) :
    (grouped n).length = (decimal n).length + ((decimal n).length - 1) / 3 := by
  fun_induction grouped n with
  | case1 n h =>
    have hlen : (decimal n).length ≤ 3 := by
      by_cases h1 : n < 10
      · rw [decimal_of_lt h1]; simp
      · rw [decimal_of_ge (by omega)]
        by_cases h2 : n / 10 < 10
        · rw [decimal_of_lt h2]; simp
        · rw [decimal_of_ge (by omega), decimal_of_lt (by omega)]; simp
    omega
  | case2 n h ih =>
    have hpos : 0 < (decimal (n / 1000)).length := List.length_pos_iff.mpr (decimal_ne_nil _)
    have happ := congrArg List.length (decimal_eq_append 3 (n := n) (by omega))
    rw [List.length_append, lastDigits_length] at happ
    rw [List.length_append, List.length_cons, lastDigits_length, ih, happ]
    show _ = (decimal (n / 1000)).length + 3 + _
    rw [show (10 : Nat) ^ 3 = 1000 from rfl]
    omega

/-- Without the commas, the digits of the number are left. -/
theorem grouped_filter (n : Nat) : (grouped n).filter (· ≠ 44) = decimal n := by
  have hdigit {b : UInt8} (h : isDigit b = true) : b ≠ 44 := by
    rintro rfl
    cases h
  fun_induction grouped n with
  | case1 n h =>
    rw [List.filter_eq_self]
    exact fun b hb => decide_eq_true (hdigit (isDigit_of_mem_decimal hb))
  | case2 n h ih =>
    have hlast : (lastDigits 3 n).filter (· ≠ 44) = lastDigits 3 n := by
      rw [List.filter_eq_self]
      exact fun b hb => decide_eq_true (hdigit (isDigit_of_mem_lastDigits hb))
    rw [List.filter_append, ih, List.filter_cons_of_neg (by decide), hlast]
    exact (decimal_eq_append 3 (n := n) (by omega)).symm

/-! ## The fraction -/

def fraction (d f : Nat) : List UInt8 := (lastDigits d f).rdropWhile (· = 48)

/-- How many of the `d` digits of `f` are left when the zeroes at the end are dropped. -/
def significant : Nat → Nat → Nat
  | 0, _ => 0
  | d + 1, f => if f % 10 = 0 then significant d (f / 10) else d + 1

theorem significant_le (d f : Nat) : significant d f ≤ d := by
  induction d generalizing f with
  | zero => exact Nat.le_refl 0
  | succ d ih =>
    rw [significant]
    split
    · have := ih (f / 10); omega
    · exact Nat.le_refl _

theorem digit_eq_zero_iff {n : Nat} (h : n < 10) : UInt8.ofNat (n + 48) = 48 ↔ n = 0 := by
  have hall : ∀ n < 10, UInt8.ofNat (n + 48) = 48 ↔ n = 0 := by decide
  exact hall n h

theorem fraction_succ (d f : Nat) :
    fraction (d + 1) f = if f % 10 = 0 then fraction d (f / 10) else lastDigits (d + 1) f := by
  have h := digit_eq_zero_iff (Nat.mod_lt f (y := 10) (by decide))
  rw [fraction, lastDigits, List.rdropWhile_concat]
  simp only [decide_eq_true_eq, h]
  rfl

theorem fraction_length (d f : Nat) : (fraction d f).length = significant d f := by
  induction d generalizing f with
  | zero => simp [fraction, lastDigits, significant]
  | succ d ih =>
    rw [fraction_succ, significant]
    split
    · exact ih _
    · exact lastDigits_length _ _

theorem digitsValue_fraction (d f : Nat) :
    digitsValue (fraction d f) * 10 ^ (d - (fraction d f).length) = f % 10 ^ d := by
  induction d generalizing f with
  | zero => simp [fraction, lastDigits, digitsValue, Nat.mod_one]
  | succ d ih =>
    rw [fraction_succ]
    split
    · rename_i hf
      have hle := significant_le d (f / 10)
      rw [← fraction_length] at hle
      rw [show d + 1 - (fraction d (f / 10)).length = d - (fraction d (f / 10)).length + 1 by omega,
        pow_succ, ← Nat.mul_assoc, ih, pow_succ, Nat.mul_comm (10 ^ d), Nat.mod_mul]
      omega
    · rw [lastDigits_length, Nat.sub_self, pow_zero, Nat.mul_one, digitsValue_lastDigits]

theorem isDigit_of_mem_fraction {d f : Nat} {b : UInt8} (h : b ∈ fraction d f) :
    isDigit b = true :=
  isDigit_of_mem_lastDigits ((List.rdropWhile_prefix _ _).subset h)

/-! ## Both -/

def fixedPoint (d n : Nat) : List UInt8 :=
  grouped (n / 10 ^ d) ++ if n % 10 ^ d = 0 then [] else 46 :: fraction d (n % 10 ^ d)

/-- The number of characters of `fixedPoint`. -/
def fixedLength (d n : Nat) : Nat :=
  let whole := (decimal (n / 10 ^ d)).length
  whole + (whole - 1) / 3 + if n % 10 ^ d = 0 then 0 else 1 + significant d (n % 10 ^ d)

theorem fixedPoint_length (d n : Nat) : (fixedPoint d n).length = fixedLength d n := by
  rw [fixedPoint, fixedLength, List.length_append, grouped_length]
  split
  · rfl
  · rw [List.length_cons, fraction_length, Nat.add_comm 1]

theorem zero_not_mem_grouped (n : Nat) : 0 ∉ grouped n := by
  fun_induction grouped n with
  | case1 n h => exact zero_not_mem_decimal n
  | case2 n h ih =>
    intro hz
    rcases List.mem_append.mp hz with hz | hz
    · exact ih hz
    · rcases List.mem_cons.mp hz with hz | hz
      · cases hz
      · exact absurd (isDigit_of_mem_lastDigits hz) (by decide)

theorem zero_not_mem_fixedPoint (d n : Nat) : 0 ∉ fixedPoint d n := by
  intro hz
  rw [fixedPoint, List.mem_append] at hz
  rcases hz with hz | hz
  · exact zero_not_mem_grouped _ hz
  · split at hz
    · cases hz
    · rcases List.mem_cons.mp hz with hz | hz
      · cases hz
      · exact absurd (isDigit_of_mem_fraction hz) (by decide)

/-- Reads a text, without regard to commas. -/
def fixedValue (text : List UInt8) : ℚ :=
  let digits := text.filter (· ≠ 44)
  let decimals := (digits.dropWhile (· ≠ 46)).drop 1
  digitsValue (digits.takeWhile (· ≠ 46)) + digitsValue decimals / 10 ^ decimals.length

/-- The text of a decimal fraction is read as this fraction. -/
theorem fixedValue_fixedPoint (d n : Nat) : fixedValue (fixedPoint d n) = (n : ℚ) / 10 ^ d := by
  have hcomma {b : UInt8} (h : isDigit b = true) : b ≠ 44 := by rintro rfl; cases h
  have hdot {b : UInt8} (h : isDigit b = true) : b ≠ 46 := by rintro rfl; cases h
  have hwhole : ∀ b ∈ decimal (n / 10 ^ d), (decide (b ≠ 46)) = true :=
    fun b hb => decide_eq_true (hdot (isDigit_of_mem_decimal hb))
  have hn : (n : ℚ) / 10 ^ d = (n / 10 ^ d : Nat) + ((n % 10 ^ d : Nat) : ℚ) / 10 ^ d := by
    have hdm : (n : ℚ) = ((10 ^ d * (n / 10 ^ d) + n % 10 ^ d : Nat) : ℚ) := by
      rw [Nat.div_add_mod]
    rw [hdm, Nat.cast_add, Nat.cast_mul, Nat.cast_pow, Nat.cast_ofNat]
    have hp : (10 : ℚ) ^ d ≠ 0 := by positivity
    field_simp
  rw [fixedValue, fixedPoint, List.filter_append, grouped_filter, hn]
  by_cases hf : n % 10 ^ d = 0
  · rw [if_pos hf, List.filter_nil, List.append_nil, List.takeWhile_eq_self_iff.mpr hwhole,
      List.dropWhile_eq_nil_iff.mpr hwhole, digitsValue_decimal, hf]
    simp [digitsValue]
  · have hfilter : (46 :: fraction d (n % 10 ^ d)).filter (· ≠ 44) =
        46 :: fraction d (n % 10 ^ d) := by
      rw [List.filter_cons_of_pos (by decide), List.filter_eq_self.mpr]
      exact fun b hb => decide_eq_true (hcomma (isDigit_of_mem_fraction hb))
    have hval := digitsValue_fraction d (n % 10 ^ d)
    rw [Nat.mod_mod] at hval
    have hle := significant_le d (n % 10 ^ d)
    rw [← fraction_length] at hle
    rw [if_neg hf, hfilter, List.takeWhile_append_of_pos hwhole, List.dropWhile_append_of_pos hwhole,
      List.takeWhile_cons_of_neg (by decide), List.dropWhile_cons_of_neg (by decide),
      List.append_nil, digitsValue_decimal, List.drop_one, List.tail_cons]
    generalize fraction d (n % 10 ^ d) = ds at hval hle ⊢
    rw [← hval, Nat.cast_mul, Nat.cast_pow, Nat.cast_ofNat]
    congr 1
    have hsplit : (10 : ℚ) ^ d = 10 ^ ds.length * 10 ^ (d - ds.length) := by
      rw [← pow_add]
      congr 1
      omega
    rw [hsplit]
    have h1 : (10 : ℚ) ^ ds.length ≠ 0 := by positivity
    have h2 : (10 : ℚ) ^ (d - ds.length) ≠ 0 := by positivity
    field_simp

/-- Different numbers have different texts. -/
theorem fixedPoint_inj {d m n : Nat} (h : fixedPoint d m = fixedPoint d n) : m = n := by
  have hv := congrArg fixedValue h
  rw [fixedValue_fixedPoint, fixedValue_fixedPoint] at hv
  have hp : (10 : ℚ) ^ d ≠ 0 := by positivity
  have hq := (div_left_inj' hp).mp hv
  exact_mod_cast hq

end CMem
