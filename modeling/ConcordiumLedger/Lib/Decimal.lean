import ConcordiumLedger.Lib.Bytes

/-!
# Lib.Decimal

Decimal numbers as the bytes of their ASCII text.

* `decimal n`     — the text of `n`, without leading zeroes.
* `decimal_of_ge` — the last digit is split off; with `decimal_of_lt` this is how a loop over the
  digits builds the text.
-/

namespace CMem

/-- The decimal text of a number. -/
def decimal (n : Nat) : List UInt8 := ascii n.repr

theorem decimal_eq_digits (n : Nat) :
    decimal n = (Nat.toDigits 10 n).map fun c => UInt8.ofNat c.toNat := by
  rw [decimal, ascii, Nat.toList_repr]

theorem digitChar_byte {n : Nat} (h : n < 10) :
    UInt8.ofNat n.digitChar.toNat = UInt8.ofNat (n + 48) := by
  rw [Nat.toNat_digitChar_of_lt_ten h, Nat.add_comm]

theorem decimal_of_lt {n : Nat} (h : n < 10) : decimal n = [UInt8.ofNat (n + 48)] := by
  rw [decimal_eq_digits, Nat.toDigits_of_lt_base h]
  simp only [List.map_cons, List.map_nil, digitChar_byte h]

theorem decimal_of_ge {n : Nat} (h : 10 ≤ n) :
    decimal n = decimal (n / 10) ++ [UInt8.ofNat (n % 10 + 48)] := by
  rw [decimal_eq_digits, decimal_eq_digits, Nat.toDigits_of_base_le (by decide) h]
  simp only [List.map_append, List.map_cons, List.map_nil,
    digitChar_byte (Nat.mod_lt n (by decide))]

/-- A decimal text has no NUL in it. -/
theorem zero_not_mem_decimal (n : Nat) : 0 ∉ decimal n := by
  induction n using Nat.strongRecOn with
  | _ n ih =>
    have hdigit : ∀ m : Nat, m < 10 → (0 : UInt8) ≠ UInt8.ofNat (m + 48) := by decide
    by_cases h : n < 10
    · rw [decimal_of_lt h, List.mem_singleton]
      exact hdigit n h
    · rw [decimal_of_ge (by omega), List.mem_append, List.mem_singleton]
      rintro (hz | hz)
      · exact ih (n / 10) (by omega) hz
      · exact hdigit (n % 10) (by omega) hz

end CMem
