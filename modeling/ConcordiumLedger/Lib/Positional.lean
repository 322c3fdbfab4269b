import ConcordiumLedger.Lib.Bytes
import Mathlib.Data.List.Induction
import Mathlib.Data.Nat.Digits.Defs

/-!
# Lib.Positional

Numbers written as one digit a byte, the most significant one first.

* `positional b ds`       — the number that the digits `ds` stand for in base `b`.
* `positional_inj`        — a number has one list of digits of a given length.
* `positional_take_succ`  — one more digit is read; the step of a loop over the digits.
* `leading_zeroes_of_lt`  — a small number begins with zeroes.
-/

namespace CMem

def positional (b : Nat) (ds : List UInt8) : Nat := Nat.ofDigits b (ds.map UInt8.toNat).reverse

@[simp] theorem positional_nil (b : Nat) : positional b [] = 0 := rfl

theorem positional_append (b : Nat) (xs ys : List UInt8) :
    positional b (xs ++ ys) = positional b xs * b ^ ys.length + positional b ys := by
  simp only [positional, List.map_append, List.reverse_append, Nat.ofDigits_append,
    List.length_reverse, List.length_map]
  ring

theorem positional_singleton (b : Nat) (d : UInt8) : positional b [d] = d.toNat := by
  simp [positional, Nat.ofDigits_singleton]

theorem positional_replicate_zero (b k : Nat) : positional b (List.replicate k 0) = 0 := by
  simp [positional, Nat.ofDigits_replicate_zero]

theorem positional_lt {b : Nat} (hb : 1 < b) {ds : List UInt8} (h : ∀ d ∈ ds, d.toNat < b) :
    positional b ds < b ^ ds.length := by
  have hlt := Nat.ofDigits_lt_base_pow_length hb (l := (ds.map UInt8.toNat).reverse) (by
    intro x hx
    rw [List.mem_reverse, List.mem_map] at hx
    obtain ⟨d, hd, rfl⟩ := hx
    exact h d hd)
  rwa [List.length_reverse, List.length_map] at hlt

/-- A number has one list of digits of a given length. -/
theorem positional_inj {b : Nat} (hb : 1 < b) {ds es : List UInt8} (hlen : ds.length = es.length)
    (hds : ∀ d ∈ ds, d.toNat < b) (hes : ∀ d ∈ es, d.toNat < b)
    (h : positional b ds = positional b es) : ds = es := by
  have hdigits {xs : List UInt8} (hxs : ∀ d ∈ xs, d.toNat < b) :
      ∀ x ∈ (xs.map UInt8.toNat).reverse, x < b := by
    intro x hx
    rw [List.mem_reverse, List.mem_map] at hx
    obtain ⟨d, hd, rfl⟩ := hx
    exact hxs d hd
  have hmap := List.reverse_injective (Nat.ofDigits_inj_of_len_eq hb (by simp [hlen])
    (hdigits hds) (hdigits hes) h)
  exact List.map_injective_iff.mpr (fun _ _ hd => UInt8.toNat_inj.mp hd) hmap

theorem take_succ_eq {i : Nat} {ds : List UInt8} (h : i < ds.length) :
    ds.take (i + 1) = ds.take i ++ [ds.getD i 0] := by
  rw [List.take_succ_eq_append_getElem h, List.getD_eq_getElem?_getD, List.getElem?_eq_getElem h,
    Option.getD_some]

theorem positional_take_succ (b : Nat) {i : Nat} {ds : List UInt8} (h : i < ds.length) :
    positional b (ds.take (i + 1)) = b * positional b (ds.take i) + (ds.getD i 0).toNat := by
  rw [take_succ_eq h, positional_append, positional_singleton, List.length_singleton, pow_one,
    Nat.mul_comm]

theorem positional_split (b k : Nat) (ds : List UInt8) :
    positional b ds =
      positional b (ds.take k) * b ^ (ds.length - k) + positional b (ds.drop k) := by
  conv_lhs => rw [← List.take_append_drop k ds]
  rw [positional_append, List.length_drop]

/-- A digit other than zero makes the number large. -/
theorem le_positional {b i : Nat} {ds : List UInt8} (h : i < ds.length)
    (hd : ds.getD i 0 ≠ 0) : b ^ (ds.length - 1 - i) ≤ positional b ds := by
  have hpos : 0 < (ds.getD i 0).toNat := Nat.pos_of_ne_zero fun h0 => hd (UInt8.toNat_inj.mp h0)
  have hexp : ds.length - (i + 1) = ds.length - 1 - i := by omega
  rw [positional_split b (i + 1), positional_take_succ b h, hexp]
  have hle := Nat.le_mul_of_pos_left (b ^ (ds.length - 1 - i))
    (Nat.add_pos_right (b * positional b (ds.take i)) hpos)
  omega

/-- A number of zeroes, and only one of zeroes, is zero. -/
theorem positional_eq_zero {b : Nat} (hb : 0 < b) {ds : List UInt8} (h : positional b ds = 0) :
    ds = List.replicate ds.length 0 := by
  induction ds using List.reverseRecOn with
  | nil => rfl
  | append_singleton ds d ih =>
    rw [positional_append, positional_singleton, List.length_singleton, pow_one] at h
    obtain ⟨hds, hd⟩ := Nat.add_eq_zero_iff.mp h
    have hds' := ih ((Nat.mul_eq_zero.mp hds).resolve_right (by omega))
    have hd' : d = 0 := UInt8.toNat_inj.mp hd
    rw [List.length_append, List.length_singleton, List.replicate_succ', ← hds', hd']

/-- A number below `b ^ k` has zeroes in front of its `k` last digits. -/
theorem leading_zeroes_of_lt {b k : Nat} (hb : 0 < b) {ds : List UInt8}
    (h : positional b ds < b ^ k) :
    ds.take (ds.length - k) = List.replicate (ds.length - k) 0 := by
  by_cases hk : k ≤ ds.length
  · have hsplit := positional_split b (ds.length - k) ds
    rw [Nat.sub_sub_self hk] at hsplit
    have hzero : positional b (ds.take (ds.length - k)) = 0 := by
      by_contra hne
      have hpos := Nat.le_mul_of_pos_left (b ^ k) (Nat.pos_of_ne_zero hne)
      omega
    have hrep := positional_eq_zero hb hzero
    rwa [List.length_take, Nat.min_eq_left (Nat.sub_le _ _)] at hrep
  · have hk' : ds.length - k = 0 := by omega
    rw [hk', List.take_zero, List.replicate_zero]

end CMem
