import ConcordiumLedger.Lib.Bytes

/-!
# Lib.Encoding

Messages as the bytes found from a pointer on.

* `beBytes`    — a number as big-endian bytes, the inverse of `beNat`.
* `Ptr.Begins` — the memory at a pointer begins with the given bytes.
-/

namespace CMem

/-! ## Big-endian numbers -/

/-- The `k` last bytes of a number. -/
def beBytes : Nat → Nat → List UInt8
  | 0, _ => []
  | k + 1, n => .ofNat (n / 256 ^ k) :: beBytes k n

@[simp] theorem beBytes_length (k n : Nat) : (beBytes k n).length = k := by
  induction k with
  | zero => rfl
  | succ k ih => rw [beBytes, List.length_cons, ih]

theorem beBytes_add_mul (k m n : Nat) : beBytes k (m * 256 ^ k + n) = beBytes k n := by
  induction k generalizing m with
  | zero => rfl
  | succ k ih =>
    have hsplit : m * 256 ^ (k + 1) = m * 256 * 256 ^ k := by rw [pow_succ]; ring
    have hdiv : (m * 256 * 256 ^ k + n) / 256 ^ k = n / 256 ^ k + m * 256 := by
      rw [Nat.add_comm, Nat.add_mul_div_right _ _ (Nat.pow_pos (by decide))]
    rw [beBytes, beBytes, hsplit, ih, hdiv]
    congr 1
    apply UInt8.toNat_inj.mp
    simp

theorem beBytes_beNat (bs : List UInt8) : beBytes bs.length (beNat bs) = bs := by
  induction bs with
  | nil => rfl
  | cons b bs ih =>
    have hlt := beNat_lt bs
    rw [List.length_cons, beBytes, beNat_cons, beBytes_add_mul, ih, Nat.add_comm,
      Nat.add_mul_div_right _ _ (Nat.pow_pos (by decide)), Nat.div_eq_of_lt hlt, Nat.zero_add,
      UInt8.ofNat_toNat]

theorem beNat_beBytes (k n : Nat) : beNat (beBytes k n) = n % 256 ^ k := by
  induction k with
  | zero => rw [beBytes, Nat.pow_zero, Nat.mod_one]; rfl
  | succ k ih =>
    have hbyte : (2 : Nat) ^ 8 = 256 := rfl
    rw [beBytes, beNat_cons, beBytes_length, ih, UInt8.toNat_ofNat', hbyte, Nat.pow_succ,
      Nat.mod_mul, Nat.mul_comm (256 ^ k), Nat.add_comm]

/-- The end of a number's bytes. -/
theorem drop_beBytes (j k n : Nat) : (beBytes (j + k) n).drop j = beBytes k n := by
  induction j with
  | zero => rw [Nat.zero_add, List.drop_zero]
  | succ j ih => rw [Nat.succ_add, beBytes, List.drop_succ_cons, ih]

namespace Ptr

theorem slice_eight (p : Ptr) : p.slice 8 = beBytes 8 (p.u8be 0).toNat := by
  have h := beBytes_beNat (p.slice 8)
  rw [slice_length] at h
  rw [u8be_toNat, advance_zero, h]

theorem slice_four (p : Ptr) : p.slice 4 = beBytes 4 (p.u4be 0).toNat := by
  have h := beBytes_beNat (p.slice 4)
  rw [slice_length] at h
  rw [u4be_toNat, advance_zero, h]

theorem slice_two (p : Ptr) : p.slice 2 = beBytes 2 (p.u2be 0).toNat := by
  have h := beBytes_beNat (p.slice 2)
  rw [slice_length] at h
  rw [u2be_toNat, advance_zero, h]

theorem take_slice (p : Ptr) (k n : Nat) : (p.slice n).take k = p.slice (min k n) := by
  rw [slice, ← List.map_take, List.take_range]
  rfl

/-! ## What a pointer points to -/

/-- The memory from `p` on begins with `bs`. -/
def Begins (p : Ptr) (bs : List UInt8) : Prop := p.slice bs.length = bs

@[simp] theorem begins_nil (p : Ptr) : p.Begins [] := rfl

@[simp] theorem begins_slice (p : Ptr) (n : Nat) : p.Begins (p.slice n) := by
  rw [Begins, slice_length]

theorem begins_append {p : Ptr} {a b : List UInt8} :
    p.Begins (a ++ b) ↔ p.Begins a ∧ (p.advance a.length).Begins b := by
  rw [Begins, List.length_append, slice_add]
  constructor
  · intro h
    exact List.append_inj h (slice_length _ _)
  · rintro ⟨ha, hb⟩
    rw [ha, hb]

theorem begins_singleton {p : Ptr} {b : UInt8} : p.Begins [b] ↔ p 0 = b := by
  show [p 0] = [b] ↔ _
  rw [List.singleton_inj]

theorem begins_cons {p : Ptr} {b : UInt8} {bs : List UInt8} :
    p.Begins (b :: bs) ↔ p 0 = b ∧ (p.advance 1).Begins bs := by
  rw [← List.singleton_append, begins_append, begins_singleton]
  rfl

theorem begins_beBytes_two {p : Ptr} {n : UInt16} : p.Begins (beBytes 2 n.toNat) ↔ p.u2be 0 = n := by
  rw [Begins, beBytes_length, slice_two]
  constructor
  · intro h
    have hn := congrArg beNat h
    rw [beNat_beBytes, beNat_beBytes] at hn
    have := (p.u2be 0).toNat_lt
    have := n.toNat_lt
    apply UInt16.toNat_inj.mp
    omega
  · intro h
    rw [h]

theorem begins_beBytes_four {p : Ptr} {n : UInt32} : p.Begins (beBytes 4 n.toNat) ↔ p.u4be 0 = n := by
  rw [Begins, beBytes_length, slice_four]
  constructor
  · intro h
    have hn := congrArg beNat h
    rw [beNat_beBytes, beNat_beBytes] at hn
    have := (p.u4be 0).toNat_lt
    have := n.toNat_lt
    apply UInt32.toNat_inj.mp
    omega
  · intro h
    rw [h]

theorem slice_eq_iff {p : Ptr} {n : Nat} {bs : List UInt8} :
    p.slice n = bs ↔ n = bs.length ∧ p.Begins bs := by
  constructor
  · rintro rfl
    exact ⟨(slice_length _ _).symm, begins_slice _ _⟩
  · rintro ⟨rfl, h⟩
    exact h

end Ptr

end CMem
