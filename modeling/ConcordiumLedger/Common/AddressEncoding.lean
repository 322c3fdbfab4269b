import ConcordiumLedger.Common.Util
import ConcordiumLedger.Lib.CheckedArray
import ConcordiumLedger.Lib.Encoding
import ConcordiumLedger.Lib.Positional

/-!
# Common.AddressEncoding

What `base58check_encode` makes of an account address.

* `base58EncodeAt`, `base58checkEncodeAt` — the functions of `base58check.c` on the output array,
  with every access checked, the return value and `*outlen`. They take the same steps as
  `base58Encode` (`carryLoopAt_eq` and its companions).
* `carryLoop_carried`, `convertLoop_converted` — what one round and the whole conversion do to the
  number in the array.
* `spreadLeft_eq` — the last loop never overwrites a digit that it still has to read.
* `base58checkEncodeAt_address` — the text of an address, which `base58Number` decodes.
-/

namespace ConcordiumLedger

open CMem CProg ArrayProg

/-! ## The functions on the array -/

/-- `carryLoop` -/
def carryLoopAt (stopAt : Nat) : Nat → Nat → ArrayProg Error Nat
  | 0, _ => return 2 ^ 32 - 1
  | j + 1, carry => do
    let digit ← load j
    let carry := carry + 256 * digit.toNat
    store j (.ofNat (carry % 58))
    let carry := carry / 58
    if j ≤ subSize stopAt 1 ∧ carry = 0 then return j else carryLoopAt stopAt j carry

/-- `convertLoop` -/
def convertLoopAt (outputSize : Nat) : List UInt8 → Nat → ArrayProg Error PUnit
  | [], _ => return ⟨⟩
  | b :: bs, stopAt => do
    let stopAt ← carryLoopAt stopAt outputSize b.toNat
    convertLoopAt outputSize bs stopAt

/-- `while (j < outputSize && out[j] == 0) j += 1;` with `rounds = outputSize - j`. -/
def skipZeroesAt : Nat → Nat → ArrayProg Error Nat
  | 0, j => return j
  | rounds + 1, j => do
    let digit ← load j
    if digit = 0 then skipZeroesAt rounds (j + 1) else return j

/-- An index computed from values of type `size_t` and `int`. -/
def index (i : Int) : Nat := (i % 2 ^ 32).toNat

/-- `BASE58ALPHABET[digit]` -/
def alphabetAt (digit : UInt8) : ArrayProg Error UInt8 :=
  if digit.toNat < 58 then return base58Alphabet.getD digit.toNat 0 else Prog.throw none

/-- `spreadLeft` -/
def spreadLeftAt (distance : Int) : Nat → Nat → Nat → Int → ArrayProg Error PUnit
  | 0, _, _, _ => return ⟨⟩
  | rounds + 1, i, nextSpace, offset =>
    if i = nextSpace then do
      store i 32
      spreadLeftAt distance rounds (i + 1) (nextSpace + 11) (offset + 1)
    else do
      let digit ← load (index (i - distance - offset))
      store i (← alphabetAt digit)
      spreadLeftAt distance rounds (i + 1) nextSpace offset

/-- `spreadRight` -/
def spreadRightAt (distance : Int) (last : Nat) : Nat → Nat → Int → ArrayProg Error PUnit
  | 0, _, _ => return ⟨⟩
  | i + 1, nextSpace, offset =>
    if last - i = nextSpace then do
      store i 32
      spreadRightAt distance last i (nextSpace + 11) (offset + 1)
    else do
      let digit ← load (index (i - distance + offset))
      store i (← alphabetAt digit)
      spreadRightAt distance last i nextSpace offset

/-- `base58_encode`: the return value and `*outlen`. -/
def base58EncodeAt (input : List UInt8) (outlen : Nat) : ArrayProg Error (Int × Nat) :=
  if input.length > maxEncInputSize then return (-1, outlen)
  else
    let zeroCount := (input.takeWhile (· == 0)).length
    let outputSize := (input.length - zeroCount) * 138 / 100 + 1
    let spaces := outputSize / 10
    let outputSize := outputSize + spaces
    if outlen < outputSize then return (-1, outputSize)
    else do
      memset 0 outputSize
      convertLoopAt outputSize (input.drop zeroCount) (outputSize - 1)
      let j ← skipZeroesAt outputSize 0
      let written := zeroCount + outputSize - j
      if outlen < written then return (-1, written)
      else
        let distance : Int := zeroCount - j
        if distance < 0 then spreadLeftAt distance (written + spaces - zeroCount) zeroCount 10 0
        else spreadRightAt distance (written + spaces - 1) (written + spaces) 10 0
        memset (base58Alphabet.getD 0 0) zeroCount
        return (0, written)

/-- `base58check_encode`: the return value and `*outlen`. -/
def base58checkEncodeAt (sha256 : List UInt8 → List UInt8) (input : List UInt8) (outlen : Nat) :
    ArrayProg Error (Int × Nat) :=
  if input.length ≠ addressLength then Prog.throw (some .invalidTransaction)
  else
    let buffer := 1 :: input
    let checksum := (sha256 (sha256 buffer)).take 4
    base58EncodeAt (buffer ++ checksum) outlen

/-! ## The conversion -/

theorem carryLoopAt_eq (stopAt : Nat) : ∀ (j carry : Nat) (out : List UInt8), j ≤ out.length →
    carryLoopAt stopAt j carry out =
      .ok (carryLoop stopAt j carry out).2 (carryLoop stopAt j carry out).1 := by
  intro j
  induction j with
  | zero => intro carry out _; rfl
  | succ j ih =>
    intro carry out hj
    rw [carryLoopAt, bind_ok (load_ok hj), bind_ok (store_ok _ hj), carryLoop]
    by_cases hstop : j ≤ subSize stopAt 1 ∧ (carry + 256 * (out.getD j 0).toNat) / 58 = 0
    · simp only [if_pos hstop]
      rfl
    · simp only [if_neg hstop]
      exact ih _ _ (by rw [List.length_set]; omega)

/-- What a run of the inner loop with `j` positions to go does: the number in the first `j`
positions is multiplied by 256 and `carry` is added, and it stops at `k`. -/
structure Carried (stopAt j carry : Nat) (out out' : List UInt8) (k : Nat) : Prop where
  length : out'.length = out.length
  value : positional 58 (out'.take j) = 256 * positional 58 (out.take j) + carry
  above : ∀ i, j ≤ i → out'.getD i 0 = out.getD i 0
  digits : ∀ i, (out'.getD i 0).toNat < 58
  stop_lt : k < j
  stop_le : k ≤ stopAt - 1
  below : ∀ i < k, out'.getD i 0 = 0
  last : k = stopAt - 1 ∨ out'.getD k 0 ≠ 0

theorem getD_set (out : List UInt8) (j i : Nat) (d : UInt8) :
    (out.set j d).getD i 0 = if i = j ∧ j < out.length then d else out.getD i 0 := by
  by_cases h : i = j ∧ j < out.length
  · obtain ⟨rfl, hj⟩ := h
    simp [List.getD_eq_getElem?_getD, hj]
  · rw [if_neg h, List.getD_eq_getElem?_getD, List.getElem?_set]
    by_cases hij : j = i
    · subst hij
      have hout : out.length ≤ j := by
        by_contra hlt
        exact h ⟨rfl, by omega⟩
      rw [if_pos rfl, if_neg (by omega), List.getD_eq_getElem?_getD, List.getElem?_eq_none hout]
    · rw [if_neg hij, List.getD_eq_getElem?_getD]

theorem take_set_self (out : List UInt8) (j : Nat) (d : UInt8) :
    (out.set j d).take j = out.take j := by
  rw [List.take_set_of_le (Nat.le_refl j)]

/-- The inner loop. Below `stopAt` there are zeroes, and where the loop has come below it there is
still a carry; so it stops before it runs off the array. -/
theorem carryLoop_carried {stopAt : Nat} (hs : 1 ≤ stopAt) (hs' : stopAt < 2 ^ 32) :
    ∀ (j carry : Nat) (out : List UInt8), j ≤ out.length →
      256 * positional 58 (out.take j) + carry < 58 ^ j →
      (j ≤ stopAt - 1 → carry ≠ 0) → (∀ i, (out.getD i 0).toNat < 58) →
      (∀ i < stopAt, i < j → out.getD i 0 = 0) →
      Carried stopAt j carry out (carryLoop stopAt j carry out).1
        (carryLoop stopAt j carry out).2 := by
  intro j
  induction j with
  | zero =>
    intro carry out _ hbound hcarry
    have hzero := hcarry (Nat.zero_le _)
    rw [List.take_zero, positional_nil, Nat.pow_zero] at hbound
    omega
  | succ j ih =>
    intro carry out hj hbound hcarry hdigits hzero
    have hlt : j < out.length := hj
    rw [positional_take_succ 58 hlt, Nat.pow_succ] at hbound
    have hsub : subSize stopAt 1 = stopAt - 1 := by
      rw [subSize]
      omega
    rw [carryLoop, hsub]
    generalize hc : carry + 256 * (out.getD j 0).toNat = c
    have hdigit : (UInt8.ofNat (c % 58)).toNat = c % 58 := by
      rw [UInt8.toNat_ofNat']
      omega
    have hset : ∀ i, ((out.set j (.ofNat (c % 58))).getD i 0) =
        if i = j then .ofNat (c % 58) else out.getD i 0 := by
      intro i
      rw [getD_set]
      simp only [hlt, and_true]
    have hdigits' : ∀ i, ((out.set j (.ofNat (c % 58))).getD i 0).toNat < 58 := by
      intro i
      rw [hset]
      split
      · rw [hdigit]
        omega
      · exact hdigits i
    have hvalue : ∀ out' : List UInt8, out'.length = out.length →
        out'.getD j 0 = .ofNat (c % 58) →
        positional 58 (out'.take j) = 256 * positional 58 (out.take j) + c / 58 →
        positional 58 (out'.take (j + 1)) = 256 * positional 58 (out.take (j + 1)) + carry := by
      intro out' hlen hget hval
      rw [positional_take_succ 58 (by omega), positional_take_succ 58 hlt, hval, hget, hdigit]
      omega
    by_cases hstop : j ≤ stopAt - 1 ∧ c / 58 = 0
    · rw [if_pos hstop]
      -- everything in front of `j` is zero
      have hfront : positional 58 (out.take j) = 0 := by
        have hrep : out.take j = List.replicate j 0 := by
          apply List.ext_getElem
          · rw [List.length_take, List.length_replicate]
            omega
          · intro i hi hi'
            rw [List.length_replicate] at hi'
            have := hzero i (by omega) (by omega)
            rw [List.getD_eq_getElem?_getD, List.getElem?_eq_getElem (by omega),
              Option.getD_some] at this
            rw [List.getElem_take, List.getElem_replicate, this]
        rw [hrep, positional_replicate_zero]
      refine
        { length := List.length_set
          value := hvalue _ List.length_set (by rw [hset, if_pos rfl]) ?_
          above := fun i hi => by rw [hset, if_neg (by omega)]
          digits := hdigits'
          stop_lt := Nat.lt_succ_self j
          stop_le := hstop.1
          below := fun i hi => by
            rw [hset, if_neg (by omega)]
            exact hzero i (by omega) (by omega)
          last := ?_ }
      · rw [take_set_self, hfront, hstop.2]
      · by_cases hj' : j = stopAt - 1
        · exact Or.inl hj'
        · right
          have hne := hcarry (by omega)
          have hold := hzero j (by omega) (Nat.lt_succ_self j)
          rw [hold] at hc
          rw [hset, if_pos rfl]
          intro h0
          have hval := congrArg UInt8.toNat h0
          rw [hdigit] at hval
          have h0' : (0 : UInt8).toNat = 0 := rfl
          omega
    · rw [if_neg hstop]
      have hrec := ih (c / 58) (out.set j (.ofNat (c % 58))) (by rw [List.length_set]; omega)
        (by rw [take_set_self]; omega) (by intro hle hz; exact hstop ⟨by omega, hz⟩) hdigits'
        (fun i hi hij => by
          rw [hset, if_neg (by omega)]
          exact hzero i hi (by omega))
      refine
        { length := by rw [hrec.length, List.length_set]
          value := hvalue _ (by rw [hrec.length, List.length_set]) ?_ ?_
          above := fun i hi => by rw [hrec.above i (by omega), hset, if_neg (by omega)]
          digits := hrec.digits
          stop_lt := Nat.lt_succ_of_lt hrec.stop_lt
          stop_le := hrec.stop_le
          below := hrec.below
          last := hrec.last }
      · rw [hrec.above j (Nat.le_refl j), hset, if_pos rfl]
      · rw [hrec.value, take_set_self]

theorem beNat_concat (bs : List UInt8) (b : UInt8) :
    beNat (bs ++ [b]) = 256 * beNat bs + b.toNat := by
  rw [beNat, List.foldl_append]
  rfl

/-- The array of `n` digits after the bytes `done`. Each of them has moved the place where the
inner loop stops by at least one, but not past the end. -/
structure Converted (n : Nat) (done : List UInt8) (stopAt : Nat) (out : List UInt8) : Prop where
  length : out.length = n
  value : positional 58 out = beNat done
  digits : ∀ i, (out.getD i 0).toNat < 58
  stop_lt : stopAt < n
  below : ∀ i < stopAt, out.getD i 0 = 0
  reach : 58 ^ (n - 1 - stopAt) ≤ 256 ^ done.length

theorem Converted.stop_pos {n stopAt : Nat} {done out : List UInt8}
    (h : Converted n done stopAt out) (hn : 256 ^ done.length < 58 ^ (n - 1)) : 1 ≤ stopAt := by
  have hlt := (Nat.pow_lt_pow_iff_right (by decide : 1 < 58)).mp (Nat.lt_of_le_of_lt h.reach hn)
  omega

theorem Converted.round {n stopAt : Nat} {done out : List UInt8} (h : Converted n done stopAt out)
    (hsize : n < 2 ^ 32) (b : UInt8) (hn : 256 ^ (done.length + 1) ≤ 58 ^ (n - 1)) :
    Converted n (done ++ [b]) (carryLoop stopAt n b.toNat out).2
      (carryLoop stopAt n b.toNat out).1 := by
  have hlen := h.length
  have hpos := h.stop_pos (Nat.lt_of_lt_of_le
    ((Nat.pow_lt_pow_iff_right (by decide)).mpr (Nat.lt_succ_self _)) hn)
  have hstop := h.stop_lt
  have hall : ∀ out' : List UInt8, out'.length = n → out'.take n = out' := by
    intro out' hl
    exact List.take_of_length_le (Nat.le_of_eq hl)
  have hb := b.toNat_lt
  have hdone := beNat_lt done
  have hle : 58 ^ (n - 1) ≤ 58 ^ n := Nat.pow_le_pow_right (by decide) (by omega)
  have hc := carryLoop_carried hpos (by omega) n b.toNat out (Nat.le_of_eq h.length.symm)
    (by rw [hall out h.length, h.value]; rw [pow_succ] at hn; omega)
    (by omega) h.digits (fun i hi _ => h.below i hi)
  generalize carryLoop stopAt n b.toNat out = res at hc
  obtain ⟨out', k⟩ := res
  have hlen' : out'.length = n := hc.length.trans h.length
  have hval : positional 58 out' = beNat (done ++ [b]) := by
    have := hc.value
    rw [hall out' hlen', hall out h.length, h.value] at this
    rw [this, beNat_concat]
  refine
    { length := hlen'
      value := hval
      digits := hc.digits
      stop_lt := hc.stop_lt
      below := hc.below
      reach := ?_ }
  rw [List.length_append, List.length_singleton]
  cases hc.last with
  | inl hk =>
    have hexp : n - 1 - k = n - 1 - stopAt + 1 := by omega
    have hreach := h.reach
    show 58 ^ (n - 1 - k) ≤ _
    rw [hexp, pow_succ, pow_succ]
    exact Nat.mul_le_mul hreach (by decide)
  | inr hk =>
    have hlow := le_positional (b := 58) (show k < out'.length by rw [hlen']; exact hc.stop_lt) hk
    have hup := beNat_lt (done ++ [b])
    rw [hlen', hval] at hlow
    rw [List.length_append, List.length_singleton] at hup
    exact Nat.le_of_lt (Nat.lt_of_le_of_lt hlow hup)

theorem convertLoop_converted {n : Nat} (hsize : n < 2 ^ 32) :
    ∀ (bs done : List UInt8) (stopAt : Nat) (out : List UInt8), Converted n done stopAt out →
      256 ^ (done.length + bs.length) ≤ 58 ^ (n - 1) →
      convertLoopAt n bs stopAt out = .ok ⟨⟩ (convertLoop n bs stopAt out) ∧
      ∃ stopAt', Converted n (done ++ bs) stopAt' (convertLoop n bs stopAt out) := by
  intro bs
  induction bs with
  | nil =>
    intro done stopAt out h _
    refine ⟨rfl, stopAt, ?_⟩
    rw [List.append_nil]
    exact h
  | cons b bs ih =>
    intro done stopAt out h hn
    have hn' : 256 ^ (done.length + 1) ≤ 58 ^ (n - 1) :=
      Nat.le_trans (Nat.pow_le_pow_right (by decide) (by rw [List.length_cons]; omega)) hn
    have hround := h.round hsize b hn'
    have hrec := ih (done ++ [b]) _ _ hround (by
      rw [List.length_append, List.length_singleton, Nat.add_assoc, Nat.add_comm 1]
      exact hn)
    rw [List.append_assoc, List.singleton_append] at hrec
    rw [convertLoopAt, bind_ok (carryLoopAt_eq stopAt n b.toNat out (Nat.le_of_eq h.length.symm)),
      convertLoop]
    exact hrec

theorem converted_start (n : Nat) (hn : 1 ≤ n) :
    Converted n [] (n - 1) (List.replicate n 0) where
  length := List.length_replicate
  value := positional_replicate_zero 58 n
  digits := fun i => by
    rw [List.getD_eq_getElem?_getD, List.getElem?_replicate]
    split <;> decide
  stop_lt := by omega
  below := fun i _ => by
    rw [List.getD_eq_getElem?_getD, List.getElem?_replicate]
    split <;> rfl
  reach := by
    rw [Nat.sub_self]
    decide

/-! ## The leading zeroes -/

theorem drop_eq_getD_cons {i : Nat} {out : List UInt8} (h : i < out.length) :
    out.drop i = out.getD i 0 :: out.drop (i + 1) := by
  rw [List.drop_eq_getElem_cons h, List.getD_eq_getElem?_getD, List.getElem?_eq_getElem h,
    Option.getD_some]

theorem skipZeroesAt_eq (rounds : Nat) : ∀ (j : Nat) (out : List UInt8), j + rounds = out.length →
    skipZeroesAt rounds j out = .ok (j + ((out.drop j).takeWhile (· == 0)).length) out := by
  induction rounds with
  | zero =>
    intro j out hj
    rw [List.drop_eq_nil_of_le (by omega)]
    rfl
  | succ rounds ih =>
    intro j out hj
    have hlt : j < out.length := by omega
    rw [skipZeroesAt, bind_ok (load_ok hlt), drop_eq_getD_cons hlt]
    by_cases hz : out.getD j 0 = 0
    · have hbeq : (out.getD j 0 == 0) = true := beq_iff_eq.mpr hz
      rw [if_pos hz, ih (j + 1) out (by omega), List.takeWhile_cons_of_pos (p := (· == 0)) hbeq, List.length_cons,
        Nat.add_assoc, Nat.add_comm 1]
    · have hbeq : ¬ (out.getD j 0 == 0) = true := fun h => hz (beq_iff_eq.mp h)
      rw [if_neg hz, List.takeWhile_cons_of_neg (p := (· == 0)) hbeq]
      rfl

/-- A number between `58 ^ k` and `58 ^ (k + 1)` has `k + 1` digits behind the leading zeroes. -/
theorem leading_zeroes {n k : Nat} {out : List UInt8} (hlen : out.length = n) (hk : k < n)
    (hlow : 58 ^ k ≤ positional 58 out) (hup : positional 58 out < 58 ^ (k + 1))
    (hdigits : ∀ i, (out.getD i 0).toNat < 58) :
    (out.takeWhile (· == 0)).length = n - 1 - k ∧
      positional 58 (out.drop (n - 1 - k)) = positional 58 out := by
  have hzero := leading_zeroes_of_lt (by decide) hup
  rw [hlen, ← Nat.sub_sub, Nat.sub_right_comm] at hzero
  have hvalue : positional 58 (out.drop (n - 1 - k)) = positional 58 out := by
    rw [positional_split 58 (n - 1 - k) out, hzero, positional_replicate_zero, Nat.zero_mul,
      Nat.zero_add]
  have hlt : n - 1 - k < out.length := by omega
  have hnonzero : out.getD (n - 1 - k) 0 ≠ 0 := by
    intro h0
    have hdrop := hvalue
    rw [drop_eq_getD_cons hlt, h0, ← List.singleton_append, positional_append,
      positional_singleton] at hdrop
    have hrest := @positional_lt 58 (by decide) (out.drop (n - 1 - k + 1)) (by
      intro d hd
      obtain ⟨i, hi, rfl⟩ := List.mem_iff_getElem.mp hd
      have hget := hdigits (n - 1 - k + 1 + i)
      rw [List.length_drop] at hi
      rwa [List.getD_eq_getElem?_getD, List.getElem?_eq_getElem (by omega), Option.getD_some,
        ← List.getElem_drop] at hget)
    have hexp : out.length - (n - 1 - k + 1) = k := by omega
    have h0' : (0 : UInt8).toNat = 0 := rfl
    rw [List.length_drop, hexp] at hrest
    rw [h0', Nat.zero_mul, Nat.zero_add] at hdrop
    omega
  refine ⟨?_, hvalue⟩
  have hbeq : ¬ (out.getD (n - 1 - k) 0 == 0) = true := fun h => hnonzero (beq_iff_eq.mp h)
  rw [← List.take_append_drop (n - 1 - k) out, hzero, drop_eq_getD_cons hlt,
    List.takeWhile_append_of_pos (by intro d hd; rw [List.eq_of_mem_replicate hd]; rfl),
    List.takeWhile_cons_of_neg (p := (· == 0)) hbeq, List.append_nil, List.length_replicate]

/-! ## The spaces -/

/-- What the last loop writes at position `p` when the digits are moved by `e` places. -/
def spacedAt (e : Nat) (digits : List UInt8) (p : Nat) : UInt8 :=
  if p % 11 = 10 then 32 else base58Alphabet.getD (digits.getD (p + e - p / 11) 0).toNat 0

theorem index_ofNat {n : Nat} {i : Int} (h : i = n) (hn : n < 2 ^ 32) : index i = n := by
  rw [index, h]
  omega

/-- Every digit is read from a position that is not written yet: up to `11 * (e + 1)` positions
there are at most `e` spaces in front. -/
theorem spreadLeft_eq {e : Nat} {digits : List UInt8} (hsize : digits.length < 2 ^ 32)
    (hdigits : ∀ i, (digits.getD i 0).toNat < 58) (rounds : Nat) :
    ∀ (i : Nat) (out : List UInt8), out.length = digits.length →
      (∀ p, i ≤ p → out.getD p 0 = digits.getD p 0) →
      i + rounds ≤ 11 * (e + 1) → i + rounds ≤ digits.length →
      (∀ p < i + rounds, p % 11 ≠ 10 → p + e - p / 11 < digits.length) →
      spreadLeft (-e) rounds i (10 + 11 * (i / 11)) ((i / 11 : Nat) : Int) out =
          out.take i ++ (List.range' i rounds).map (spacedAt e digits) ++ out.drop (i + rounds) ∧
        spreadLeftAt (-e) rounds i (10 + 11 * (i / 11)) ((i / 11 : Nat) : Int) out =
          .ok ⟨⟩ (spreadLeft (-e) rounds i (10 + 11 * (i / 11)) ((i / 11 : Nat) : Int) out) := by
  induction rounds with
  | zero =>
    intro i out _ _ _ _ _
    refine ⟨?_, rfl⟩
    show out = _
    simp
  | succ rounds ih =>
    intro i out hlen hsame hmoved hroom hread
    have hi : i < out.length := by omega
    have hset : ∀ b : UInt8,
        (out.set i b).take (i + 1) ++ (List.range' (i + 1) rounds).map (spacedAt e digits) ++
            (out.set i b).drop (i + 1 + rounds) =
          out.take i ++ b :: (List.range' (i + 1) rounds).map (spacedAt e digits) ++
            out.drop (i + (rounds + 1)) := by
      intro b
      have htake : (out.set i b).take (i + 1) = out.take i ++ [b] := by
        rw [take_succ_eq (by rw [List.length_set]; exact hi), take_set_self, getD_set,
          if_pos ⟨rfl, hi⟩]
      have hexp : i + 1 + rounds = i + (rounds + 1) := by omega
      rw [htake, List.drop_set_of_lt (by omega), hexp, List.append_assoc (out.take i),
        List.singleton_append]
    have hsame' : ∀ b : UInt8, ∀ p, i + 1 ≤ p → (out.set i b).getD p 0 = digits.getD p 0 := by
      intro b p hp
      rw [getD_set, if_neg (by omega), hsame p (by omega)]
    have hnext := fun b : UInt8 => ih (i + 1) (out.set i b) (by rw [List.length_set, hlen])
      (hsame' b) (by omega) (by omega) (fun p hp => hread p (by omega))
    rw [List.range'_succ, List.map_cons]
    by_cases hspace : i % 11 = 10
    · have hpos : i = 10 + 11 * (i / 11) := by omega
      have hspaces : (i + 1) / 11 = i / 11 + 1 := by omega
      have hnextSpace : 10 + 11 * (i / 11) + 11 = 10 + 11 * ((i + 1) / 11) := by omega
      have hoffset : ((i / 11 : Nat) : Int) + 1 = (((i + 1) / 11 : Nat) : Int) := by omega
      have hchar : spacedAt e digits i = 32 := if_pos hspace
      obtain ⟨hpure, hrun⟩ := hnext 32
      rw [spreadLeft, spreadLeftAt, if_pos hpos, if_pos hpos, bind_ok (store_ok _ hi), hnextSpace,
        hoffset, hchar]
      exact ⟨hpure.trans (hset 32), hrun⟩
    · have hpos : ¬ i = 10 + 11 * (i / 11) := by omega
      have hspaces : (i + 1) / 11 = i / 11 := by omega
      have hfrom : i ≤ i + e - i / 11 := by omega
      have hindex : (i : Int) - (-e) - ((i / 11 : Nat) : Int) = ((i + e - i / 11 : Nat) : Int) := by
        omega
      have hin := hread i (by omega) hspace
      have hdigit : out.getD (i + e - i / 11) 0 = digits.getD (i + e - i / 11) 0 := hsame _ hfrom
      have hchar : spacedAt e digits i =
          base58Alphabet.getD (digits.getD (i + e - i / 11) 0).toNat 0 := if_neg hspace
      have halphabet : alphabetAt (digits.getD (i + e - i / 11) 0) =
          Prog.pure (base58Alphabet.getD (digits.getD (i + e - i / 11) 0).toNat 0) :=
        if_pos (hdigits _)
      obtain ⟨hpure, hrun⟩ := hnext (base58Alphabet.getD (digits.getD (i + e - i / 11) 0).toNat 0)
      rw [hspaces] at hpure hrun
      rw [spreadLeft, spreadLeftAt, if_neg hpos, if_neg hpos, index_ofNat hindex (by omega),
        bind_ok (load_ok (by rw [hlen]; exact hin)), hindex, Int.toNat_natCast, hdigit, halphabet,
        hchar]
      refine ⟨hpure.trans (hset _), ?_⟩
      show (store i _ >>= _) out = _
      rw [bind_ok (store_ok _ hi)]
      exact hrun

/-! ## The text of an address -/

/-- The number that the characters of a text other than spaces stand for. -/
def base58Number (text : List UInt8) : Nat :=
  positional 58 ((text.filter (· ≠ 32)).map fun c => .ofNat (base58Alphabet.idxOf c))

/-- Five groups of ten base58 characters, each followed by a space, that spell the number of
`payload`. -/
structure Spells (payload text : List UInt8) : Prop where
  groups : ∃ groups : List (List UInt8), groups.length = 5 ∧
    (∀ g ∈ groups, g.length = 10 ∧ ∀ c ∈ g, c ∈ base58Alphabet) ∧
    text = (groups.map (· ++ [32])).flatten
  number : base58Number text = beNat payload

/-- Payloads of one length that are spelled alike are the same. -/
theorem Spells.unique {payload payload' text : List UInt8} (h : Spells payload text)
    (h' : Spells payload' text) (hlen : payload.length = payload'.length) : payload = payload' := by
  have hnumber : beNat payload = beNat payload' := h.number.symm.trans h'.number
  rw [← beBytes_beNat payload, hnumber, hlen, beBytes_beNat]

/-- The base58 character of a digit. -/
def base58Char (digit : UInt8) : UInt8 := base58Alphabet.getD digit.toNat 0

theorem base58Char_spec {digit : UInt8} (h : digit.toNat < 58) :
    base58Char digit ∈ base58Alphabet ∧ base58Char digit ≠ 32 ∧
      UInt8.ofNat (base58Alphabet.idxOf (base58Char digit)) = digit := by
  have hall : ∀ n < 58, base58Alphabet.getD n 0 ∈ base58Alphabet ∧
      base58Alphabet.getD n 0 ≠ 32 ∧ base58Alphabet.idxOf (base58Alphabet.getD n 0) = n := by decide
  obtain ⟨hmem, hspace, hidx⟩ := hall digit.toNat h
  refine ⟨hmem, hspace, ?_⟩
  rw [base58Char, hidx, UInt8.ofNat_toNat]

theorem filter_groups (groups : List (List UInt8)) (h : ∀ g ∈ groups, ∀ c ∈ g, c ≠ 32) :
    (groups.map (· ++ [32])).flatten.filter (· ≠ 32) = groups.flatten := by
  induction groups with
  | nil => rfl
  | cons g groups ih =>
    have hg : g.filter (· ≠ 32) = g := by
      rw [List.filter_eq_self]
      intro c hc
      exact decide_eq_true (h g List.mem_cons_self c hc)
    have hrec := ih fun g' hg' => h g' (List.mem_cons_of_mem g hg')
    rw [List.map_cons, List.flatten_cons, List.flatten_cons, List.filter_append,
      List.filter_append, hg, hrec]
    simp

theorem drop_eq_map_range (ds : List UInt8) (k : Nat) :
    ds.drop k = (List.range (ds.length - k)).map fun i => ds.getD (k + i) 0 := by
  apply List.ext_getElem
  · rw [List.length_drop, List.length_map, List.length_range]
  · intro i hi _
    rw [List.length_drop] at hi
    rw [List.getElem_drop, List.getElem_map, List.getElem_range, List.getD_eq_getElem?_getD,
      List.getElem?_eq_getElem (by omega), Option.getD_some]

/-- Fifty digits behind seven zeroes, as the last loop leaves them. -/
theorem spacedAt_spells {digits payload : List UInt8} (hlen : digits.length = 57)
    (hdigits : ∀ i, (digits.getD i 0).toNat < 58)
    (hvalue : positional 58 (digits.drop 7) = beNat payload) :
    Spells payload ((List.range' 0 55).map (spacedAt 7 digits)) := by
  let groups : List (List UInt8) := (List.range 5).map fun g =>
    (List.range 10).map fun i => base58Char (digits.getD (7 + (10 * g + i)) 0)
  have htext : (List.range' 0 55).map (spacedAt 7 digits) = (groups.map (· ++ [32])).flatten := rfl
  have hchars : ∀ g ∈ groups, g.length = 10 ∧ ∀ c ∈ g, c ∈ base58Alphabet ∧ c ≠ 32 := by
    intro g hg
    obtain ⟨k, _, rfl⟩ := List.mem_map.mp hg
    refine ⟨by rw [List.length_map, List.length_range], ?_⟩
    intro c hc
    obtain ⟨i, _, rfl⟩ := List.mem_map.mp hc
    obtain ⟨hmem, hspace, _⟩ := base58Char_spec (hdigits (7 + (10 * k + i)))
    exact ⟨hmem, hspace⟩
  have hflatten : groups.flatten = (digits.drop 7).map base58Char := by
    rw [drop_eq_map_range, hlen, List.map_map]
    rfl
  have hdecode : ((digits.drop 7).map base58Char).map
      (fun c => UInt8.ofNat (base58Alphabet.idxOf c)) = digits.drop 7 := by
    rw [List.map_map]
    conv_rhs => rw [← List.map_id (digits.drop 7)]
    apply List.map_congr_left
    intro d hd
    obtain ⟨i, hi, rfl⟩ := List.mem_iff_getElem.mp hd
    have hget := hdigits (7 + i)
    rw [List.length_drop] at hi
    rw [List.getD_eq_getElem?_getD, List.getElem?_eq_getElem (by omega), Option.getD_some,
      ← List.getElem_drop] at hget
    exact (base58Char_spec hget).2.2
  refine ⟨⟨groups, rfl, fun g hg => ⟨(hchars g hg).1, fun c hc => ((hchars g hg).2 c hc).1⟩,
    htext⟩, ?_⟩
  rw [base58Number, htext, filter_groups groups fun g hg c hc => ((hchars g hg).2 c hc).2, hflatten,
    hdecode, hvalue]

/-- A number of 37 bytes that begins with a one takes fifty digits. -/
theorem base58EncodeAt_one {rest out : List UInt8} (hrest : rest.length = 36)
    (hout : out.length = 57) {outlen : Nat} (houtlen : 57 ≤ outlen) :
    ∃ text tail : List UInt8, text.length = 55 ∧ tail.length = 2 ∧ Spells (1 :: rest) text ∧
      base58EncodeAt (1 :: rest) outlen out = .ok (0, 50) (text ++ tail) ∧
      base58Encode (1 :: rest) outlen = some (text ++ tail) := by
  have hlen : (1 :: rest).length = 37 := by rw [List.length_cons, hrest]
  have hzero : (1 :: rest).takeWhile (· == 0) = [] := rfl
  have hconverted := convertLoop_converted (n := 57) (by decide) (1 :: rest) [] 56 _
    (converted_start 57 (by decide)) (by rw [hlen]; decide)
  obtain ⟨hrun, stopAt, hdigits⟩ := hconverted
  rw [List.nil_append] at hdigits
  generalize hds : convertLoop 57 (1 :: rest) 56 (List.replicate 57 0) = digits at hrun hdigits
  have hnumber := beNat_cons 1 rest
  have hlt := beNat_lt rest
  have hone : (1 : UInt8).toNat = 1 := rfl
  have hlow : (58 : Nat) ^ 49 ≤ 256 ^ 36 := by decide
  have hup : 2 * 256 ^ 36 ≤ (58 : Nat) ^ 50 := by decide
  rw [hrest, hone, Nat.one_mul] at hnumber
  rw [hrest] at hlt
  have hleading := leading_zeroes (k := 49) hdigits.length (by decide)
    (by rw [hdigits.value, hnumber]; omega) (by rw [hdigits.value, hnumber]; omega) hdigits.digits
  obtain ⟨hzeroes, hvalue⟩ := hleading
  rw [hdigits.value] at hvalue
  have hspread := @spreadLeft_eq 7 digits (by rw [hdigits.length]; decide)
    hdigits.digits 55 0 digits rfl (fun _ _ => rfl) (by decide)
    (by rw [hdigits.length]; decide) (by rw [hdigits.length]; intro p hp hp'; omega)
  obtain ⟨hspread, hspreadRun⟩ := hspread
  rw [hspread] at hspreadRun
  rw [List.take_zero, List.nil_append] at hspread hspreadRun
  refine ⟨(List.range' 0 55).map (spacedAt 7 digits), digits.drop 55, by simp, ?_,
    spacedAt_spells hdigits.length hdigits.digits hvalue, ?_, ?_⟩
  · rw [List.length_drop, hdigits.length]
  · have hskip := skipZeroesAt_eq 57 0 digits (by rw [hdigits.length])
    rw [List.drop_zero, hzeroes] at hskip
    have hmemset : (memset 0 57 : ArrayProg Error PUnit) out = .ok ⟨⟩ (List.replicate 57 0) := by
      rw [memset_ok 0 (Nat.le_of_eq hout.symm), List.drop_eq_nil_of_le (Nat.le_of_eq hout),
        List.append_nil]
    unfold base58EncodeAt
    rw [if_neg (by rw [hlen]; decide)]
    simp only [hzero, hlen, List.length_nil, List.drop_zero]
    rw [if_neg (by omega), bind_ok hmemset, bind_ok hrun, bind_ok hskip, if_neg (by omega)]
    have hfirst : spreadLeftAt (-((7 : Nat) : Int)) 55 0 10 0 digits =
        .ok ⟨⟩ ((List.range' 0 55).map (spacedAt 7 digits) ++ digits.drop 55) := hspreadRun
    show (spreadLeftAt (-((7 : Nat) : Int)) 55 0 10 0 >>= _) digits = _
    rw [bind_ok hfirst]
    rfl
  · unfold base58Encode
    rw [if_neg (by rw [hlen]; decide)]
    simp only [hzero, hlen, List.length_nil, List.drop_zero]
    rw [if_neg (by omega)]
    show (let out := convertLoop 57 (1 :: rest) 56 (List.replicate 57 0); _) = _
    simp only [hds, hzeroes]
    rw [if_neg (by omega)]
    have hneg : ((0 : Nat) : Int) - ((57 - 1 - 49 : Nat) : Int) < 0 := by decide
    have hfirst : spreadLeft (((0 : Nat) : Int) - ((57 - 1 - 49 : Nat) : Int)) 55 0 10 0 digits =
        (List.range' 0 55).map (spacedAt 7 digits) ++ digits.drop 55 := hspread
    rw [if_pos hneg, List.replicate_zero, List.nil_append]
    exact congrArg some hfirst

/-! ## Addresses -/

/-- The version, the address and the checksum. -/
def addressPayload (sha256 : List UInt8 → List UInt8) (address : List UInt8) : List UInt8 :=
  1 :: (address ++ (sha256 (sha256 (1 :: address))).take 4)

theorem addressPayload_length {sha256 : List UInt8 → List UInt8}
    (hsha : ∀ bs, (sha256 bs).length = 32) {address : List UInt8} (h : address.length = 32) :
    (addressPayload sha256 address).length = 37 := by
  rw [addressPayload, List.length_cons, List.length_append, List.length_take, hsha, h]
  rfl

theorem address_of_payload {sha256 : List UInt8 → List UInt8} {a b : List UInt8}
    (ha : a.length = 32) (hb : b.length = 32)
    (h : addressPayload sha256 a = addressPayload sha256 b) : a = b :=
  List.append_inj_left (List.cons_inj_right 1 |>.mp h) (ha.trans hb.symm)

theorem base58checkEncodeAt_address {sha256 : List UInt8 → List UInt8}
    (hsha : ∀ bs, (sha256 bs).length = 32) {address out : List UInt8} (h : address.length = 32)
    (hout : out.length = 57) {outlen : Nat} (houtlen : 57 ≤ outlen) :
    ∃ text tail : List UInt8, text.length = 55 ∧ tail.length = 2 ∧
      Spells (addressPayload sha256 address) text ∧
      base58checkEncodeAt sha256 address outlen out = .ok (0, 50) (text ++ tail) ∧
      base58checkEncode sha256 address outlen = .ok (some (text ++ tail)) := by
  have hlen : ¬ address.length ≠ addressLength := not_not.mpr h
  have hpayload := addressPayload_length hsha h
  rw [addressPayload, List.length_cons] at hpayload
  obtain ⟨text, tail, htext, htail, hspells, hrun, hpure⟩ :=
    @base58EncodeAt_one (address ++ (sha256 (sha256 (1 :: address))).take 4) _ (by omega) hout _
      houtlen
  refine ⟨text, tail, htext, htail, hspells, ?_, ?_⟩
  · rw [base58checkEncodeAt, if_neg hlen]
    exact hrun
  · rw [base58checkEncode, if_neg hlen]
    exact congrArg Except.ok hpure

theorem base58checkEncodeAt_short {sha256 : List UInt8 → List UInt8}
    (hsha : ∀ bs, (sha256 bs).length = 32) {address : List UInt8} (h : address.length = 32)
    (out : List UInt8) {outlen : Nat} (houtlen : outlen < 57) :
    base58checkEncodeAt sha256 address outlen out = .ok (-1, 57) out := by
  have hlen : ¬ address.length ≠ addressLength := not_not.mpr h
  have hpayload := addressPayload_length hsha h
  have hzero : (addressPayload sha256 address).takeWhile (· == 0) = [] := rfl
  rw [base58checkEncodeAt, if_neg hlen]
  show base58EncodeAt (addressPayload sha256 address) outlen out = _
  unfold base58EncodeAt
  rw [if_neg (by rw [hpayload]; decide)]
  simp only [hzero, hpayload, List.length_nil]
  rw [if_pos houtlen]
  rfl

/-- Addresses are encoded inside the array, each with a text of its own. -/
theorem addresses_encoded (sha256 : List UInt8 → Buffer 32) :
    (∀ (address : Buffer 32) (out : Buffer 57) (outlen : Nat), 57 ≤ outlen →
      ∃ out' : Buffer 57,
        base58checkEncodeAt (fun bs => (sha256 bs).bytes) address.bytes outlen out.bytes =
          .ok (0, 50) out'.bytes ∧
        Spells (addressPayload (fun bs => (sha256 bs).bytes) address.bytes) (out'.bytes.take 55)) ∧
    (∀ (a b : Buffer 32) (out₁ out₂ out₁' out₂' : Buffer 57) (n₁ n₂ : Nat), 57 ≤ n₁ → 57 ≤ n₂ →
      base58checkEncodeAt (fun bs => (sha256 bs).bytes) a.bytes n₁ out₁.bytes =
        .ok (0, 50) out₁'.bytes →
      base58checkEncodeAt (fun bs => (sha256 bs).bytes) b.bytes n₂ out₂.bytes =
        .ok (0, 50) out₂'.bytes →
      out₁'.bytes.take 55 = out₂'.bytes.take 55 → a = b) ∧
    (∀ (address : Buffer 32) (out : List UInt8) (outlen : Nat), outlen < 57 →
      base58checkEncodeAt (fun bs => (sha256 bs).bytes) address.bytes outlen out =
        .ok (-1, 57) out) := by
  have hsha : ∀ bs, (sha256 bs).bytes.length = 32 := fun bs => (sha256 bs).length_eq
  have hencoded : ∀ (address : Buffer 32) (out : Buffer 57) (outlen : Nat), 57 ≤ outlen →
      ∃ out' : Buffer 57,
        base58checkEncodeAt (fun bs => (sha256 bs).bytes) address.bytes outlen out.bytes =
          .ok (0, 50) out'.bytes ∧
        Spells (addressPayload (fun bs => (sha256 bs).bytes) address.bytes)
          (out'.bytes.take 55) := by
    intro address out outlen houtlen
    obtain ⟨text, tail, htext, htail, hspells, hrun, _⟩ :=
      base58checkEncodeAt_address hsha address.length_eq out.length_eq houtlen
    refine ⟨⟨text ++ tail, by rw [List.length_append, htext, htail]⟩, hrun, ?_⟩
    have htake : (text ++ tail).take 55 = text := by rw [← htext, List.take_left]
    show Spells _ ((text ++ tail).take 55)
    rw [htake]
    exact hspells
  refine ⟨hencoded, ?_, fun address out outlen houtlen =>
    base58checkEncodeAt_short hsha address.length_eq out houtlen⟩
  intro a b out₁ out₂ out₁' out₂' n₁ n₂ hn₁ hn₂ hrun₁ hrun₂ hsame
  obtain ⟨o₁, ho₁, hspells₁⟩ := hencoded a out₁ n₁ hn₁
  obtain ⟨o₂, ho₂, hspells₂⟩ := hencoded b out₂ n₂ hn₂
  rw [hrun₁] at ho₁
  rw [hrun₂] at ho₂
  injection ho₁ with _ ho₁
  injection ho₂ with _ ho₂
  rw [← ho₁, hsame] at hspells₁
  rw [← ho₂] at hspells₂
  have hpayload := hspells₁.unique hspells₂ (by
    rw [addressPayload_length hsha a.length_eq, addressPayload_length hsha b.length_eq])
  exact Buffer.ext (address_of_payload a.length_eq b.length_eq hpayload)

/-- With a hash function that gives zeroes. -/
theorem addresses_encoded_zero_hash :
    (∃ out' : Buffer 57,
      base58checkEncodeAt (fun _ => (Buffer.zero 32).bytes) (Buffer.zero 32).bytes 57
        (Buffer.zero 57).bytes = .ok (0, 50) out'.bytes ∧
      Spells (addressPayload (fun _ => (Buffer.zero 32).bytes) (Buffer.zero 32).bytes)
        (out'.bytes.take 55)) ∧
    base58checkEncodeAt (fun _ => (Buffer.zero 32).bytes) (Buffer.zero 32).bytes 56
      (Buffer.zero 57).bytes = .ok (-1, 57) (Buffer.zero 57).bytes :=
  ⟨(addresses_encoded fun _ => Buffer.zero 32).1 (Buffer.zero 32) (Buffer.zero 57) 57 (by decide),
    (addresses_encoded fun _ => Buffer.zero 32).2.2 (Buffer.zero 32) _ 56 (by decide)⟩

end ConcordiumLedger
