import ConcordiumLedger.Common.NumberHelpers
import ConcordiumLedger.Lib.Decimal

/-!
# Common.NumberFacts

What the texts of `numberHelpers.c` are, how long they get, and that they are terminated where they
should be. With these an array of the size that the contexts reserve takes the whole text.
-/

namespace ConcordiumLedger

open CMem

/-- A computation that succeeds does so in each of its parts. -/
theorem except_bind_ok {ε α β : Type} {x : Except ε α} {f : α → Except ε β} {b : β}
    (h : x >>= f = .ok b) : ∃ a, x = .ok a ∧ f a = .ok b := by
  cases x with
  | error e => cases h
  | ok a => exact ⟨a, rfl, h⟩

theorem except_bind_error {ε α β : Type} {x : Except ε α} {f : α → Except ε β} {e : ε}
    (h : (x >>= f) = .error e) : x = .error e ∨ ∃ a, x = .ok a ∧ f a = .error e := by
  cases x with
  | error e' => cases h; exact .inl rfl
  | ok a => exact .inr ⟨a, rfl, h⟩

@[simp] theorem digitsText_length (len number : Nat) : (digitsText len number).length = len := by
  induction len generalizing number with
  | zero => rfl
  | succ len ih => simp only [digitsText, List.length_append, ih, List.length_singleton]

theorem lengthLoop_le_of_lt (rounds : Nat) {nn j : Nat} (h : nn < 10 ^ j) :
    lengthLoop rounds nn ≤ j := by
  induction rounds generalizing nn j with
  | zero => exact Nat.zero_le j
  | succ rounds ih =>
    unfold lengthLoop
    split
    · omega
    · cases j with
      | zero => simp at h; omega
      | succ j =>
        have hlt : nn / 10 < 10 ^ j := by rw [pow_succ] at h; omega
        have := ih hlt
        omega

theorem lengthLoop_mono (rounds : Nat) {m n : Nat} (h : m ≤ n) :
    lengthLoop rounds m ≤ lengthLoop rounds n := by
  induction rounds generalizing m n with
  | zero => exact Nat.le_refl 0
  | succ rounds ih =>
    unfold lengthLoop
    by_cases hm : m = 0
    · rw [if_pos hm]; exact Nat.zero_le _
    · rw [if_neg hm, if_neg (by omega)]
      have := ih (Nat.div_le_div_right (c := 10) h)
      omega

theorem lengthOfNumber_pos (number : UInt64) : 0 < lengthOfNumber number := by
  unfold lengthOfNumber
  split
  · decide
  · rename_i h
    have hn : number.toNat ≠ 0 := fun e => h (UInt64.toNat_inj.mp e)
    unfold lengthLoop
    rw [if_neg hn]
    omega

theorem lengthOfNumber_le (number : UInt64) {j : Nat} (hj : 0 < j) (h : number.toNat < 10 ^ j) :
    lengthOfNumber number ≤ j := by
  unfold lengthOfNumber
  split
  · exact hj
  · exact lengthLoop_le_of_lt 20 h

theorem lengthOfNumber_mono {m n : UInt64} (h : m.toNat ≤ n.toNat) :
    lengthOfNumber m ≤ lengthOfNumber n := by
  by_cases hm : m = 0
  · have := lengthOfNumber_pos n
    rw [hm]; exact this
  · have hn : n ≠ 0 := by
      rintro rfl
      exact hm (UInt64.toNat_inj.mp (by simpa using h))
    simp only [lengthOfNumber, hm, hn, if_false]
    exact lengthLoop_mono 20 h

theorem numberToText_length {dstLength : Nat} {number : UInt64} {text : List UInt8}
    (h : numberToText dstLength number = .ok text) :
    text.length = lengthOfNumber number ∧ text.length ≤ dstLength := by
  simp only [numberToText] at h
  split at h
  · cases h
  · cases h
    rw [digitsText_length]
    exact ⟨rfl, by omega⟩

theorem bin2dec_length {dstLength : Nat} {number : UInt64} {text : List UInt8}
    (h : bin2dec dstLength number = .ok text) :
    text.length = lengthOfNumber number + 1 ∧ text.length ≤ dstLength ∧ 0 ∈ text := by
  obtain ⟨digits, hn, h⟩ := except_bind_ok h
  have := (numberToText_length hn).1
  split at h
  · cases h
  · cases h
    simp only [List.length_append, List.length_singleton, List.mem_append, List.mem_singleton,
      or_true, and_true] at *
    omega

/-! ## Whole numbers -/

theorem digitsText_lengthLoop {rounds nn : Nat} (h0 : nn ≠ 0) (h : nn < 10 ^ rounds) :
    digitsText (lengthLoop rounds nn) nn = decimal nn := by
  induction rounds generalizing nn with
  | zero => simp at h; exact absurd h h0
  | succ rounds ih =>
    rw [lengthLoop, if_neg h0, Nat.add_comm, digitsText]
    by_cases hlt : nn < 10
    · have hdiv : nn / 10 = 0 := by omega
      have hloop : lengthLoop rounds 0 = 0 := by cases rounds <;> rfl
      rw [hdiv, hloop, digitsText, decimal_of_lt hlt, List.nil_append, Nat.mod_eq_of_lt hlt]
    · have hdiv : nn / 10 < 10 ^ rounds := by rw [pow_succ] at h; omega
      rw [ih (by omega) hdiv, ← decimal_of_ge (by omega)]

/-- The text of a number is its decimal rendering. -/
theorem digitsText_lengthOfNumber (number : UInt64) :
    digitsText (lengthOfNumber number) number.toNat = decimal number.toNat := by
  unfold lengthOfNumber
  split
  · rename_i h
    rw [h]
    decide
  · rename_i h
    have hne : number.toNat ≠ 0 := fun e => h (UInt64.toNat_inj.mp e)
    exact digitsText_lengthLoop hne (Nat.lt_of_lt_of_le number.toNat_lt (by decide))

theorem numberToText_eq {dstLength : Nat} {number : UInt64} {text : List UInt8}
    (h : numberToText dstLength number = .ok text) : text = decimal number.toNat := by
  simp only [numberToText] at h
  split at h
  · cases h
  · cases h; exact digitsText_lengthOfNumber number

theorem bin2dec_eq {dstLength : Nat} {number : UInt64} {text : List UInt8}
    (h : bin2dec dstLength number = .ok text) : text = decimal number.toNat ++ [0] := by
  obtain ⟨digits, hn, h⟩ := except_bind_ok h
  split at h
  · cases h
  · cases h; rw [numberToText_eq hn]

theorem lengthOfNumber_le_twenty (number : UInt64) : lengthOfNumber number ≤ 20 :=
  lengthOfNumber_le number (by decide) (Nat.lt_of_lt_of_le number.toNat_lt (by decide))

theorem decimal_length (number : UInt64) :
    (decimal number.toNat).length = lengthOfNumber number := by
  rw [← digitsText_lengthOfNumber, digitsText_length]

theorem numberToText_ok {dstLength : Nat} {number : UInt64} (h : 20 ≤ dstLength) :
    numberToText dstLength number = .ok (decimal number.toNat) := by
  have := lengthOfNumber_le_twenty number
  rw [numberToText, if_neg (by omega), digitsText_lengthOfNumber]

/-- 21 bytes take any number with its NUL. -/
theorem bin2dec_ok {dstLength : Nat} {number : UInt64} (h : 21 ≤ dstLength) :
    bin2dec dstLength number = .ok (decimal number.toNat ++ [0]) := by
  have hlen := decimal_length number
  have := lengthOfNumber_le_twenty number
  rw [bin2dec, numberToText_ok (by omega)]
  show (if dstLength < (decimal number.toNat).length + 1 then _ else _) = _
  rw [if_neg (by omega)]

/-! ## Amounts -/

theorem stripZeroes_le (rounds decimalPart : Nat) : stripZeroes rounds decimalPart ≤ decimalPart := by
  induction rounds generalizing decimalPart with
  | zero => exact Nat.le_refl _
  | succ rounds ih =>
    unfold stripZeroes
    split
    · exact Nat.le_refl _
    · have := ih (decimalPart / 10)
      omega

theorem uint64_ofNat_le (m : Nat) : (UInt64.ofNat m).toNat ≤ m := by
  rw [UInt64.toNat_ofNat']
  exact Nat.mod_le _ _

theorem decimalDigitsDisplay_ok {dstLength : Nat} {decimalPart : UInt64} {d : UInt8}
    {text : List UInt8} (h : decimalDigitsDisplay dstLength decimalPart d = .ok text) :
    ∃ digits, numberToText (subSize dstLength (d.toNat - lengthOfNumber decimalPart))
        (.ofNat (stripZeroes (lengthOfNumber decimalPart) decimalPart.toNat)) = .ok digits ∧
      text = List.replicate (d.toNat - lengthOfNumber decimalPart) 48 ++ digits := by
  obtain ⟨digits, hn, h⟩ := except_bind_ok h
  cases h
  exact ⟨digits, hn, rfl⟩

theorem decimalDigitsDisplay_length {dstLength : Nat} {decimalPart : UInt64} {d : UInt8}
    {text : List UInt8} (hd : 0 < d.toNat) (hlt : decimalPart.toNat < 10 ^ d.toNat)
    (h : decimalDigitsDisplay dstLength decimalPart d = .ok text) : text.length ≤ d.toNat := by
  obtain ⟨digits, hn, rfl⟩ := decimalDigitsDisplay_ok h
  have hlen := (numberToText_length hn).1
  have hmono := lengthOfNumber_mono (Nat.le_trans (uint64_ofNat_le _)
    (stripZeroes_le (lengthOfNumber decimalPart) decimalPart.toNat))
  have hle := lengthOfNumber_le decimalPart hd hlt
  rw [List.length_append, List.length_replicate, hlen]
  omega

theorem wholePartLoop_length (left wholePart current : Nat) (text : List UInt8) :
    (wholePartLoop left wholePart current text).length = left + text.length := by
  fun_induction wholePartLoop left wholePart current text with
  | case1 => omega
  | case2 => simp only [List.length_cons]; omega
  | case3 left wholePart current text text' hc ih =>
    have ht : text'.length = text.length + 1 := rfl
    rw [ih, List.length_cons]
    omega
  | case4 left wholePart current text text' hc ih =>
    have ht : text'.length = text.length + 1 := rfl
    rw [ih]
    omega

theorem decimals_length {dstLength : Nat} {part : UInt64} {text : List UInt8}
    (hlt : part.toNat < 1000000) (h : decimalDigitsDisplay dstLength part 6 = .ok text) :
    text.length ≤ 6 :=
  decimalDigitsDisplay_length (d := 6) (by decide) (by simpa using hlt) h

/-- The text of an amount of micro CCD takes at most 25 bytes. -/
theorem decimalNumberToDisplay_length {dstLength : Nat} {amount : UInt64} {text : List UInt8}
    (h : decimalNumberToDisplay dstLength amount 1000000 6 = .ok text) : text.length ≤ 25 := by
  have hres : (1000000 : UInt32).toUInt64 = 1000000 := rfl
  have hres' : (1000000 : UInt64).toNat = 1000000 := rfl
  have hlen : lengthOfNumber amount ≤ 20 := lengthOfNumber_le_twenty amount
  unfold decimalNumberToDisplay at h
  rw [hres] at h
  split at h
  · cases h
  split at h
  · cases h; decide
  split at h
  · rename_i hlt
    cases hd : decimalDigitsDisplay (subSize dstLength 3) amount 6 with
    | error e => rw [hd] at h; cases h
    | ok decimals =>
      rw [hd] at h
      cases h
      have := decimals_length (by simpa [UInt64.lt_iff_toNat_lt, hres'] using hlt) hd
      simp only [List.length_append, List.length_cons, List.length_nil]
      omega
  · have h6 : UInt8.toNat 6 = 6 := rfl
    simp only [h6] at h
    obtain ⟨sep, hsep, hle⟩ : ∃ sep, (if (lengthOfNumber amount - 6) % 3 = 0 then
        (lengthOfNumber amount - 6) / 3 - 1 else (lengthOfNumber amount - 6) / 3) = sep ∧
        sep ≤ 4 := ⟨_, rfl, by split <;> omega⟩
    rw [hsep] at h
    have hwhole := wholePartLoop_length (lengthOfNumber amount - 6 + sep)
      (amount / 1000000).toNat 0 []
    rw [List.length_nil] at hwhole
    generalize wholePartLoop (lengthOfNumber amount - 6 + sep) (amount / 1000000).toNat 0 [] =
      whole at h hwhole
    split at h
    · cases h
    by_cases hp : amount % 1000000 = 0
    · rw [if_neg (fun hne => hne hp)] at h
      simp only [bind, Except.bind, pure, Except.pure] at h
      split at h
      · cases h
      · rw [Except.ok.injEq] at h
        rw [← h]
        omega
    · rw [if_pos hp] at h
      have hlt : (amount % 1000000).toNat < 1000000 := by
        rw [UInt64.toNat_mod, hres']
        omega
      generalize amount % 1000000 = part at h hlt
      cases hd : decimalDigitsDisplay (subSize dstLength (whole.length + 1)) part 6 with
      | error e => rw [hd] at h; cases h
      | ok decimals =>
        rw [hd] at h
        simp only [bind, Except.bind, pure, Except.pure] at h
        have hdec := decimals_length hlt hd
        split at h
        · cases h
        · rw [Except.ok.injEq] at h
          rw [← h, List.length_append, List.length_append, List.length_singleton]
          omega

/-- What `amountToGtuDisplay` writes of any amount fits an array of 30 bytes. -/
theorem amountToGtuDisplay_length {dstLength : Nat} {amount : UInt64} {text : List UInt8}
    (h : amountToGtuDisplay dstLength amount = .ok text) : text.length ≤ 30 ∧ 0 ∈ text := by
  obtain ⟨number, hn, h⟩ := except_bind_ok h
  cases h
  have hascii : (ascii "CCD ").length = 4 := by decide
  have hlen := decimalNumberToDisplay_length hn
  simp only [List.length_append, hascii, List.length_singleton, List.mem_append,
    List.mem_singleton, or_true, and_true]
  omega

end ConcordiumLedger
