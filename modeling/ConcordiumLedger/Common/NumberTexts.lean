import ConcordiumLedger.Common.NumberFacts
import ConcordiumLedger.Common.NumberStores
import ConcordiumLedger.Lib.DecimalText

/-!
# Common.NumberTexts

Amounts and percentages: which text they are given, and where it is stored.

* `decimalNumberToDisplay_eq` — the text is `fixedPoint`, whenever nothing is thrown.
* `Stored.…_renders` — the functions that store do what the ones on texts say.
-/

namespace ConcordiumLedger

open CMem CProg CProg.Prog

/-! ## The texts -/

/-- The digits are written from the last to the first, with the commas between them. -/
theorem wholePartLoop_append (left whole current : Nat) (text : List UInt8) :
    wholePartLoop left whole current text = wholePartLoop left whole current [] ++ text := by
  induction left using Nat.strongRecOn generalizing whole current text with
  | _ left ih =>
    match left with
    | 0 => rfl
    | 1 => rfl
    | left + 2 =>
      rw [wholePartLoop, wholePartLoop]
      split
      · rw [ih left (by omega) _ _ (44 :: _), ih left (by omega) _ _ [44, _], List.append_assoc]
        rfl
      · rw [ih (left + 1) (by omega) _ _ (_ :: text), ih (left + 1) (by omega) _ _ [_],
          List.append_assoc]
        rfl

/-- Three digits and the comma in front of them. -/
theorem wholePartLoop_three (left whole : Nat) :
    wholePartLoop (left + 4) whole 0 [] =
      wholePartLoop left (whole / 1000) 0 [] ++ 44 :: lastDigits 3 whole := by
  have hdiv : whole / 10 / 10 / 10 = whole / 1000 := by
    rw [Nat.div_div_eq_div_mul, Nat.div_div_eq_div_mul]
  have h0 : ¬ 0 + 1 = 3 := by decide
  have h1 : ¬ 0 + 1 + 1 = 3 := by decide
  have h2 : 0 + 1 + 1 + 1 = 3 := by decide
  rw [show left + 4 = (left + 2) + 2 by omega, wholePartLoop, if_neg h0,
    show left + 2 + 1 = (left + 1) + 2 by omega, wholePartLoop, if_neg h1,
    show left + 1 + 1 = left + 2 by omega, wholePartLoop, if_pos h2, wholePartLoop_append, hdiv]
  rfl

theorem wholePartLoop_grouped (n : Nat) :
    wholePartLoop (grouped n).length n 0 [] = grouped n := by
  fun_induction grouped n with
  | case1 n h =>
    by_cases h1 : n < 10
    · rw [decimal_of_lt h1]
      show [UInt8.ofNat (n % 10 + 48)] = _
      rw [Nat.mod_eq_of_lt h1]
    · rw [decimal_of_ge (by omega)]
      by_cases h2 : n / 10 < 10
      · rw [decimal_of_lt h2]
        show [UInt8.ofNat (n / 10 % 10 + 48), UInt8.ofNat (n % 10 + 48)] = _
        rw [Nat.mod_eq_of_lt h2]
        rfl
      · have h3 : n / 10 / 10 < 10 := by omega
        rw [decimal_of_ge (by omega), decimal_of_lt h3]
        show [UInt8.ofNat (n / 10 / 10 % 10 + 48), UInt8.ofNat (n / 10 % 10 + 48),
          UInt8.ofNat (n % 10 + 48)] = _
        rw [Nat.mod_eq_of_lt h3]
        rfl
  | case2 n h ih =>
    rw [List.length_append, List.length_cons, lastDigits_length, wholePartLoop_three, ih]

/-- Dropping zeroes at the end of the number drops them at the end of its text. -/
theorem fraction_eq_stripZeroes {d f : Nat} (h0 : 0 < f) (h : f < 10 ^ d) :
    ∀ (rounds : Nat), (decimal f).length ≤ rounds →
    fraction d f = List.replicate (d - (decimal f).length) 48 ++ decimal (stripZeroes rounds f) := by
  induction d generalizing f with
  | zero => intro rounds _; rw [pow_zero] at h; omega
  | succ d ih =>
    intro rounds hr
    have hpos : 0 < (decimal f).length := List.length_pos_iff.mpr (decimal_ne_nil f)
    cases rounds with
    | zero => omega
    | succ rounds =>
      rw [fraction_succ, stripZeroes]
      by_cases hf : f % 10 = 0
      · have hlen : (decimal f).length = (decimal (f / 10)).length + 1 := by
          rw [decimal_of_ge (by omega), List.length_append, List.length_singleton]
        have hdiv : f / 10 < 10 ^ d := by rw [pow_succ] at h; omega
        rw [if_pos hf, if_neg (fun hne => hne hf), ih (by omega) hdiv rounds (by omega),
          hlen, Nat.add_sub_add_right]
      · rw [if_neg hf, if_pos hf, lastDigits_eq_replicate h (Nat.succ_pos d)]

/-- Behind the zeroes in front there is a digit. -/
theorem lt_significant {d f : Nat} (h0 : 0 < f) (h : f < 10 ^ d) :
    d - (decimal f).length < significant d f := by
  have hstrip := fraction_eq_stripZeroes h0 h _ (Nat.le_refl _)
  have hpos := List.length_pos_iff.mpr (decimal_ne_nil (stripZeroes (decimal f).length f))
  rw [← fraction_length, hstrip, List.length_append, List.length_replicate]
  omega

/-- The text of a fraction, if there is room for it. -/
theorem decimalDigitsDisplay_eq {L : Nat} {part : UInt64} {D : UInt8} (h0 : part ≠ 0)
    (hlt : part.toNat < 10 ^ D.toNat) :
    decimalDigitsDisplay L part D =
      if subSize L (D.toNat - (decimal part.toNat).length) + (D.toNat - (decimal part.toNat).length) <
        significant D.toNat part.toNat then .error .bufferOverflow
      else .ok (fraction D.toNat part.toNat) := by
  have hpos : 0 < part.toNat := Nat.pos_of_ne_zero fun e => h0 (UInt64.toNat_inj.mp e)
  have hlen := decimal_length part
  have hstrip := fraction_eq_stripZeroes hpos hlt (lengthOfNumber part) (by omega)
  have hof : (UInt64.ofNat (stripZeroes (lengthOfNumber part) part.toNat)).toNat =
      stripZeroes (lengthOfNumber part) part.toNat := by
    rw [UInt64.toNat_ofNat']
    exact Nat.mod_eq_of_lt (Nat.lt_of_le_of_lt (stripZeroes_le _ _) part.toNat_lt)
  have hsig : significant D.toNat part.toNat = D.toNat - (decimal part.toNat).length +
      (decimal (stripZeroes (lengthOfNumber part) part.toNat)).length := by
    rw [← fraction_length, hstrip, List.length_append, List.length_replicate]
  have hnum := decimal_length (.ofNat (stripZeroes (lengthOfNumber part) part.toNat))
  rw [hof] at hnum
  rw [decimalDigitsDisplay, numberToText, digitsText_lengthOfNumber, hof, ← hnum, hsig, hstrip]
  generalize stripZeroes (lengthOfNumber part) part.toNat = strip
  rw [hlen]
  by_cases hc : subSize L (D.toNat - lengthOfNumber part) < (decimal strip).length
  · rw [if_pos hc, if_pos (by omega)]
    rfl
  · rw [if_neg hc, if_neg (by omega)]
    rfl

/-- Room for the text and a NUL; the second case is the one where `dstLength - 3` is taken for a
large number once the zeroes are subtracted. -/
def Accepts (d L n : Nat) : Prop :=
  fixedLength d n < L ∨ (0 < n ∧ n < 10 ^ d) ∧ 2 ≤ L ∧ L < 3 + (d - (decimal n).length)

instance (d L n : Nat) : Decidable (Accepts d L n) := inferInstanceAs (Decidable (_ ∨ _))

section Resolution

variable {L : Nat} {amount : UInt64} {resolution : UInt32} {D : UInt8}

/-- Less than one unit. -/
theorem decimalNumberToDisplay_lt (hL : L < 2 ^ 32) (hD : D.toNat ≤ 9)
    (hres : resolution.toNat = 10 ^ D.toNat) (h0 : amount ≠ 0) (hlt : amount.toNat < 10 ^ D.toNat) :
    decimalNumberToDisplay L amount resolution D =
      if Accepts D.toNat L amount.toNat then .ok (fixedPoint D.toNat amount.toNat)
      else .error .bufferOverflow := by
  have hpos : 0 < amount.toNat := Nat.pos_of_ne_zero fun e => h0 (UInt64.toNat_inj.mp e)
  have hcmp : amount < resolution.toUInt64 := by
    rw [UInt64.lt_iff_toNat_lt, UInt32.toNat_toUInt64, hres]
    exact hlt
  have hsig := significant_le D.toNat amount.toNat
  have hdiv : amount.toNat / 10 ^ D.toNat = 0 := Nat.div_eq_of_lt hlt
  have hmod : amount.toNat % 10 ^ D.toNat = amount.toNat := Nat.mod_eq_of_lt hlt
  have hfix : fixedPoint D.toNat amount.toNat = [48, 46] ++ fraction D.toNat amount.toNat := by
    rw [fixedPoint, hdiv, hmod, if_neg (by omega), grouped, if_pos (by decide), decimal_of_lt (by decide)]
    rfl
  have hlen : fixedLength D.toNat amount.toNat = 2 + significant D.toNat amount.toNat := by
    rw [fixedLength, hdiv, hmod, if_neg (by omega)]
    show 1 + (1 - 1) / 3 + _ = _
    omega
  have hzero := lt_significant hpos hlt
  rw [decimalNumberToDisplay, decimalDigitsDisplay_eq h0 hlt, if_neg h0, if_pos hcmp]
  by_cases hacc : Accepts D.toNat L amount.toNat
  · rw [if_pos hacc, hfix]
    unfold Accepts at hacc
    rw [hlen] at hacc
    rw [if_neg (by omega), if_neg]
    · rfl
    · generalize D.toNat - (decimal amount.toNat).length = zeroes at *
      unfold subSize
      omega
  · rw [if_neg hacc]
    unfold Accepts at hacc
    rw [hlen] at hacc
    by_cases h2 : L < 2
    · rw [if_pos h2]
    · rw [if_neg h2, if_pos]
      · rfl
      · generalize D.toNat - (decimal amount.toNat).length = zeroes at *
        unfold subSize
        omega

/-- The digits of the whole part are counted by those of the amount. -/
theorem lengthOfNumber_of_ge {d : Nat} (hge : 10 ^ d ≤ amount.toNat) :
    lengthOfNumber amount = (decimal (amount.toNat / 10 ^ d)).length + d := by
  have happ := congrArg List.length (decimal_eq_append d hge)
  rw [List.length_append, lastDigits_length, decimal_length] at happ
  exact happ

/-- Behind the whole part, the point and the decimals, if there is room for them and a NUL. -/
theorem fractionPart_eq {part : UInt64} {whole : List UInt8} (hL : L < 2 ^ 32)
    (hroom : whole.length + 1 ≤ L) (h0 : part ≠ 0) (hlt : part.toNat < 10 ^ D.toNat) :
    (do
      let decimals ← decimalDigitsDisplay (subSize L (whole.length + 1)) part D
      if L < (whole ++ [46] ++ decimals).length + 1 then .error .bufferOverflow
      else .ok (whole ++ [46] ++ decimals)) =
    if whole.length + (1 + significant D.toNat part.toNat) < L then
      .ok (whole ++ 46 :: fraction D.toNat part.toNat)
    else .error .bufferOverflow := by
  have hpos : 0 < part.toNat := Nat.pos_of_ne_zero fun e => h0 (UInt64.toNat_inj.mp e)
  have hzero := lt_significant hpos hlt
  have hflen := fraction_length D.toNat part.toNat
  rw [decimalDigitsDisplay_eq h0 hlt]
  generalize fraction D.toNat part.toNat = text at *
  generalize D.toNat - (decimal part.toNat).length = zeroes at *
  generalize significant D.toNat part.toNat = sig at *
  have htext : (whole ++ [46] ++ text).length = whole.length + (1 + sig) := by
    rw [List.append_assoc, List.length_append, List.length_append, List.length_singleton, hflen]
  by_cases hfits : whole.length + (1 + sig) < L
  · have hsub : ¬ subSize (subSize L (whole.length + 1)) zeroes + zeroes < sig := by
      unfold subSize
      omega
    rw [if_pos hfits, if_neg hsub]
    show (if L < (whole ++ [46] ++ text).length + 1 then _ else _) = _
    rw [htext, if_neg (by omega), List.append_assoc]
    rfl
  · rw [if_neg hfits]
    by_cases hsub : subSize (subSize L (whole.length + 1)) zeroes + zeroes < sig
    · rw [if_pos hsub]
      rfl
    · rw [if_neg hsub]
      show (if L < (whole ++ [46] ++ text).length + 1 then _ else _) = _
      rw [htext, if_pos (by omega)]

/-- One unit or more. -/
theorem decimalNumberToDisplay_ge (hL : L < 2 ^ 32)
    (hres : resolution.toNat = 10 ^ D.toNat) (hge : 10 ^ D.toNat ≤ amount.toNat) :
    decimalNumberToDisplay L amount resolution D =
      if fixedLength D.toNat amount.toNat < L then .ok (fixedPoint D.toNat amount.toNat)
      else .error .bufferOverflow := by
  have hp : 0 < 10 ^ D.toNat := by positivity
  have hr : resolution.toUInt64.toNat = 10 ^ D.toNat := by rw [UInt32.toNat_toUInt64, hres]
  have h0 : amount ≠ 0 := by
    rintro rfl
    rw [UInt64.toNat_zero] at hge
    omega
  have hcmp : ¬ amount < resolution.toUInt64 := by
    rw [UInt64.lt_iff_toNat_lt, hr]
    omega
  have hdiv : (amount / resolution.toUInt64).toNat = amount.toNat / 10 ^ D.toNat := by
    rw [UInt64.toNat_div, hr]
  have hmod : (amount % resolution.toUInt64).toNat = amount.toNat % 10 ^ D.toNat := by
    rw [UInt64.toNat_mod, hr]
  have hdigits : lengthOfNumber amount - D.toNat = (decimal (amount.toNat / 10 ^ D.toNat)).length := by
    rw [lengthOfNumber_of_ge hge, Nat.add_sub_cancel]
  have hwpos := List.length_pos_iff.mpr (decimal_ne_nil (amount.toNat / 10 ^ D.toNat))
  have hwhole := wholePartLoop_grouped (amount.toNat / 10 ^ D.toNat)
  have hglen := grouped_length (amount.toNat / 10 ^ D.toNat)
  have hcount : ∀ w : Nat, 0 < w → (if w % 3 = 0 then w / 3 - 1 else w / 3) = (w - 1) / 3 := by
    intro w hw
    split <;> omega
  simp only [decimalNumberToDisplay, if_neg h0, if_neg hcmp, hdigits, hdiv, hcount _ hwpos,
    ← hglen, hwhole]
  unfold fixedLength
  simp only [← hglen]
  have hgpos : 0 < (grouped (amount.toNat / 10 ^ D.toNat)).length := by omega
  rw [fixedPoint]
  generalize grouped (amount.toNat / 10 ^ D.toNat) = whole at *
  by_cases hroom : L < 2 ∨ L < whole.length + 1
  · -- the whole part alone is too long
    rw [if_neg (show ¬ _ < L by omega)]
    by_cases h2 : L < 2
    · rw [if_pos h2]
    · rw [if_neg h2, if_pos (by omega)]
  rw [if_neg fun h => hroom (.inl h), if_neg fun h => hroom (.inr h)]
  by_cases hf : amount % resolution.toUInt64 = 0
  · have hf' : amount.toNat % 10 ^ D.toNat = 0 := by rw [← hmod, hf]; rfl
    have hne : ¬ amount % resolution.toUInt64 ≠ 0 := fun h => h hf
    rw [if_neg hne, if_pos hf', if_pos hf', List.append_nil, if_pos (by omega)]
    show (if L < whole.length + 1 then _ else _) = _
    rw [if_neg fun h => hroom (.inr h)]
  · have hf' : amount.toNat % 10 ^ D.toNat ≠ 0 := by
      rw [← hmod]
      exact fun e => hf (UInt64.toNat_inj.mp e)
    have hlt : (amount % resolution.toUInt64).toNat < 10 ^ D.toNat := by
      rw [hmod]
      exact Nat.mod_lt _ hp
    have hwl : whole.length + 1 ≤ L := by omega
    have hfraction := fractionPart_eq hL hwl hf hlt
    rw [hmod] at hfraction
    rw [if_pos hf, if_neg hf', if_neg hf', ← hfraction]
    cases decimalDigitsDisplay (subSize L (whole.length + 1)) (amount % resolution.toUInt64) D <;>
      rfl

variable (amount resolution D) in
/-- The text of a number of units, or nothing. -/
theorem decimalNumberToDisplay_eq (hL : L < 2 ^ 32) (hD : D.toNat ≤ 9)
    (hres : resolution.toNat = 10 ^ D.toNat) :
    decimalNumberToDisplay L amount resolution D =
      if Accepts D.toNat L amount.toNat then .ok (fixedPoint D.toNat amount.toNat)
      else .error .bufferOverflow := by
  by_cases h0 : amount = 0
  · subst h0
    have hp : 0 < 10 ^ D.toNat := by positivity
    have hfix : fixedPoint D.toNat 0 = [48] := by
      rw [fixedPoint, Nat.zero_div, Nat.zero_mod, if_pos rfl, grouped, if_pos (by decide),
        decimal_of_lt (by decide)]
      rfl
    have hlen : fixedLength D.toNat 0 = 1 := by
      rw [← fixedPoint_length, hfix]
      rfl
    rw [decimalNumberToDisplay, if_pos rfl, UInt64.toNat_zero, hfix]
    by_cases h2 : L < 2
    · rw [if_pos h2, if_neg]
      unfold Accepts
      omega
    · rw [if_neg h2, if_pos]
      unfold Accepts
      omega
  · by_cases hlt : amount.toNat < 10 ^ D.toNat
    · exact decimalNumberToDisplay_lt hL hD hres h0 hlt
    · rw [decimalNumberToDisplay_ge hL hres (by omega)]
      refine if_congr ?_ rfl rfl
      unfold Accepts
      omega

end Resolution

/-! ## Where they are stored -/

namespace Stored

variable (dst : Int) (st : Stores)

theorem toInt_of_lt {n : UInt32} (h : n.toNat < 2 ^ 31) : toInt n = n.toNat := by
  show n.toBitVec.toInt = _
  rw [BitVec.toInt_eq_toNat_of_lt]
  · rfl
  · show 2 * n.toNat < 2 ^ 32
    omega

theorem toNat_ofNat_of_lt {n : Nat} (h : n < 2 ^ 32) : (UInt32.ofNat n).toNat = n := by
  rw [UInt32.toNat_ofNat']
  exact Nat.mod_eq_of_lt h

theorem toNat_sub_eq (a b : UInt32) : (a - b).toNat = subSize a.toNat b.toNat := by
  have := b.toNat_lt
  rw [UInt32.toNat_sub]
  unfold subSize
  omega

theorem digitLoop_fills (n : Nat) (number : UInt64) :
    ∃ st', digitLoop dst n number st = .ok ⟨⟩ (st ++ st') ∧
      Fills dst (digitsText n number.toNat) st' := by
  induction n generalizing number st with
  | zero => exact ⟨[], by rw [List.append_nil]; rfl, .nil dst⟩
  | succ n ih =>
    have hdiv : (number / 10).toNat = number.toNat / 10 := UInt64.toNat_div number 10
    obtain ⟨st', hst, hf⟩ := ih (st ++ [(dst + n, .ofNat (number.toNat % 10 + 48))]) (number / 10)
    rw [hdiv] at hf
    have hlast : Fills (dst + (digitsText n (number.toNat / 10)).length)
        [.ofNat (number.toNat % 10 + 48)] [(dst + n, .ofNat (number.toNat % 10 + 48))] := by
      rw [digitsText_length]
      exact Fills.single _ _
    refine ⟨(dst + n, .ofNat (number.toNat % 10 + 48)) :: st', ?_, hf.append_swap hlast⟩
    rw [← List.append_cons] at hst
    exact hst

theorem numberToText_renders (L : UInt32) (number : UInt64) :
    Renders st dst (fun text => .ofNat text.length) (ConcordiumLedger.numberToText L.toNat number)
      (numberToText dst L number st) := by
  have hlen := lengthOfNumber_le_twenty number
  have hof := toNat_ofNat_of_lt (n := lengthOfNumber number) (by omega)
  unfold ConcordiumLedger.numberToText numberToText
  simp only [UInt32.lt_iff_toNat_lt, hof]
  by_cases h : L.toNat < lengthOfNumber number
  · rw [if_pos h, if_pos h]
    exact ⟨[], by rw [List.append_nil]; rfl⟩
  · rw [if_neg h, if_neg h]
    obtain ⟨st', hst, hf⟩ := digitLoop_fills dst st (lengthOfNumber number) number
    refine ⟨st', ?_, hf⟩
    rw [bind_of_ok hst]
    show Outcome.ok (UInt32.ofNat (lengthOfNumber number)) _ = Outcome.ok (UInt32.ofNat
      (digitsText (lengthOfNumber number) number.toNat).length) _
    rw [digitsText_length]

theorem decimalDigitsDisplay_renders (L : UInt32) {part : UInt64} {D : UInt8}
    (h : lengthOfNumber part ≤ D.toNat) :
    Renders st dst (fun text => .ofNat text.length)
      (ConcordiumLedger.decimalDigitsDisplay L.toNat part D)
      (decimalDigitsDisplay dst L part D st) := by
  have hD := D.toNat_lt
  have hof := toNat_ofNat_of_lt (n := lengthOfNumber part) (by omega)
  have hzero : (D.toUInt32 - .ofNat (lengthOfNumber part)).toNat = D.toNat - lengthOfNumber part := by
    rw [UInt32.toNat_sub_of_le, hof, UInt8.toNat_toUInt32]
    rw [UInt32.le_iff_toNat_le, hof, UInt8.toNat_toUInt32]
    exact h
  have hint := toInt_of_lt (n := D.toUInt32 - .ofNat (lengthOfNumber part)) (by omega)
  unfold ConcordiumLedger.decimalDigitsDisplay decimalDigitsDisplay
  simp only [hof]
  generalize D.toUInt32 - UInt32.ofNat (lengthOfNumber part) = zero at *
  rw [hint, Int.toNat_natCast, hzero]
  obtain ⟨sz, hsz, hfz⟩ := storeAll_fills (ε := Error) dst
    (List.replicate (D.toNat - lengthOfNumber part) 48) st
  rw [bind_of_ok hsz]
  have hr := numberToText_renders (dst + (D.toNat - lengthOfNumber part : Nat)) (st ++ sz)
    (L - zero) (.ofNat (stripZeroes (lengthOfNumber part) part.toNat))
  rw [toNat_sub_eq, hzero] at hr
  have hplace : dst + (D.toNat - lengthOfNumber part : Nat) =
      dst + (List.replicate (D.toNat - lengthOfNumber part) (48 : UInt8)).length := by
    rw [List.length_replicate]
  rw [hplace] at hr ⊢
  refine Renders.behind (m := fun written => written + zero) hfz hr fun digits => ?_
  rw [List.length_append, List.length_replicate, UInt32.ofNat_add, ← hzero, UInt32.ofNat_toNat,
    UInt32.add_comm]

theorem wholePartLoop_fills (n : Nat) (whole : UInt64) (current : Nat) :
    ∃ st', wholePartLoop dst n whole current st = .ok ⟨⟩ (st ++ st') ∧
      Fills dst (ConcordiumLedger.wholePartLoop n whole.toNat current []) st' := by
  induction n using Nat.strongRecOn generalizing whole current st with
  | _ n ih =>
    have hdiv : (whole / 10).toNat = whole.toNat / 10 := UInt64.toNat_div whole 10
    match n with
    | 0 => exact ⟨[], by rw [List.append_nil]; rfl, .nil dst⟩
    | 1 => exact ⟨[(dst, .ofNat (whole.toNat % 10 + 48))], rfl, .single _ _⟩
    | i + 2 =>
      rw [ConcordiumLedger.wholePartLoop, wholePartLoop]
      generalize UInt8.ofNat (whole.toNat % 10 + 48) = digit
      rw [bind_of_ok (store_ok _ _ _)]
      by_cases hc : current + 1 = 3
      · rw [if_pos hc, if_pos hc, wholePartLoop_append, bind_of_ok (store_ok _ _ _)]
        obtain ⟨st', hst, hf⟩ := ih i (by omega) ((st ++ [(dst + (i + 1), digit)]) ++ [(dst + i, 44)])
          (whole / 10) 0
        rw [hdiv] at hf
        refine ⟨[(dst + (i + 1), digit)] ++ [(dst + i, 44)] ++ st', ?_, hf.append_swap ?_⟩
        · rw [hst]
          simp only [List.append_assoc]
        · rw [wholePartLoop_length, List.length_nil, Nat.add_zero]
          refine (Fills.single _ _).append_swap ?_
          rw [List.length_singleton, Int.add_assoc]
          exact Fills.single _ _
      · rw [if_neg hc, if_neg hc, wholePartLoop_append]
        obtain ⟨st', hst, hf⟩ := ih (i + 1) (by omega) (st ++ [(dst + (i + 1), digit)])
          (whole / 10) (current + 1)
        rw [hdiv] at hf
        refine ⟨[(dst + (i + 1), digit)] ++ st', ?_, hf.append_swap ?_⟩
        · rw [hst, List.append_assoc]
        · rw [wholePartLoop_length, List.length_nil, Nat.add_zero]
          exact Fills.single _ _

section Resolution

variable {L resolution : UInt32} {amount : UInt64} {D : UInt8}

/-- A number other than zero that is less than one unit has decimals. -/
theorem digits_pos {part : UInt64} (h0 : part ≠ 0) (hlt : part.toNat < 10 ^ D.toNat) :
    0 < D.toNat := by
  by_contra hz
  rw [show D.toNat = 0 by omega, pow_zero] at hlt
  exact h0 (UInt64.toNat_inj.mp (by rw [UInt64.toNat_zero]; omega))

/-- One unit or more: the numbers that the function computes with are small. -/
theorem wholePart_sizes (hge : D.toNat < lengthOfNumber amount) :
    ∃ W S : UInt32, .ofNat (lengthOfNumber amount) - D.toUInt32 = W ∧
      (if W % 3 = 0 then W / 3 - 1 else W / 3) = S ∧
      W.toNat = lengthOfNumber amount - D.toNat ∧
      S.toNat = (if W.toNat % 3 = 0 then W.toNat / 3 - 1 else W.toNat / 3) ∧
      (W + S).toNat = W.toNat + S.toNat ∧ (toInt (W - 1 + S) + 1).toNat = W.toNat + S.toNat := by
  have hlen := lengthOfNumber_le_twenty amount
  have hof := toNat_ofNat_of_lt (n := lengthOfNumber amount) (by omega)
  have hW : (UInt32.ofNat (lengthOfNumber amount) - D.toUInt32).toNat =
      lengthOfNumber amount - D.toNat := by
    rw [UInt32.toNat_sub_of_le, hof, UInt8.toNat_toUInt32]
    rw [UInt32.le_iff_toNat_le, hof, UInt8.toNat_toUInt32]
    omega
  have hw : 0 < lengthOfNumber amount - D.toNat ∧ lengthOfNumber amount - D.toNat ≤ 20 := by omega
  refine ⟨_, _, rfl, rfl, hW, ?_⟩
  generalize UInt32.ofNat (lengthOfNumber amount) - D.toUInt32 = W at *
  generalize lengthOfNumber amount - D.toNat = w at *
  have h3 : (W / 3).toNat = w / 3 := by rw [UInt32.toNat_div, hW]; rfl
  have hmod : W % 3 = 0 ↔ w % 3 = 0 := by
    rw [← UInt32.toNat_inj, UInt32.toNat_mod, hW]
    rfl
  have hS : (if W % 3 = 0 then W / 3 - 1 else W / 3 : UInt32).toNat =
      if w % 3 = 0 then w / 3 - 1 else w / 3 := by
    by_cases hm : w % 3 = 0
    · rw [if_pos hm, if_pos (hmod.mpr hm), UInt32.toNat_sub_of_le, h3]
      · rfl
      · rw [UInt32.le_iff_toNat_le, h3]
        show 1 ≤ w / 3
        omega
    · rw [if_neg hm, if_neg (fun h => hm (hmod.mp h)), h3]
  rw [hW]
  refine ⟨hS, ?_⟩
  generalize (if W % 3 = 0 then W / 3 - 1 else W / 3 : UInt32) = S at *
  have hs : S.toNat ≤ 6 := by
    rw [hS]
    split <;> omega
  have hW1 : (W - 1).toNat = w - 1 := by
    rw [UInt32.toNat_sub_of_le, hW]
    · rfl
    · rw [UInt32.le_iff_toNat_le, hW]
      exact hw.1
  have hsum : (W - 1 + S).toNat = w - 1 + S.toNat := by
    rw [UInt32.toNat_add, hW1, Nat.mod_eq_of_lt (by omega)]
  constructor
  · rw [UInt32.toNat_add, hW, Nat.mod_eq_of_lt (by omega)]
  · rw [toInt_of_lt (by omega), hsum]
    omega

/-- The room for the terminating NUL is compared last. -/
theorem terminated_renders (L : UInt32) {text : List UInt8} {s' : Stores}
    (hlen : text.length ≤ 300) (hf : Fills dst text s') :
    Renders st dst (fun text => .ofNat text.length)
      (if L.toNat < text.length + 1 then .error Error.bufferOverflow else .ok text)
      ((if L < .ofNat text.length + 1 then Prog.throw Error.bufferOverflow
        else Pure.pure (.ofNat text.length) : Storing Error UInt32) (st ++ s')) := by
  have hcmp : L < .ofNat text.length + 1 ↔ L.toNat < text.length + 1 := by
    rw [UInt32.lt_iff_toNat_lt, show (1 : UInt32) = .ofNat 1 from rfl, ← UInt32.ofNat_add,
      toNat_ofNat_of_lt (by omega)]
  by_cases h : L.toNat < text.length + 1
  · rw [if_pos h, if_pos (hcmp.mpr h)]
    exact ⟨s', rfl⟩
  · rw [if_neg h, if_neg (fun hl => h (hcmp.mp hl))]
    exact ⟨s', rfl, hf⟩

/-- Less than one unit. -/
theorem decimalNumberToDisplay_renders_lt (hres : resolution.toNat = 10 ^ D.toNat) (h2 : ¬ L < 2)
    (h0 : amount ≠ 0) (hlt : amount < resolution.toUInt64) :
    Renders st dst (fun text => .ofNat text.length)
      (ConcordiumLedger.decimalNumberToDisplay L.toNat amount resolution D)
      (decimalNumberToDisplay dst L amount resolution D st) := by
  have h2' : ¬ L.toNat < 2 := fun h => h2 (UInt32.lt_iff_toNat_lt.mpr h)
  have hlt' : amount.toNat < 10 ^ D.toNat := by
    rw [← hres, ← UInt32.toNat_toUInt64]
    exact UInt64.lt_iff_toNat_lt.mp hlt
  unfold ConcordiumLedger.decimalNumberToDisplay decimalNumberToDisplay
  rw [if_neg h2, if_neg h2', if_neg h0, if_neg h0, if_pos hlt, if_pos hlt]
  obtain ⟨s₁, hs₁, hf₁⟩ := storeAll_fills (ε := Error) dst [48, 46] st
  rw [bind_of_ok hs₁]
  have hd := decimalDigitsDisplay_renders (dst + 2) (st ++ s₁) (L - 3)
    (lengthOfNumber_le amount (digits_pos h0 hlt') hlt')
  rw [toNat_sub_eq, show UInt32.toNat 3 = 3 from rfl] at hd
  refine Renders.behind (m := fun written => written + 2) hf₁ hd fun text => ?_
  rw [List.length_append, UInt32.ofNat_add, UInt32.add_comm]
  rfl

/-- Behind the whole part, the point and the decimals. -/
theorem fractionPart_renders {part : UInt64} {whole : List UInt8} {s₁ : Stores} {offset : UInt32}
    (hoffset : offset = .ofNat whole.length) (hlen : whole.length ≤ 40) (hf : Fills dst whole s₁)
    (h0 : part ≠ 0) (hpart : part.toNat < 10 ^ D.toNat) :
    Renders st dst (fun text => .ofNat text.length)
      (do
        let decimals ← ConcordiumLedger.decimalDigitsDisplay (subSize L.toNat (whole.length + 1))
          part D
        if L.toNat < (whole ++ [46] ++ decimals).length + 1 then .error .bufferOverflow
        else .ok (whole ++ [46] ++ decimals))
      ((do
        store (dst + offset.toNat) 46
        let written ← decimalDigitsDisplay (dst + (offset + 1).toNat) (L - (offset + 1)) part D
        if L < offset + 1 + written + 1 then Prog.throw .bufferOverflow
        else return offset + 1 + written : Storing Error UInt32) (st ++ s₁)) := by
  have hn : offset.toNat = whole.length := by
    rw [hoffset, toNat_ofNat_of_lt (by omega)]
  have hlen1 : whole.length + 1 = (whole ++ [46]).length := by
    rw [List.length_append, List.length_singleton]
  have hone : offset + 1 = .ofNat (whole ++ [46]).length := by
    rw [hoffset, ← hlen1, UInt32.ofNat_add]
    rfl
  have hn1 : (offset + 1).toNat = (whole ++ [46]).length := by
    rw [hone, toNat_ofNat_of_lt (by omega)]
  have hdot : Fills dst (whole ++ [46]) (s₁ ++ [(dst + whole.length, 46)]) :=
    hf.append (.single _ _)
  have hd := decimalDigitsDisplay_renders (dst + (whole ++ [46]).length)
    (st ++ (s₁ ++ [(dst + whole.length, 46)])) (L - (offset + 1))
    (lengthOfNumber_le _ (digits_pos h0 hpart) hpart)
  rw [toNat_sub_eq, hn1] at hd
  rw [bind_of_ok (store_ok _ _ _), hn, hn1, hlen1, List.append_assoc]
  refine Renders.bind hdot hd fun decimals st' hdecimals hall => ?_
  have hshort := decimalDigitsDisplay_length (digits_pos h0 hpart) hpart hdecimals
  have hD := D.toNat_lt
  have hcount : offset + 1 + .ofNat decimals.length =
      .ofNat (whole ++ [46] ++ decimals).length := by
    rw [hone, ← UInt32.ofNat_add, ← List.length_append]
  simp only [hcount]
  refine terminated_renders dst st L ?_ hall
  rw [List.length_append, ← hlen1]
  omega

/-- One unit or more. -/
theorem decimalNumberToDisplay_renders_ge (hD : D.toNat ≤ 9)
    (hres : resolution.toNat = 10 ^ D.toNat) (h2 : ¬ L < 2) (h0 : amount ≠ 0)
    (hlt : ¬ amount < resolution.toUInt64) :
    Renders st dst (fun text => .ofNat text.length)
      (ConcordiumLedger.decimalNumberToDisplay L.toNat amount resolution D)
      (decimalNumberToDisplay dst L amount resolution D st) := by
  have hr : resolution.toUInt64.toNat = 10 ^ D.toNat := by rw [UInt32.toNat_toUInt64, hres]
  have h2' : ¬ L.toNat < 2 := fun h => h2 (UInt32.lt_iff_toNat_lt.mpr h)
  have hge : 10 ^ D.toNat ≤ amount.toNat := by
    rw [UInt64.lt_iff_toNat_lt, hr] at hlt
    omega
  have hlen : D.toNat < lengthOfNumber amount := by
    have hpos := List.length_pos_iff.mpr (decimal_ne_nil (amount.toNat / 10 ^ D.toNat))
    rw [lengthOfNumber_of_ge hge]
    omega
  have hle := lengthOfNumber_le_twenty amount
  obtain ⟨W, S, hW, hS, hWn, hSn, hsum, hloop⟩ := wholePart_sizes hlen
  unfold ConcordiumLedger.decimalNumberToDisplay decimalNumberToDisplay
  rw [if_neg h2, if_neg h2', if_neg h0, if_neg h0, if_neg hlt, if_neg hlt]
  simp only [hW, hS, ← hWn, ← hSn]
  have hSle : S.toNat ≤ W.toNat := by
    rw [hSn]
    split <;> omega
  have hone : (W + S + 1).toNat = W.toNat + S.toNat + 1 := by
    rw [UInt32.toNat_add, hsum]
    exact Nat.mod_eq_of_lt (show W.toNat + S.toNat + 1 < 2 ^ 32 by omega)
  by_cases hroom : L < W + S + 1
  · have hroom' : L.toNat < W.toNat + S.toNat + 1 := by
      rw [← hone]
      exact UInt32.lt_iff_toNat_lt.mp hroom
    rw [if_pos hroom, if_pos hroom']
    exact ⟨[], by rw [List.append_nil]; rfl⟩
  have hroom' : ¬ L.toNat < W.toNat + S.toNat + 1 := by
    rw [← hone]
    exact fun h => hroom (UInt32.lt_iff_toNat_lt.mpr h)
  rw [if_neg hroom, if_neg hroom', hloop]
  obtain ⟨s₁, hs₁, hf₁⟩ := wholePartLoop_fills dst st (W.toNat + S.toNat)
    (amount / resolution.toUInt64) 0
  have hwlen := wholePartLoop_length (W.toNat + S.toNat)
    (amount / resolution.toUInt64).toNat 0 []
  rw [List.length_nil, Nat.add_zero] at hwlen
  rw [bind_of_ok hs₁]
  generalize ConcordiumLedger.wholePartLoop (W.toNat + S.toNat)
    (amount / resolution.toUInt64).toNat 0 [] = whole at *
  have hsumof : W + S = .ofNat whole.length := by
    rw [hwlen, ← hsum, UInt32.ofNat_toNat]
  by_cases hf : amount % resolution.toUInt64 = 0
  · have hne : ¬ amount % resolution.toUInt64 ≠ 0 := fun h => h hf
    rw [if_neg hne, if_neg hne, hsumof]
    exact terminated_renders dst st L (by omega) hf₁
  · have hpart : (amount % resolution.toUInt64).toNat < 10 ^ D.toNat := by
      rw [UInt64.toNat_mod, hr]
      exact Nat.mod_lt _ (by positivity)
    rw [if_pos hf, if_pos hf]
    exact fractionPart_renders dst st hsumof (by omega) hf₁ hf hpart

variable (L resolution amount D) in
theorem decimalNumberToDisplay_renders (hD : D.toNat ≤ 9)
    (hres : resolution.toNat = 10 ^ D.toNat) :
    Renders st dst (fun text => .ofNat text.length)
      (ConcordiumLedger.decimalNumberToDisplay L.toNat amount resolution D)
      (decimalNumberToDisplay dst L amount resolution D st) := by
  by_cases h2 : L < 2
  · have h2' : L.toNat < 2 := UInt32.lt_iff_toNat_lt.mp h2
    unfold ConcordiumLedger.decimalNumberToDisplay decimalNumberToDisplay
    rw [if_pos h2, if_pos h2']
    exact ⟨[], by rw [List.append_nil]; rfl⟩
  by_cases h0 : amount = 0
  · have h2' : ¬ L.toNat < 2 := fun h => h2 (UInt32.lt_iff_toNat_lt.mpr h)
    unfold ConcordiumLedger.decimalNumberToDisplay decimalNumberToDisplay
    rw [if_neg h2, if_neg h2', if_pos h0, if_pos h0]
    exact ⟨[(dst, 48)], rfl, .single _ _⟩
  by_cases hlt : amount < resolution.toUInt64
  · exact decimalNumberToDisplay_renders_lt dst st hres h2 h0 hlt
  · exact decimalNumberToDisplay_renders_ge dst st hD hres h2 h0 hlt

end Resolution

end Stored

end ConcordiumLedger
