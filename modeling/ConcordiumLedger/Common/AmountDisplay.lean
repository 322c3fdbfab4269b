import ConcordiumLedger.Common.NumberTexts

/-!
# Common.AmountDisplay

Amounts and percentages as they are displayed.

* `amounts_rendered_exactly` — given room, the text is the number; different numbers have different
  texts.
* `amounts_within_iff`       — for which numbers the functions stay within the room they are given.
-/

namespace ConcordiumLedger

open CMem CProg CProg.Prog

/-! ## Prefix and suffix -/

theorem fixedLength_le {d : Nat} {n : UInt64} (hd : d ≤ 9) : fixedLength d n.toNat ≤ 40 := by
  have hsig := significant_le d (n.toNat % 10 ^ d)
  have hof : (UInt64.ofNat (n.toNat / 10 ^ d)).toNat = n.toNat / 10 ^ d := by
    rw [UInt64.toNat_ofNat']
    exact Nat.mod_eq_of_lt (Nat.lt_of_le_of_lt (Nat.div_le_self _ _) n.toNat_lt)
  have hlen := decimal_length (.ofNat (n.toNat / 10 ^ d))
  have := lengthOfNumber_le_twenty (.ofNat (n.toNat / 10 ^ d))
  rw [hof] at hlen
  simp only [fixedLength]
  split <;> omega

section Text

variable {L resolution : UInt32} {D : UInt8} {text : List UInt8}

theorem decimalNumberToDisplay_text {amount : UInt64} (hD : D.toNat ≤ 9)
    (hres : resolution.toNat = 10 ^ D.toNat)
    (h : decimalNumberToDisplay L.toNat amount resolution D = .ok text) :
    Accepts D.toNat L.toNat amount.toNat ∧ text = fixedPoint D.toNat amount.toNat := by
  rw [decimalNumberToDisplay_eq _ _ _ L.toNat_lt hD hres] at h
  split at h
  · cases h
    exact ⟨‹_›, rfl⟩
  · cases h

theorem decimalNumberToDisplay_short {amount : UInt64} (hD : D.toNat ≤ 9)
    (hres : resolution.toNat = 10 ^ D.toNat) (text : List UInt8)
    (h : decimalNumberToDisplay L.toNat amount resolution D = .ok text) : text.length ≤ 300 := by
  have hlen := fixedLength_le (n := amount) hD
  rw [(decimalNumberToDisplay_text hD hres h).2, fixedPoint_length]
  omega

end Text

theorem fractionToPercentageDisplay_eq {L : Nat} (hL : L < 2 ^ 32) (number : UInt32) :
    fractionToPercentageDisplay L number =
      if number > 100000 then .error .invalidTransaction
      else if Accepts 3 L number.toNat then .ok (fixedPoint 3 number.toNat ++ [37, 0])
      else .error .bufferOverflow := by
  have h := decimalNumberToDisplay_eq number.toUInt64 1000 3 hL (by decide) (by decide)
  rw [UInt32.toNat_toUInt64] at h
  unfold fractionToPercentageDisplay
  rw [h]
  by_cases hn : number > 100000
  · rw [if_pos hn, if_pos hn]
  · rw [if_neg hn, if_neg hn]
    by_cases hacc : Accepts (UInt8.toNat 3) L number.toNat
    · rw [if_pos hacc]
      exact (if_pos hacc).symm
    · rw [if_neg hacc]
      exact (if_neg hacc).symm

theorem amountToGtuDisplay_eq {L : Nat} (hL : L < 2 ^ 32) (amount : UInt64) :
    amountToGtuDisplay L amount =
      if Accepts 6 L amount.toNat then .ok (ascii "CCD " ++ fixedPoint 6 amount.toNat ++ [0])
      else .error .bufferOverflow := by
  have h := decimalNumberToDisplay_eq amount 1000000 6 hL (by decide) (by decide)
  unfold amountToGtuDisplay
  rw [h]
  by_cases hacc : Accepts (UInt8.toNat 6) L amount.toNat
  · rw [if_pos hacc]
    exact (if_pos hacc).symm
  · rw [if_neg hacc]
    exact (if_neg hacc).symm

namespace Stored

variable (dst : Int) (st : Stores) (L : UInt32)

theorem fractionToPercentageDisplay_renders (number : UInt32) :
    Renders st dst (fun text => .ofNat text.length)
      (ConcordiumLedger.fractionToPercentageDisplay L.toNat number)
      (fractionToPercentageDisplay dst L number st) := by
  have h := decimalNumberToDisplay_renders dst st L 1000 number.toUInt64 3 (by decide) (by decide)
  unfold ConcordiumLedger.fractionToPercentageDisplay fractionToPercentageDisplay
  by_cases hn : number > 100000
  · rw [if_pos hn, if_pos hn]
    exact ⟨[], by rw [List.append_nil]; rfl⟩
  rw [if_neg hn, if_neg hn]
  refine h.andThen fun text st' htext hf => ?_
  have hlen := decimalNumberToDisplay_short (by decide) (by decide) text htext
  have hn0 : (UInt32.ofNat text.length).toNat = text.length := toNat_ofNat_of_lt (by omega)
  have hn1 : (UInt32.ofNat text.length + 1).toNat = text.length + 1 := by
    rw [show (1 : UInt32) = .ofNat 1 from rfl, ← UInt32.ofNat_add, toNat_ofNat_of_lt (by omega)]
  refine ⟨st' ++ ([(dst + text.length, 37)] ++ [(dst + (text.length + 1 : Nat), 0)]), ?_, ?_⟩
  · rw [bind_of_ok (store_ok _ _ _), bind_of_ok (store_ok _ _ _), hn0, hn1]
    show Outcome.ok (UInt32.ofNat text.length + 2) _ =
      Outcome.ok (UInt32.ofNat (text ++ [37, 0]).length) _
    rw [List.length_append, UInt32.ofNat_add, List.append_assoc, List.append_assoc]
    rfl
  · refine hf.append ((Fills.single _ _).append ?_)
    rw [List.length_singleton, Nat.cast_add, ← Int.add_assoc]
    exact Fills.single _ _

theorem amountToGtuDisplay_renders (amount : UInt64) :
    Renders st dst (fun text => .ofNat text.length)
      (ConcordiumLedger.amountToGtuDisplay L.toNat amount)
      (amountToGtuDisplay dst L amount st) := by
  obtain ⟨s₁, hs₁, hf₁⟩ := storeAll_fills (ε := Error) dst (ascii "CCD ") st
  have h := decimalNumberToDisplay_renders (dst + 4) (st ++ s₁) L 1000000 amount 6 (by decide)
    (by decide)
  have hascii : (ascii "CCD ").length = 4 := by decide
  unfold ConcordiumLedger.amountToGtuDisplay amountToGtuDisplay
  rw [bind_of_ok hs₁]
  refine Renders.bind hf₁ (by rw [hascii]; exact h) fun text st' htext hf => ?_
  have hlen := decimalNumberToDisplay_short (by decide) (by decide) text htext
  have hplace : UInt32.ofNat text.length + 4 = .ofNat (ascii "CCD " ++ text).length := by
    rw [List.length_append, hascii, Nat.add_comm, UInt32.ofNat_add]
    rfl
  have htotal : (ascii "CCD " ++ text).length ≤ 304 := by
    rw [List.length_append, hascii]
    omega
  simp only [hplace]
  generalize ascii "CCD " ++ text = whole at *
  refine ⟨st' ++ [(dst + whole.length, 0)], ?_, hf.append (.single _ _)⟩
  rw [bind_of_ok (store_ok _ _ _), toNat_ofNat_of_lt (by omega)]
  show Outcome.ok (UInt32.ofNat whole.length + 1) _ =
    Outcome.ok (UInt32.ofNat (whole ++ [0]).length) _
  rw [List.length_append, UInt32.ofNat_add, List.append_assoc]
  rfl

/-- What a function leaves at `dst`, as long as the count says that it returns. -/
def written (dst : Int) (m : Int → UInt8) (x : Storing Error UInt32) : Option (List UInt8) :=
  match x [] with
  | .ok n st => some (Stores.read (Stores.after m st) dst n.toNat)
  | .thrown _ _ => none

/-- The function throws, or stores and counts no more than `dstLength` bytes. -/
def Respects (dstLength : UInt32) (x : Storing Error UInt32) : Prop :=
  match x [] with
  | .ok n st => Stores.Within 0 dstLength.toNat st ∧ n ≤ dstLength
  | .thrown _ _ => True

instance (L : UInt32) (x : Storing Error UInt32) : Decidable (Respects L x) :=
  match h : x [] with
  | .ok n st =>
    decidable_of_iff (Stores.Within 0 L.toNat st ∧ n ≤ L) (by unfold Respects; rw [h])
  | .thrown _ _ => .isTrue (by unfold Respects; rw [h]; trivial)

theorem written_of_renders {dst : Int} {r : Except Error (List UInt8)} {x : Storing Error UInt32}
    (h : Renders [] dst (fun text => .ofNat text.length) r (x [])) (m : Int → UInt8)
    (hlen : ∀ text, r = .ok text → text.length ≤ 300) :
    written dst m x = r.toOption := by
  unfold written
  cases r with
  | error e =>
    obtain ⟨s', hs'⟩ := h
    rw [hs']
    rfl
  | ok text =>
    obtain ⟨s', hs', hf⟩ := h
    have hsmall := hlen text rfl
    rw [hs', List.nil_append]
    simp only [toNat_ofNat_of_lt (n := text.length) (by omega), hf.read, Except.toOption]

theorem respects_of_renders {L : UInt32} {r : Except Error (List UInt8)} {x : Storing Error UInt32}
    (h : Renders [] 0 (fun text => .ofNat text.length) r (x []))
    (hlen : ∀ text, r = .ok text → text.length ≤ 300) :
    Respects L x ↔ ∀ text, r = .ok text → text.length ≤ L.toNat := by
  unfold Respects
  cases r with
  | error e =>
    obtain ⟨s', hs'⟩ := h
    rw [hs']
    simp
  | ok text =>
    obtain ⟨s', hs', hf⟩ := h
    have hsmall := hlen text rfl
    rw [hs', List.nil_append]
    show Stores.Within 0 L.toNat s' ∧ UInt32.ofNat text.length ≤ L ↔ _
    rw [UInt32.le_iff_toNat_le, toNat_ofNat_of_lt (n := text.length) (by omega)]
    constructor
    · intro hr t ht
      cases ht
      exact hr.2
    · intro ht
      have hle := ht text rfl
      exact ⟨hf.within.mono (by omega) (by omega), hle⟩

end Stored

/-! ## Exactness -/

section Lengths

variable {L : UInt32} {text : List UInt8}

theorem fractionToPercentageDisplay_text {number : UInt32}
    (h : fractionToPercentageDisplay L.toNat number = .ok text) :
    number ≤ 100000 ∧ Accepts 3 L.toNat number.toNat ∧
      text = fixedPoint 3 number.toNat ++ [37, 0] := by
  rw [fractionToPercentageDisplay_eq L.toNat_lt] at h
  split at h
  · cases h
  · rename_i hn
    split at h
    · cases h
      exact ⟨UInt32.not_lt.mp hn, ‹_›, rfl⟩
    · cases h

theorem fractionToPercentageDisplay_short {number : UInt32} (text : List UInt8)
    (h : fractionToPercentageDisplay L.toNat number = .ok text) : text.length ≤ 300 := by
  have hlen := fixedLength_le (d := 3) (n := number.toUInt64) (by decide)
  rw [UInt32.toNat_toUInt64] at hlen
  rw [(fractionToPercentageDisplay_text h).2.2, List.length_append, fixedPoint_length]
  show _ + 2 ≤ 300
  omega

theorem amountToGtuDisplay_short {amount : UInt64} (text : List UInt8)
    (h : amountToGtuDisplay L.toNat amount = .ok text) : text.length ≤ 300 := by
  have := (amountToGtuDisplay_length h).1
  omega

end Lengths

theorem written_fractionToPercentageDisplay (dst : Int) (m : Int → UInt8) (L number : UInt32) :
    Stored.written dst m (Stored.fractionToPercentageDisplay dst L number) =
      (fractionToPercentageDisplay L.toNat number).toOption :=
  Stored.written_of_renders (Stored.fractionToPercentageDisplay_renders dst [] L number) m
    fractionToPercentageDisplay_short

theorem written_amountToGtuDisplay (dst : Int) (m : Int → UInt8) (L : UInt32) (amount : UInt64) :
    Stored.written dst m (Stored.amountToGtuDisplay dst L amount) =
      (amountToGtuDisplay L.toNat amount).toOption :=
  Stored.written_of_renders (Stored.amountToGtuDisplay_renders dst [] L amount) m
    amountToGtuDisplay_short

theorem fixedLength_six_le (amount : UInt64) : fixedLength 6 amount.toNat ≤ 25 := by
  have hlen := fixedLength_le (d := 6) (n := amount) (by decide)
  have heq := decimalNumberToDisplay_eq (L := 50) amount 1000000 6 (by decide) (by decide) (by decide)
  rw [if_pos (.inl (show fixedLength 6 amount.toNat < 50 by omega))] at heq
  have := decimalNumberToDisplay_length heq
  rwa [fixedPoint_length] at this

/-- An amount in an array of 30 bytes. -/
theorem amountToGtuDisplay_thirty (amount : UInt64) :
    amountToGtuDisplay (UInt32.toNat 30) amount =
      .ok (ascii "CCD " ++ fixedPoint 6 amount.toNat ++ [0]) := by
  have hlen := fixedLength_six_le amount
  rw [amountToGtuDisplay_eq (by decide), if_pos]
  refine .inl ?_
  show fixedLength 6 amount.toNat < 30
  omega

/-! ## Percentages in eight bytes -/

/-- At most 100%, so that two digits come with three decimals at most. -/
theorem fixedLength_percentage {n : Nat} (h : n ≤ 100000) : fixedLength 3 n ≤ 6 := by
  have hsig := significant_le 3 (n % 10 ^ 3)
  simp only [fixedLength]
  by_cases hn : n = 100000
  · subst hn
    decide
  · have hwhole : (decimal (n / 10 ^ 3)).length ≤ 2 := by
      have hlen := decimal_length (.ofNat (n / 10 ^ 3))
      have hof : (UInt64.ofNat (n / 10 ^ 3)).toNat = n / 10 ^ 3 := by
        rw [UInt64.toNat_ofNat']
        omega
      have hle := lengthOfNumber_le (.ofNat (n / 10 ^ 3)) (show 0 < 2 by decide)
        (by rw [hof]; omega)
      rw [hof] at hlen
      omega
    split <;> omega

/-- A percentage in an array of eight bytes. -/
theorem fractionToPercentageDisplay_eight {part : UInt32} {text : List UInt8}
    (h : fractionToPercentageDisplay 8 part = .ok text) :
    part.toNat ≤ 100000 ∧ text = fixedPoint 3 part.toNat ++ [37] ++ [0] ∧
      0 ∉ fixedPoint 3 part.toNat ++ [37] ∧ (fixedPoint 3 part.toNat ++ [37]).length < 8 := by
  obtain ⟨hle, -, rfl⟩ := fractionToPercentageDisplay_text (L := 8) h
  have hle' := UInt32.le_iff_toNat_le.mp hle
  have hlen := fixedLength_percentage hle'
  refine ⟨hle', by rw [List.append_assoc]; rfl, ?_, ?_⟩
  · intro hz
    rcases List.mem_append.mp hz with hz | hz
    · exact zero_not_mem_fixedPoint _ _ hz
    · exact absurd hz (by decide)
  · rw [List.length_append, fixedPoint_length]
    show _ + 1 < 8
    omega

theorem cString_percentage {part : UInt32} {text : List UInt8} (b : Buffer 8)
    (h : fractionToPercentageDisplay 8 part = .ok text) :
    cString (b.memmove 0 text).bytes = some (fixedPoint 3 part.toNat ++ [37]) := by
  obtain ⟨-, rfl, hzero, hlen⟩ := fractionToPercentageDisplay_eight h
  exact cString_memmove b _ hzero hlen

/-- With room for the text and a NUL, the number of units is what the text says, and the count is
its length; the same for a part of 100000 with its sign and NUL. So different amounts, and different
percentages, have different texts. -/
theorem amounts_rendered_exactly :
    (∀ (D : UInt8) (resolution : UInt32) (amount : UInt64) (dstLength : UInt32) (dst : Int),
      1 ≤ D.toNat → D.toNat ≤ 9 → resolution.toNat = 10 ^ D.toNat →
      fixedLength D.toNat amount.toNat < dstLength.toNat →
      fixedValue (fixedPoint D.toNat amount.toNat) = (amount.toNat : ℚ) / 10 ^ D.toNat ∧
      ∃ st, Stored.decimalNumberToDisplay dst dstLength amount resolution D [] =
          .ok (.ofNat (fixedPoint D.toNat amount.toNat).length) st ∧
        Fills dst (fixedPoint D.toNat amount.toNat) st) ∧
    (∀ (amount : UInt64) (dst : Int) (m : Int → UInt8),
      Stored.written dst m (Stored.amountToGtuDisplay dst 30 amount) =
        some (ascii "CCD " ++ fixedPoint 6 amount.toNat ++ [0])) ∧
    (∀ (number dstLength : UInt32) (dst : Int), number ≤ 100000 →
      fixedLength 3 number.toNat + 2 ≤ dstLength.toNat →
      fixedValue (fixedPoint 3 number.toNat) = (number.toNat : ℚ) / 1000 ∧
      ∃ st, Stored.fractionToPercentageDisplay dst dstLength number [] =
          .ok (.ofNat (fixedPoint 3 number.toNat ++ [37, 0]).length) st ∧
        Fills dst (fixedPoint 3 number.toNat ++ [37, 0]) st) ∧
    (∀ (a b : UInt64) (dst dst' : Int) (m m' : Int → UInt8),
      Stored.written dst m (Stored.amountToGtuDisplay dst 30 a) =
        Stored.written dst' m' (Stored.amountToGtuDisplay dst' 30 b) → a = b) ∧
    ∀ (a b dstLength dstLength' : UInt32) (dst dst' : Int) (m m' : Int → UInt8) (text : List UInt8),
      Stored.written dst m (Stored.fractionToPercentageDisplay dst dstLength a) = some text →
      Stored.written dst' m' (Stored.fractionToPercentageDisplay dst' dstLength' b) = some text →
        a = b := by
  refine ⟨?_, ?_, ?_, ?_, ?_⟩
  · intro D resolution amount dstLength dst _ h9 hres hroom
    refine ⟨fixedValue_fixedPoint _ _, ?_⟩
    have hr := Stored.decimalNumberToDisplay_renders dst [] dstLength resolution amount D h9
      hres
    rw [decimalNumberToDisplay_eq _ _ _ dstLength.toNat_lt h9 hres, if_pos (.inl hroom)] at hr
    obtain ⟨st, hst, hf⟩ := hr
    exact ⟨st, by rw [hst, List.nil_append], hf⟩
  · intro amount dst m
    rw [written_amountToGtuDisplay, amountToGtuDisplay_thirty]
    rfl
  · intro number dstLength dst hn hroom
    refine ⟨?_, ?_⟩
    · rw [fixedValue_fixedPoint]
      norm_num
    · have hr := Stored.fractionToPercentageDisplay_renders dst [] dstLength number
      rw [fractionToPercentageDisplay_eq dstLength.toNat_lt, if_neg (UInt32.not_lt.mpr hn),
        if_pos (.inl (by omega))] at hr
      obtain ⟨st, hst, hf⟩ := hr
      exact ⟨st, by rw [hst, List.nil_append], hf⟩
  · intro a b dst dst' m m' heq
    rw [written_amountToGtuDisplay, written_amountToGtuDisplay, amountToGtuDisplay_thirty,
      amountToGtuDisplay_thirty] at heq
    have htext := Option.some.inj heq
    rw [List.append_cancel_right_eq, List.append_cancel_left_eq] at htext
    exact UInt64.toNat_inj.mp (fixedPoint_inj htext)
  · intro a b dstLength dstLength' dst dst' m m' text ha hb
    rw [written_fractionToPercentageDisplay] at ha hb
    have hok {r : Except Error (List UInt8)} (h : r.toOption = some text) : r = .ok text := by
      cases r with
      | error e => cases h
      | ok t => exact congrArg _ (Option.some.inj h)
    have hta := (fractionToPercentageDisplay_text (hok ha)).2.2
    have htb := (fractionToPercentageDisplay_text (hok hb)).2.2
    rw [hta, List.append_cancel_right_eq] at htb
    exact UInt32.toNat_inj.mp (fixedPoint_inj htb)

/-- 1234.5 with three decimals takes seven characters. -/
theorem amounts_rendered_1234500 :
    ∃ st, Stored.decimalNumberToDisplay 0 8 1234500 1000 3 [] = .ok 7 st ∧
      Fills 0 (ascii "1,234.5") st := by
  have hlen : (fixedPoint (UInt8.toNat 3) (UInt64.toNat 1234500)) = ascii "1,234.5" := by
    decide +kernel
  have h := (amounts_rendered_exactly.1 3 1000 1234500 8 0 (by decide) (by decide) (by decide)
    (by decide)).2
  rw [hlen] at h
  exact h

/-! ## Bounds -/

/-- `dstLength - 3` less the zeroes after the point wraps around, and the zeroes are stored
although there is no room for them. -/
def Wraps (d L : Nat) (n : UInt64) : Prop :=
  (0 < n.toNat ∧ n.toNat < 10 ^ d) ∧ 2 ≤ L ∧ L < 3 + (d - lengthOfNumber n)

theorem accepts_iff {d L : Nat} {n : UInt64} :
    Accepts d L n.toNat ↔ fixedLength d n.toNat < L ∨ Wraps d L n := by
  unfold Accepts Wraps
  rw [decimal_length]

/-- The text is longer than the room it is taken to have. -/
theorem Wraps.lt_fixedLength {d L : Nat} {n : UInt64} (h : Wraps d L n) :
    L < fixedLength d n.toNat := by
  obtain ⟨⟨h0, hlt⟩, _, hL⟩ := h
  have hsig := lt_significant h0 hlt
  rw [decimal_length] at hsig
  have hpos : 0 < (decimal (n.toNat / 10 ^ d)).length := List.length_pos_iff.mpr (decimal_ne_nil _)
  simp only [fixedLength]
  rw [Nat.mod_eq_of_lt hlt, if_neg (by omega)]
  omega

theorem decimalNumberToDisplay_within_iff {dstLength resolution : UInt32} {amount : UInt64}
    {D : UInt8} (h9 : D.toNat ≤ 9) (hres : resolution.toNat = 10 ^ D.toNat) :
    Stored.Respects dstLength (Stored.decimalNumberToDisplay 0 dstLength amount resolution D) ↔
      ¬ Wraps D.toNat dstLength.toNat amount := by
  rw [Stored.respects_of_renders
    (Stored.decimalNumberToDisplay_renders 0 [] dstLength resolution amount D h9 hres)
    (decimalNumberToDisplay_short h9 hres),
    decimalNumberToDisplay_eq _ _ _ dstLength.toNat_lt h9 hres]
  by_cases hacc : Accepts D.toNat dstLength.toNat amount.toNat
  · rw [if_pos hacc]
    rw [accepts_iff] at hacc
    simp only [Except.ok.injEq, forall_eq', fixedPoint_length]
    constructor
    · intro hle hw
      have := hw.lt_fixedLength
      omega
    · intro hw
      have := hacc.resolve_right hw
      omega
  · rw [if_neg hacc]
    rw [accepts_iff, not_or] at hacc
    simp only [reduceCtorEq, false_implies, implies_true, true_iff]
    exact hacc.2

theorem fractionToPercentageDisplay_within_iff {dstLength number : UInt32} :
    Stored.Respects dstLength (Stored.fractionToPercentageDisplay 0 dstLength number) ↔
      100000 < number ∨ ¬ Wraps 3 dstLength.toNat number.toUInt64 ∧
        dstLength.toNat ≠ fixedLength 3 number.toNat + 1 := by
  rw [Stored.respects_of_renders
    (Stored.fractionToPercentageDisplay_renders 0 [] dstLength number)
    fractionToPercentageDisplay_short, fractionToPercentageDisplay_eq dstLength.toNat_lt]
  by_cases hn : number > 100000
  · rw [if_pos hn]
    simp only [reduceCtorEq, false_implies, implies_true, true_iff]
    exact .inl hn
  rw [if_neg hn, or_iff_right (show ¬ 100000 < number from hn)]
  have hacc_iff := accepts_iff (d := 3) (L := dstLength.toNat) (n := number.toUInt64)
  have hlt {h : Wraps 3 dstLength.toNat number.toUInt64} := h.lt_fixedLength
  rw [UInt32.toNat_toUInt64] at hacc_iff hlt
  by_cases hacc : Accepts 3 dstLength.toNat number.toNat
  · rw [if_pos hacc]
    rw [hacc_iff] at hacc
    simp only [Except.ok.injEq, forall_eq', List.length_append, fixedPoint_length]
    show fixedLength 3 number.toNat + 2 ≤ dstLength.toNat ↔ _
    constructor
    · intro hle
      refine ⟨fun hw => ?_, by omega⟩
      have := @hlt hw
      omega
    · rintro ⟨hw, hne⟩
      have := hacc.resolve_right hw
      omega
  · rw [if_neg hacc]
    rw [hacc_iff, not_or] at hacc
    simp only [reduceCtorEq, false_implies, implies_true, true_iff]
    exact ⟨hacc.2, by omega⟩

theorem amountToGtuDisplay_within_iff {dstLength : UInt32} {amount : UInt64} :
    Stored.Respects dstLength (Stored.amountToGtuDisplay 0 dstLength amount) ↔
      ¬ Wraps 6 dstLength.toNat amount ∧
        ¬ (fixedLength 6 amount.toNat < dstLength.toNat ∧
          dstLength.toNat < fixedLength 6 amount.toNat + 5) := by
  have hascii : (ascii "CCD ").length = 4 := by decide
  rw [Stored.respects_of_renders (Stored.amountToGtuDisplay_renders 0 [] dstLength amount)
    amountToGtuDisplay_short, amountToGtuDisplay_eq dstLength.toNat_lt]
  by_cases hacc : Accepts 6 dstLength.toNat amount.toNat
  · rw [if_pos hacc]
    rw [accepts_iff] at hacc
    simp only [Except.ok.injEq, forall_eq', List.length_append, hascii, fixedPoint_length,
      List.length_singleton]
    constructor
    · intro hle
      refine ⟨fun hw => ?_, by omega⟩
      have := hw.lt_fixedLength
      omega
    · rintro ⟨hw, hlen⟩
      have := hacc.resolve_right hw
      omega
  · rw [if_neg hacc]
    rw [accepts_iff, not_or] at hacc
    simp only [reduceCtorEq, false_implies, implies_true, true_iff]
    exact ⟨hacc.2, fun h => hacc.1 h.1⟩

/-- 30 bytes are enough for every amount. -/
theorem amountToGtuDisplay_within_thirty (amount : UInt64) :
    Stored.Respects 30 (Stored.amountToGtuDisplay 0 30 amount) := by
  have hlen := fixedLength_six_le amount
  rw [amountToGtuDisplay_within_iff]
  show ¬ Wraps 6 30 amount ∧ ¬ (_ < 30 ∧ 30 < _)
  refine ⟨fun hw => ?_, by omega⟩
  have := hw.lt_fixedLength
  omega

theorem amountToGtuDisplay_within_twenty_six (amount : UInt64) :
    Stored.Respects 26 (Stored.amountToGtuDisplay 0 26 amount) ↔
      fixedLength 6 amount.toNat ≤ 21 := by
  have hlen := fixedLength_six_le amount
  rw [amountToGtuDisplay_within_iff]
  show ¬ Wraps 6 26 amount ∧ ¬ (_ < 26 ∧ 26 < _) ↔ _
  constructor
  · rintro ⟨_, h⟩
    omega
  · intro h
    refine ⟨fun hw => ?_, by omega⟩
    have := hw.lt_fixedLength
    omega

/-- What each function stores and counts stays within `dstLength`, except where the comparison
wraps around, and except where the sign and the NUL of a percentage, or the prefix and the NUL of
an amount, have no room behind the text. -/
theorem amounts_within_iff (dstLength : UInt32) (amount : UInt64) :
    (∀ (D : UInt8) (resolution : UInt32), D.toNat ≤ 9 → resolution.toNat = 10 ^ D.toNat →
      (Stored.Respects dstLength (Stored.decimalNumberToDisplay 0 dstLength amount resolution D) ↔
        ¬ Wraps D.toNat dstLength.toNat amount)) ∧
    (∀ number : UInt32,
      Stored.Respects dstLength (Stored.fractionToPercentageDisplay 0 dstLength number) ↔
        100000 < number ∨ ¬ Wraps 3 dstLength.toNat number.toUInt64 ∧
          dstLength.toNat ≠ fixedLength 3 number.toNat + 1) ∧
    (Stored.Respects dstLength (Stored.amountToGtuDisplay 0 dstLength amount) ↔
      ¬ Wraps 6 dstLength.toNat amount ∧
        ¬ (fixedLength 6 amount.toNat < dstLength.toNat ∧
          dstLength.toNat < fixedLength 6 amount.toNat + 5)) ∧
    Stored.Respects 30 (Stored.amountToGtuDisplay 0 30 amount) ∧
    (Stored.Respects 26 (Stored.amountToGtuDisplay 0 26 amount) ↔
      fixedLength 6 amount.toNat ≤ 21) := by
  refine ⟨fun D resolution h9 hres => ?_, fun number => ?_, ?_, ?_, ?_⟩
  · exact decimalNumberToDisplay_within_iff h9 hres
  · exact fractionToPercentageDisplay_within_iff
  · exact amountToGtuDisplay_within_iff
  · exact amountToGtuDisplay_within_thirty amount
  · exact amountToGtuDisplay_within_twenty_six amount

/-- One unit of 10 ^ -6 in a destination of nine bytes. -/
theorem amounts_within_one :
    Stored.Respects 9 (Stored.decimalNumberToDisplay 0 9 1 1000000 6) :=
  ((amounts_within_iff 9 1).1 6 1000000 (by decide) (by decide)).mpr
    (by unfold Wraps; decide)

/-- The largest amount overruns the arrays of the governance application by four bytes. -/
theorem largest_amount_overruns :
    ¬ Stored.Respects 26 (Stored.amountToGtuDisplay 0 26 18446744073709551615) := by
  decide

end ConcordiumLedger
