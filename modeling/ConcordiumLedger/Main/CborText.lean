import ConcordiumLedger.Common.NumberFacts
import ConcordiumLedger.Common.Rules
import ConcordiumLedger.Lib.Cbor
import ConcordiumLedger.Main.DisplayCbor

/-!
# Main.CborText

How a CBOR item is read and what it looks like on the display.

* `rendered` — the text of an item. The device does not add 1 to `2^64 - 1`, so `-2^64` is shown as
  a difference.
* `written`  — the bytes that the text of an integer puts into the display: with a NUL, but for
  `-2^64`.
* `ItemRead` — what the first command of an item leaves, in terms of its head.
* `Reading`  — how the counters stand after one or more commands of an item.
-/

namespace ConcordiumLedger

open CMem CProg CProg.Prog

namespace Memo

/-! ## The head of an item -/

/-- What `cborSize` says about a short count and the bytes after it. -/
structure SizeRead (short : UInt8) (p : Ptr) (s : UInt8) (n : UInt64) : Prop where
  size : Cbor.argumentSize short = some s.toNat
  argument : n.toNat = if s.toNat = 0 then short.toNat else beNat (p.slice s.toNat)
  size_le : s.toNat ≤ 8

theorem cborSize_ok {short : UInt8} {p : Ptr} {s : UInt8} {n : UInt64}
    (h : cborSize short p = .ok (s, n)) : SizeRead short p s n := by
  unfold cborSize at h
  split at h
  · cases h; exact ⟨by simp_all [Cbor.argumentSize], by simp, by decide⟩
  · split at h
    · cases h; exact ⟨by simp_all [Cbor.argumentSize], by simp [beNat, slice_one], by decide⟩
    · split at h
      · cases h; exact ⟨by simp_all [Cbor.argumentSize], by simp [Ptr.u2be_toNat], by decide⟩
      · split at h
        · cases h; exact ⟨by simp_all [Cbor.argumentSize], by simp [Ptr.u4be_toNat], by decide⟩
        · split at h
          · cases h; exact ⟨by simp_all [Cbor.argumentSize], by simp [Ptr.u8be_toNat], by decide⟩
          · split at h <;> cases h

/-- `cborSize` reads the head of the item. -/
theorem head_of_cborSize {p : Ptr} {s : UInt8} {n : UInt64} (m : Nat)
    (h : SizeRead (p 0 &&& 0x1F) (p.advance 1) s n) :
    Cbor.head (p.slice (1 + s.toNat + m)) =
      some (⟨p 0 >>> 5, n.toNat⟩, (p.advance (1 + s.toNat)).slice m) := by
  have hp : p.slice (1 + s.toNat + m) =
      p 0 :: ((p.advance 1).slice s.toNat ++ (p.advance (1 + s.toNat)).slice m) := by
    rw [Nat.add_assoc, Nat.add_comm 1, Ptr.slice_succ, Ptr.slice_add, Ptr.advance_advance]
  rw [hp, Cbor.head_eq h.size (Ptr.slice_length _ _), ← h.argument]

/-! ## The text of an item -/

/-- The text of a negative integer with this argument. -/
def negativeText (n : Nat) : List UInt8 :=
  if n = 2 ^ 64 - 1 then ascii "-18446744073709551615 - 1" else ascii "-" ++ decimal (n + 1)

/-- The text of an item with this head and these bytes after it. -/
def rendered (h : Cbor.Head) (rest : List UInt8) : List UInt8 :=
  if h.major = 0 then decimal h.argument
  else if h.major = 1 then negativeText h.argument
  else rest

/-- Only the text of an integer is terminated, and that of `-2^64` is not. -/
def Terminated (h : Cbor.Head) : Prop := h.major = 0 ∨ h.major = 1 ∧ h.argument ≠ 2 ^ 64 - 1

instance (h : Cbor.Head) : Decidable (Terminated h) := inferInstanceAs (Decidable (_ ∨ _))

/-- What is written to the display for an item. -/
def written (h : Cbor.Head) (rest : List UInt8) : List UInt8 :=
  rendered h rest ++ if Terminated h then [0] else []

theorem decimal_length_le {n : Nat} (h : n < 2 ^ 64) : (decimal n).length ≤ 20 := by
  have hn : (UInt64.ofNat n).toNat = n := by rw [UInt64.toNat_ofNat', Nat.mod_eq_of_lt h]
  rw [← hn, decimal_length]
  exact lengthOfNumber_le_twenty _

/-- The text of an integer takes up a small part of the display. -/
theorem written_length {h : Cbor.Head} (hm : h.major = 0 ∨ h.major = 1)
    (ha : h.argument < 2 ^ 64) : (written h []).length ≤ 26 := by
  have hterm : (if Terminated h then [(0 : UInt8)] else []).length ≤ 1 := by split <;> decide
  have hminus : (ascii "-").length = 1 := rfl
  have hlong : (ascii "-18446744073709551615 - 1").length = 25 := by decide
  have hrend : (rendered h []).length ≤ 25 := by
    rcases hm with h0 | h1
    · rw [rendered, if_pos h0]
      have := decimal_length_le ha
      omega
    · rw [rendered, h1, if_neg (by decide), if_pos rfl, negativeText]
      split
      · rw [hlong]
      · have := decimal_length_le (n := h.argument + 1) (by omega)
        rw [List.length_append, hminus]
        omega
  rw [written, List.length_append]
  omega

/-! ## Reading an item -/

section Read

variable {d : Device CborContext} {Q : PUnit → Device CborContext → Prop}
  {E : Error → Device CborContext → Prop}

theorem wp_displayNumber {off : Nat} {number : UInt64} (hoff : off ≤ 234) :
    wp (displayNumber off number) Q E d ↔ Q ⟨⟩ ⟨{ d.ctx with
      display := d.ctx.display.memmove off (decimal number.toNat ++ [0]) }, d.shared⟩ := by
  simp only [displayNumber, wp_bind, bin2dec_ok (show 21 ≤ 255 - off by omega), Fw.wp_eval,
    Fw.wp_modifyCtx, Except.ok.injEq, forall_eq', reduceCtorEq, false_implies, implies_true,
    and_true]

/-- The text of a negative integer is written over whatever was displayed. -/
theorem wp_displayNegative {number : UInt64} {h : Cbor.Head} (hm : h.major = 1)
    (ha : h.argument = number.toNat) :
    wp (displayNegative number) Q E d ↔ Q ⟨⟩ ⟨{ d.ctx with
      display := d.ctx.display.memmove 0 (written h []) }, d.shared⟩ := by
  simp only [displayNegative, wp_bind, Fw.wp_modifyCtx, wp_ite,
    wp_displayNumber (show 1 ≤ 234 by decide)]
  by_cases hmax : number = 0xFFFFFFFFFFFFFFFF
  · have harg : h.argument = 2 ^ 64 - 1 := by rw [ha, hmax]; rfl
    have hw : written h [] = ascii "-" ++ decimal (2 ^ 64 - 1) ++ ascii " - 1" := by
      simp only [written, rendered, negativeText, hm, Terminated, harg]
      decide
    have hnat : number.toNat = 2 ^ 64 - 1 := ha ▸ harg
    have hfirst : (d.ctx.display.memmove 0 (ascii "-")).memmove 1 (decimal (2 ^ 64 - 1) ++ [0]) =
        d.ctx.display.memmove 0 (ascii "-" ++ decimal (2 ^ 64 - 1) ++ [0]) := by
      rw [List.append_assoc]
      exact Buffer.memmove_memmove _ (ascii "-") _ (by decide)
    have hlast : (d.ctx.display.memmove 0 (ascii "-" ++ decimal (2 ^ 64 - 1) ++ [0])).memmove
        (1 + 20) (ascii " - 1") = d.ctx.display.memmove 0 (written h []) := by
      rw [hw]
      exact Buffer.memmove_over _ _ _ (by decide) (by decide)
    rw [hnat, hfirst, hlast]
    simp [hmax]
  · have hne : number.toNat ≠ 2 ^ 64 - 1 := fun e => hmax (UInt64.toNat_inj.mp (by rw [e]; rfl))
    have hlt := number.toNat_lt
    have hsucc : (1 + number).toNat = number.toNat + 1 := by
      rw [UInt64.toNat_add]
      have h1 : (1 : UInt64).toNat = 1 := rfl
      omega
    have hw : written h [] = ascii "-" ++ (decimal (number.toNat + 1) ++ [0]) := by
      have hterm : Terminated h := .inr ⟨hm, ha ▸ hne⟩
      rw [written, if_pos hterm, rendered, hm, if_neg (by decide), if_pos rfl, negativeText, ha,
        if_neg hne, List.append_assoc]
    have hlen : (decimal (number.toNat + 1)).length ≤ 20 := by
      rw [← hsucc, decimal_length]
      exact lengthOfNumber_le_twenty _
    have hwrite : (d.ctx.display.memmove 0 (ascii "-")).memmove 1
        (decimal (number.toNat + 1) ++ [0]) = d.ctx.display.memmove 0 (written h []) := by
      rw [hw]
      refine Buffer.memmove_memmove _ (ascii "-") _ ?_
      have hminus : (ascii "-").length = 1 := rfl
      simp only [List.length_append, hminus, List.length_singleton]
      omega
    rw [hsucc, hwrite]
    simp [hmax]

/-- The declared length without the head, as a number. -/
theorem left_toNat (c : UInt32) (s : UInt8) :
    (c - 1 - s.toUInt32).toNat = (2 ^ 33 + c.toNat - 1 - s.toNat) % 2 ^ 32 := by
  have hc := c.toNat_lt
  have hs := s.toNat_lt
  simp only [UInt32.toNat_sub, UInt8.toNat_toUInt32]
  have h1 : (1 : UInt32).toNat = 1 := rfl
  omega

/-- The number of bytes after the head, in the 8 bits of `contentLength`. -/
def contentOf (dataLength s : UInt8) : UInt8 := dataLength - 1 - s

/-- What the first command of an item leaves: it had `s` bytes of size and the argument `n`. An
integer is complete and has been written; of a text the rest of the command has been counted off
and written. -/
structure ItemRead (cdata : Ptr) (dataLength s : UInt8) (n : UInt64) (c c' : CborContext) :
    Prop where
  size : SizeRead (cdata 0 &&& 0x1F) (cdata.advance 1) s n
  major : c'.majorType = cdata 0 >>> 5
  content :
    (c'.majorType = 0 ∨ c'.majorType = 1) ∧ c.cborLength - 1 - s.toUInt32 = 0 ∧
      c'.cborLength = 0 ∧
      c'.display = c.display.memmove 0 (written ⟨c'.majorType, n.toNat⟩ []) ∨
    c'.majorType = 3 ∧ (c.cborLength - 1 - s.toUInt32).toUInt64 = n ∧
      c'.cborLength = c.cborLength - 1 - s.toUInt32 - (contentOf dataLength s).toUInt32 ∧
      c'.displayUsed = (contentOf dataLength s).toUInt32 ∧
      c'.display = c.display.memmove 0
        ((cdata.advance (1 + s.toNat)).slice (contentOf dataLength s).toNat)

theorem wp_readCborContent (cdata : Ptr) (len : UInt8) :
    wp (readCborContent cdata len) Q E d ↔
      let c := { d.ctx with cborLength := d.ctx.cborLength - len.toUInt32 }
      (c.majorType = 3 → Q ⟨⟩ ⟨{ c with
        display := c.display.memmove c.displayUsed.toNat (cdata.slice len.toNat)
        displayUsed := c.displayUsed + len.toUInt32 }, d.shared⟩) ∧
      (c.majorType = 0 ∨ c.majorType = 1 → E .unsupportedCbor ⟨c, d.shared⟩) ∧
      (c.majorType ≠ 3 → ¬ (c.majorType = 0 ∨ c.majorType = 1) →
        E .invalidState ⟨c, d.shared⟩) := by
  simp only [readCborContent, wp_bind, Fw.wp_modifyCtx, Fw.wp_getCtx, wp_ite, Fw.wp_throw]
  refine and_congr_right fun _ => ⟨fun h => ⟨fun h01 => (h ?_).1 h01, fun h3 => (h h3).2⟩,
    fun h h3 => ⟨h.1, h.2 h3⟩⟩
  rcases h01 with h0 | h0 <;> rw [h0] <;> decide

/-- A successful read of the first command. -/
theorem readCborInitial_item (cdata : Ptr) (dataLength : UInt8) :
    wp (readCborInitial cdata dataLength)
      (fun _ t => t.shared = d.shared ∧ ∃ s n, ItemRead cdata dataLength s n d.ctx t.ctx)
      (fun _ _ => True) d := by
  simp only [readCborInitial, wp_bind, Fw.wp_modifyCtx, Fw.wp_eval, Fw.wp_getCtx, wp_ite,
    Fw.wp_throw, implies_true, and_true]
  rintro ⟨s, n⟩ hs
  have hsize := cborSize_ok hs
  refine ⟨fun h0 => ?_, fun _ => ⟨fun h1 => ?_, fun _ h3 => ?_⟩⟩
  · simp only [wp_displayNumber (show 0 ≤ 234 by decide), Fw.wp_throwIf, implies_true, true_and,
      not_not]
    intro hz
    refine ⟨s, n, hsize, rfl, .inl ⟨.inl h0, hz, hz, ?_⟩⟩
    simp [written, rendered, Terminated, h0]
  · simp only [wp_displayNegative (h := ⟨1, n.toNat⟩) rfl rfl, Fw.wp_throwIf, implies_true,
      true_and, not_not]
    exact fun hz => ⟨s, n, hsize, rfl, .inl ⟨.inr h1, hz, hz, by rw [h1]⟩⟩
  · simp only [Fw.wp_throwIf, implies_true, true_and, not_not, wp_readCborContent, and_true]
    intro hn _
    refine ⟨s, n, hsize, rfl, .inr ⟨h3, hn, rfl, ?_, ?_⟩⟩
    · simp [contentOf]
    · simp [contentOf]

end Read

/-! ## When an item is accepted -/

/-- Every head of an item has its size read. -/
theorem cborSize_total {short : UInt8} {size : Nat} (h : Cbor.argumentSize short = some size)
    (p : Ptr) : ∃ s n, cborSize short p = .ok (s, n) ∧ s.toNat = size := by
  unfold Cbor.argumentSize at h
  unfold cborSize
  split at h
  · rename_i hc; cases h; exact ⟨0, _, if_pos hc, rfl⟩
  · rename_i h0
    rw [if_neg h0]
    split at h
    · rename_i hc; cases h; exact ⟨1, _, if_pos hc, rfl⟩
    · rename_i h1
      rw [if_neg h1]
      split at h
      · rename_i hc; cases h; exact ⟨2, _, if_pos hc, rfl⟩
      · rename_i h2
        rw [if_neg h2]
        split at h
        · rename_i hc; cases h; exact ⟨4, _, if_pos hc, rfl⟩
        · rename_i h4
          rw [if_neg h4]
          split at h
          · rename_i hc; cases h; exact ⟨8, _, if_pos hc, rfl⟩
          · cases h

/-- `readCborInitial` accepts what it reads: an integer that takes up the declared length, or a text
whose length is the rest of it. -/
def Readable (cdata : Ptr) (c : CborContext) : Prop :=
  ∃ s n, cborSize (cdata 0 &&& 0x1F) (cdata.advance 1) = .ok (s, n) ∧
    ((cdata 0 >>> 5 = 0 ∨ cdata 0 >>> 5 = 1) ∧ c.cborLength - 1 - s.toUInt32 = 0 ∨
      cdata 0 >>> 5 = 3 ∧ (c.cborLength - 1 - s.toUInt32).toUInt64 = n)

theorem readCborInitial_total {d : Device CborContext} {cdata : Ptr} {len : UInt8}
    (h : Readable cdata d.ctx) :
    wp (readCborInitial cdata len) (fun _ _ => True) (fun _ _ => False) d := by
  obtain ⟨s, n, hs, hm⟩ := h
  simp only [readCborInitial, wp_bind, Fw.wp_modifyCtx, Fw.wp_eval, hs, Fw.wp_getCtx, wp_ite,
    Except.ok.injEq, reduceCtorEq, false_implies, implies_true, and_true, forall_eq']
  rcases hm with ⟨h0 | h1, hz⟩ | ⟨h3, hn⟩
  · simp [wp_displayNumber (show 0 ≤ 234 by decide), h0, hz]
  · simp [wp_displayNegative (h := ⟨1, n.toNat⟩) rfl rfl, h1, hz]
  · simp [wp_readCborContent, h3, hn]

/-- The first command of a memo is read with success exactly when it is readable. -/
theorem readCborInitial_outcome {d : Device CborContext} (cdata : Ptr) (len : UInt8) :
    wp (readCborInitial cdata len)
      (fun _ t => t.shared = d.shared ∧ ∃ s n, ItemRead cdata len s n d.ctx t.ctx)
      (fun _ _ => ¬ Readable cdata d.ctx) d := by
  by_cases hr : Readable cdata d.ctx
  · exact wp_mono (wp_and (readCborInitial_item cdata len) (readCborInitial_total hr))
      (fun _ _ h => h.1) (fun _ _ h => h.2.elim)
  · exact wp_mono (readCborInitial_item cdata len) (fun _ _ h => h) (fun _ _ _ => hr)

/-- The head of an item that has arrived with the first command. -/
theorem head_arrives {item more : List UInt8} {h : Cbor.Head} {rest : List UInt8} {apdu : Apdu}
    (hitem : item = apdu.data ++ more) (hhead : Cbor.head item = some (h, rest))
    (hlc : 9 ≤ apdu.lc.toNat ∨ more = []) :
    ∃ s n, cborSize (apdu.cdata 0 &&& 0x1F) (apdu.cdata.advance 1) = .ok (s, n) ∧
      h = ⟨apdu.cdata 0 >>> 5, n.toNat⟩ ∧ item.length = 1 + s.toNat + rest.length := by
  have hdata : apdu.data.length = apdu.lc.toNat := Ptr.slice_length _ _
  have hsome : ∃ size, Cbor.argumentSize (apdu.cdata 0 &&& 0x1F) = some size ∧
      1 + size ≤ apdu.lc.toNat := by
    cases hl : apdu.lc.toNat with
    | zero =>
      rcases hlc with hlc | rfl
      · omega
      · rw [hitem, List.append_nil, List.eq_nil_of_length_eq_zero (hdata.trans hl)] at hhead
        cases hhead
    | succ m =>
      have hd : apdu.data = apdu.cdata 0 :: (apdu.cdata.advance 1).slice m := by
        rw [Apdu.data, hl, Ptr.slice_succ]
      rw [hitem, hd, List.cons_append] at hhead
      simp only [Cbor.head] at hhead
      cases hs : Cbor.argumentSize (apdu.cdata 0 &&& 0x1F) with
      | none => rw [hs] at hhead; cases hhead
      | some size =>
        rw [hs] at hhead
        simp only [Option.bind_eq_bind, Option.bind_some] at hhead
        split at hhead
        · cases hhead
        · rename_i hlen
          refine ⟨size, rfl, ?_⟩
          rcases hlc with hlc | rfl
          · have hle := (cborSize_total hs (apdu.cdata.advance 1))
            obtain ⟨s, n, hok, hsize⟩ := hle
            have := (cborSize_ok hok).size_le
            omega
          · rw [List.append_nil, Ptr.slice_length] at hlen
            omega
  obtain ⟨size, hs, hle⟩ := hsome
  obtain ⟨s, n, hok, rfl⟩ := cborSize_total hs (apdu.cdata.advance 1)
  obtain ⟨m, hm⟩ := Nat.exists_eq_add_of_le hle
  have harr := head_of_cborSize m (cborSize_ok hok)
  rw [← hm] at harr
  have heq : (apdu.cdata.slice apdu.lc.toNat) ++ more = item := hitem.symm
  have happ : Cbor.head (apdu.cdata.slice apdu.lc.toNat ++ more) = _ := Cbor.head_append harr
  rw [heq, hhead] at happ
  cases happ
  refine ⟨s, n, hok, rfl, ?_⟩
  rw [hitem, List.length_append, hdata, List.length_append, Ptr.slice_length]
  omega

/-! ## An item in several commands -/

/-- What the first command `f` of an item and the bytes `more` after it leave, with `left` bytes to
come, on a display that held `b`. When `f` is shorter than the head, the counter of the CBOR context
has lost 256 on `left`. -/
inductive Reading (b : Buffer 255) (f more : List UInt8) (left : Nat) (c : CborContext) : Prop where
  | integer {h : Cbor.Head} (head : Cbor.head f = some (h, []))
      (major : h.major = 0 ∨ h.major = 1) (alone : more = []) (complete : left = 0)
      (counter : c.cborLength = 0) (bound : h.argument < 2 ^ 64)
      (display : c.display = b.memmove 0 (written h []))
  | text {h : Cbor.Head} {rest : List UInt8} (head : Cbor.head f = some (h, rest))
      (major : h.major = 3) (stored : c.majorType = 3) (fits : h.argument ≤ 255)
      (length : (rest ++ more).length + left = h.argument) (counter : c.cborLength.toNat = left)
      (used : c.displayUsed.toNat = (rest ++ more).length)
      (display : c.display = b.memmove 0 (rest ++ more))
  | shortText (head : Cbor.head f = none) (stored : c.majorType = 3)
      (counter : c.cborLength = UInt32.ofNat left - 256)
  | shortInteger (head : Cbor.head f = none) (stored : c.majorType = 0 ∨ c.majorType = 1)
      (incomplete : left ≠ 0)

/-- A command that is shorter than the head it begins with. -/
theorem head_short {p : Ptr} {s : UInt8} {n : UInt64} {len : Nat}
    (h : SizeRead (p 0 &&& 0x1F) (p.advance 1) s n) (hlen : len < 1 + s.toNat) :
    Cbor.head (p.slice len) = none := by
  cases len with
  | zero => rfl
  | succ m =>
    rw [Ptr.slice_succ]
    simp only [Cbor.head, h.size, Option.bind_eq_bind, Option.bind_some, Ptr.slice_length]
    rw [if_pos (by omega)]

theorem contentOf_toNat (len s : UInt8) :
    (contentOf len s).toNat = (512 + len.toNat - 1 - s.toNat) % 256 := by
  have h1 : (1 : UInt8).toNat = 1 := rfl
  have hl := len.toNat_lt
  have hs := s.toNat_lt
  simp only [contentOf, UInt8.toNat_sub]
  omega

/-- The first command of an item. -/
theorem reading_first {apdu : Apdu} {s : UInt8} {n : UInt64} {c c' : CborContext} {length : Nat}
    (h : ItemRead apdu.cdata apdu.lc s n c c') (hl : c.cborLength.toNat = length)
    (hle : length ≤ 256) (hlc : apdu.lc.toNat ≤ length) :
    Reading c.display apdu.data [] (length - apdu.lc.toNat) c' := by
  have hsize := h.size.size_le
  have hleft := left_toNat c.cborLength s
  have hcontent := contentOf_toNat apdu.lc s
  by_cases hshort : apdu.lc.toNat < 1 + s.toNat
  · have hhead : Cbor.head apdu.data = none := head_short h.size hshort
    rcases h.content with ⟨hm, hz, -⟩ | ⟨hm, -, hc, -⟩
    · rw [hz, UInt32.toNat_zero] at hleft
      exact .shortInteger hhead hm (by omega)
    · refine .shortText hhead hm ?_
      rw [hc]
      generalize c.cborLength - 1 - s.toUInt32 = left at hleft
      apply UInt32.toNat_inj.mp
      have h256 : (256 : UInt32).toNat = 256 := rfl
      have hlt := apdu.lc.toNat_lt
      rw [UInt32.toNat_sub, UInt32.toNat_sub, UInt8.toNat_toUInt32, hcontent, hleft, h256,
        UInt32.toNat_ofNat']
      omega
  · obtain ⟨m, hm⟩ := Nat.exists_eq_add_of_le (Nat.le_of_not_lt hshort)
    have hhead : Cbor.head apdu.data =
        some (⟨apdu.cdata 0 >>> 5, n.toNat⟩, (apdu.cdata.advance (1 + s.toNat)).slice m) := by
      rw [Apdu.data, hm]
      exact head_of_cborSize m h.size
    rcases h.content with ⟨hmaj, hz, hc, hd⟩ | ⟨hmaj, hn, hc, hu, hd⟩
    · rw [hz, UInt32.toNat_zero] at hleft
      have hm0 : m = 0 := by omega
      subst hm0
      exact .integer hhead (h.major ▸ hmaj) rfl (by omega) hc n.toNat_lt (by rw [hd, h.major])
    · have hnat : n.toNat = (c.cborLength - 1 - s.toUInt32).toNat := by
        rw [← hn, UInt32.toNat_toUInt64]
      have hlt := apdu.lc.toNat_lt
      have hcm : (contentOf apdu.lc s).toNat = m := by omega
      refine .text hhead (h.major ▸ hmaj) hmaj ?_ ?_ ?_ ?_ ?_
      · show n.toNat ≤ 255
        omega
      · rw [List.append_nil, Ptr.slice_length]
        show m + _ = n.toNat
        omega
      · rw [hc, UInt32.toNat_sub, UInt8.toNat_toUInt32]
        omega
      · rw [hu, UInt8.toNat_toUInt32, List.append_nil, Ptr.slice_length, hcm]
      · rw [hd, hcm, List.append_nil]

/-- A command that brings all that is left. -/
theorem Reading.content {b : Buffer 255} {f more : List UInt8} {left : Nat} {c : CborContext}
    {apdu : Apdu} {Q : PUnit → Device CborContext → Prop} {s : Shared} (h : Reading b f more left c)
    (hne : left ≠ 0) (hlc : apdu.lc.toNat = left)
    (hQ : ∀ c', Reading b f (more ++ apdu.data) 0 c' → Q ⟨⟩ ⟨c', s⟩) :
    wp (readCborContent apdu.cdata apdu.lc) Q (fun _ _ => c.majorType ≠ 3) ⟨c, s⟩ := by
  rw [wp_readCborContent]
  refine ⟨fun h3 => hQ _ ?_, fun h01 h3 => ?_, fun h3 _ => h3⟩
  · have hdata : apdu.data.length = left := by rw [Apdu.data, Ptr.slice_length, hlc]
    have hcount : (c.cborLength - apdu.lc.toUInt32).toNat =
        (2 ^ 32 - left + c.cborLength.toNat) % 2 ^ 32 := by
      rw [UInt32.toNat_sub, UInt8.toNat_toUInt32, hlc]
    cases h with
    | integer _ _ _ complete _ _ _ => exact absurd complete hne
    | @text hd rest head major stored fits length counter used display =>
      have hclt := c.cborLength.toNat_lt
      have hulen : (c.displayUsed + apdu.lc.toUInt32).toNat =
          (rest ++ (more ++ apdu.data)).length := by
        rw [UInt32.toNat_add, UInt8.toNat_toUInt32, used, hlc, ← List.append_assoc,
          List.length_append, List.length_append, hdata]
        rw [List.length_append] at length
        rw [List.length_append]
        omega
      refine .text head major stored fits ?_ ?_ hulen ?_
      · rw [← List.append_assoc, List.length_append, hdata]; omega
      · rw [hcount]; omega
      · show c.display.memmove c.displayUsed.toNat apdu.data = _
        rw [used, display, ← List.append_assoc]
        refine Buffer.memmove_memmove _ _ _ ?_
        rw [List.length_append, hdata]
        omega
    | shortText head stored counter =>
      refine .shortText head stored ?_
      apply UInt32.toNat_inj.mp
      rw [hcount, counter, UInt32.toNat_sub, UInt32.toNat_sub, UInt32.toNat_ofNat',
        UInt32.toNat_ofNat']
      have h256 : (256 : UInt32).toNat = 256 := rfl
      have := apdu.lc.toNat_lt
      omega
    | shortInteger head stored incomplete =>
      have h3' : c.majorType = 3 := h3
      rw [h3'] at stored
      rcases stored with h | h <;> cases h
  · have h3' : c.majorType = 3 := h3
    have h01' : c.majorType = 0 ∨ c.majorType = 1 := h01
    rw [h3'] at h01'
    rcases h01' with h | h <;> cases h

/-- An item of which everything has come and whose head was in the first command. -/
structure ItemDisplayed (b : Buffer 255) (item : List UInt8) (c : CborContext) : Prop where
  item : ∃ h rest, Cbor.head item = some (h, rest) ∧ h.Closes rest ∧
    (written h rest).length ≤ 255 ∧ c.display = b.memmove 0 (written h rest)
  complete : c.cborLength = 0

/-- When all bytes have come the item is complete iff its head was in the first command. -/
theorem Reading.complete_iff {b : Buffer 255} {f more : List UInt8} {c : CborContext}
    (h : Reading b f more 0 c) :
    (c.cborLength = 0 ↔ (Cbor.head f).isSome = true) ∧
      (c.cborLength = 0 → ItemDisplayed b (f ++ more) c) := by
  cases h with
  | @integer hd head major alone complete counter bound display =>
    subst alone
    rw [List.append_nil]
    have hlen := written_length major bound
    refine ⟨⟨fun _ => by rw [head]; rfl, fun _ => counter⟩, fun _ => ⟨⟨hd, [], head, ?_⟩, counter⟩⟩
    exact ⟨.inl ⟨major, rfl⟩, by omega, display⟩
  | @text hd rest head major stored fits length counter used display =>
    have hzero : c.cborLength = 0 := UInt32.toNat_inj.mp counter
    have hw : written hd (rest ++ more) = rest ++ more := by
      have hterm : ¬ Terminated hd := by
        rintro (h | ⟨h, -⟩)
        · rw [major] at h; cases h
        · rw [major] at h; cases h
      rw [written, rendered, major, if_neg (by decide), if_neg (by decide), if_neg hterm,
        List.append_nil]
    refine ⟨⟨fun _ => by rw [head]; rfl, fun _ => hzero⟩,
      fun _ => ⟨⟨hd, rest ++ more, Cbor.head_append head, .inr ⟨major, length⟩, ?_, ?_⟩, hzero⟩⟩
    · rw [hw]; omega
    · rw [hw]; exact display
  | shortText head stored counter =>
    have hne : c.cborLength ≠ 0 := by rw [counter]; decide
    refine ⟨⟨fun hz => absurd hz hne, fun hs => ?_⟩, fun hz => absurd hz hne⟩
    rw [head] at hs
    cases hs
  | shortInteger head stored incomplete => exact absurd rfl incomplete

end Memo
end ConcordiumLedger
