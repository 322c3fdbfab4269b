import ConcordiumLedger.Main.CborText

/-!
# Main.Memo

The framing of memos: what the two memo phases have received when they are left.

* `Fits`    — the condition on the first memo command under which the framing holds.
* `Framed`  — the bytes are one item of the declared length.
* `Partial` — what the first command leaves for the second one.
-/

namespace ConcordiumLedger

open CMem CProg CProg.Prog

namespace Memo

/-- The first command of a memo of `length` bytes: an integer takes up the whole memo, and the
first part of a text of the greatest length is not empty. -/
def Fits (length : Nat) (apdu : Apdu) : Prop :=
  if apdu.cdata 0 >>> 5 = 3 then ¬ (apdu.lc = 0 ∧ length = 256) else apdu.lc.toNat = length

instance (length : Nat) (apdu : Apdu) : Decidable (Fits length apdu) :=
  inferInstanceAs (Decidable (ite _ _ _))

structure Framed (length : Nat) (memo : List UInt8) : Prop where
  length_eq : memo.length = length
  item : Cbor.IsItem memo

/-- Either the second command completes the text, or the counter has wrapped around and no
command is long enough to bring it to 0. -/
structure Partial (length : Nat) (memo : List UInt8) (c : CborContext) : Prop where
  major : c.majorType = 3
  rest : c.cborLength.toNat < 256 → ∃ h text, Cbor.head memo = some (h, text) ∧ h.major = 3 ∧
    memo.length + c.cborLength.toNat = length ∧ text.length + c.cborLength.toNat = h.argument

/-! ## Reading an item -/

section Read

variable {d : Device CborContext}

/-- What the first command of an item leaves: it had `s` bytes of size and the argument `n`, and an
integer is complete while of a text the bytes of the command are counted off. -/
def InitialRead (cdata : Ptr) (dataLength : UInt8) (c c' : CborContext) : Prop :=
  ∃ (s : UInt8) (n : UInt64), SizeRead (cdata 0 &&& 0x1F) (cdata.advance 1) s n ∧
    c'.majorType = cdata 0 >>> 5 ∧
    ((c'.majorType = 0 ∨ c'.majorType = 1) ∧ c.cborLength - 1 - s.toUInt32 = 0 ∧
        c'.cborLength = 0 ∨
      c'.majorType = 3 ∧ (c.cborLength - 1 - s.toUInt32).toUInt64 = n ∧
        c'.cborLength = c.cborLength - 1 - s.toUInt32 - (dataLength - 1 - s).toUInt32)

theorem readCborContent_spec {Q : PUnit → Device CborContext → Prop} (cdata : Ptr) (len : UInt8)
    (h : ∀ c, d.ctx.majorType = 3 → c.majorType = 3 →
      c.cborLength = d.ctx.cborLength - len.toUInt32 → Q ⟨⟩ ⟨c, d.shared⟩) :
    wp (readCborContent cdata len) Q (fun _ _ => True) d := by
  simp only [readCborContent, wp_bind, Fw.wp_modifyCtx, Fw.wp_getCtx, wp_ite, Fw.wp_throw,
    implies_true, and_true]
  exact fun h3 => h _ h3 h3 rfl

theorem readCborInitial_spec (cdata : Ptr) (dataLength : UInt8) :
    wp (readCborInitial cdata dataLength)
      (fun _ t => t.shared = d.shared ∧ InitialRead cdata dataLength d.ctx t.ctx)
      (fun _ _ => True) d := by
  refine wp_mono (readCborInitial_item _ _) ?_ (fun _ _ _ => trivial)
  rintro _ t ⟨hsh, s, n, hread⟩
  refine ⟨hsh, s, n, hread.size, hread.major, hread.content.imp ?_ ?_⟩
  · rintro ⟨hm, hleft, hz, -⟩
    exact ⟨hm, hleft, hz⟩
  · rintro ⟨hm, hn, hc, -⟩
    exact ⟨hm, hn, hc⟩

end Read

/-! ## The two commands -/

/-- An integer takes up the declared length. -/
theorem integer_framed {apdu : Apdu} {length : Nat} {c : UInt32} {s : UInt8} {n : UInt64}
    (hs : SizeRead (apdu.cdata 0 &&& 0x1F) (apdu.cdata.advance 1) s n)
    (hm : apdu.cdata 0 >>> 5 = 0 ∨ apdu.cdata 0 >>> 5 = 1) (hl : c.toNat = length)
    (hle : length ≤ 256) (hz : c - 1 - s.toUInt32 = 0) (hlc : apdu.lc.toNat = length) :
    Framed length apdu.data := by
  have hleft := left_toNat c s
  rw [hz, UInt32.toNat_zero] at hleft
  have hsize := hs.size_le
  have hlen : apdu.lc.toNat = 1 + s.toNat + 0 := by omega
  have hhead := head_of_cborSize 0 hs
  rw [← hlen] at hhead
  exact ⟨by rw [Apdu.data, Ptr.slice_length, hlc], _, _, hhead, .inl ⟨hm, Ptr.slice_zero _⟩⟩

/-- As far as a second command can complete it, the first one holds the start of a text. -/
theorem text_partial {apdu : Apdu} {length : Nat} {c : UInt32} {s : UInt8} {n : UInt64}
    (hs : SizeRead (apdu.cdata 0 &&& 0x1F) (apdu.cdata.advance 1) s n)
    (hl : c.toNat = length) (hle : length ≤ 256) (hn : (c - 1 - s.toUInt32).toUInt64 = n)
    (hfits : ¬ (apdu.lc = 0 ∧ length = 256))
    (hsmall : (c - 1 - s.toUInt32 - (apdu.lc - 1 - s).toUInt32).toNat < 256) :
    ∃ text, Cbor.head apdu.data = some (⟨apdu.cdata 0 >>> 5, n.toNat⟩, text) ∧
      apdu.data.length + (c - 1 - s.toUInt32 - (apdu.lc - 1 - s).toUInt32).toNat = length ∧
      text.length + (c - 1 - s.toUInt32 - (apdu.lc - 1 - s).toUInt32).toNat = n.toNat := by
  have hleft := left_toNat c s
  have hsize := hs.size_le
  have hnat : n.toNat = (c - 1 - s.toUInt32).toNat := by rw [← hn, UInt32.toNat_toUInt64]
  have hlc : apdu.lc.toNat < 256 := apdu.lc.toNat_lt
  have h0 : apdu.lc.toNat = 0 → length ≠ 256 := fun h hl => hfits ⟨UInt8.toNat_inj.mp h, hl⟩
  have hcontent : (apdu.lc - 1 - s).toNat = (512 + apdu.lc.toNat - 1 - s.toNat) % 256 := by
    have h1 : (1 : UInt8).toNat = 1 := rfl
    simp only [UInt8.toNat_sub]
    omega
  rw [UInt32.toNat_sub, UInt8.toNat_toUInt32] at hsmall ⊢
  have hge : 1 + s.toNat ≤ apdu.lc.toNat := by omega
  obtain ⟨m, hm⟩ := Nat.exists_eq_add_of_le hge
  refine ⟨_, by rw [Apdu.data, hm]; exact head_of_cborSize m hs, ?_, ?_⟩
  · rw [Apdu.data, Ptr.slice_length]; omega
  · rw [Ptr.slice_length]; omega

/-- The first command either completes the memo or leaves a part of it. -/
theorem InitialRead.framed {apdu : Apdu} {c c' : CborContext} {length : Nat}
    (h : InitialRead apdu.cdata apdu.lc c c') (hl : c.cborLength.toNat = length)
    (hle : length ≤ 256) (hfits : Fits length apdu) :
    (c'.cborLength = 0 → Framed length apdu.data) ∧
      (c'.cborLength ≠ 0 → Partial length apdu.data c') := by
  obtain ⟨s, n, hs, hmajor, ⟨hm, hleft, hz⟩ | ⟨hm, hn, hc⟩⟩ := h
  · have hne : apdu.cdata 0 >>> 5 ≠ 3 := by rw [← hmajor]; rintro h; simp [h] at hm
    rw [Fits, if_neg hne] at hfits
    exact ⟨fun _ => integer_framed hs (hmajor ▸ hm) hl hle hleft hfits, fun hne => absurd hz hne⟩
  · rw [Fits, if_pos (hmajor ▸ hm)] at hfits
    refine ⟨fun hz => ?_, fun _ => ⟨hm, fun hsmall => ?_⟩⟩
    · rw [hc] at hz
      obtain ⟨text, hhead, hlen, htext⟩ :=
        text_partial hs hl hle hn hfits (by rw [hz]; decide)
      rw [hz, UInt32.toNat_zero, Nat.add_zero] at hlen htext
      exact ⟨hlen, _, _, hhead, .inr ⟨hmajor ▸ hm, htext⟩⟩
    · rw [hc] at hsmall ⊢
      obtain ⟨text, hhead, hlen, htext⟩ := text_partial hs hl hle hn hfits hsmall
      exact ⟨_, _, hhead, hmajor ▸ hm, hlen, htext⟩

/-- A second command that brings the counter to 0 completes the memo. -/
theorem Partial.framed {length : Nat} {memo : List UInt8} {c : CborContext} (h : Partial length memo c)
    {apdu : Apdu} (hz : c.cborLength - apdu.lc.toUInt32 = 0) : Framed length (memo ++ apdu.data) := by
  have hc : c.cborLength.toNat = apdu.lc.toNat := by
    have hnat := congrArg UInt32.toNat hz
    have hlt := c.cborLength.toNat_lt
    have hlc := apdu.lc.toNat_lt
    rw [UInt32.toNat_sub, UInt8.toNat_toUInt32, UInt32.toNat_zero] at hnat
    omega
  obtain ⟨hd, text, hhead, hm, hlen, htext⟩ := h.rest (by rw [hc]; exact apdu.lc.toNat_lt)
  rw [hc] at hlen htext
  refine ⟨?_, hd, text ++ apdu.data, Cbor.head_append hhead, .inr ⟨hm, ?_⟩⟩
  · rw [List.length_append, Apdu.data, Ptr.slice_length]; exact hlen
  · rw [List.length_append, Apdu.data, Ptr.slice_length]; exact htext

section Phases

variable {γ : Type} {Q : PUnit → Device (WithDataBlob γ) → Prop} {t : Device (WithDataBlob γ)}
  {finish more : Fw (WithDataBlob γ) PUnit} {apdu : Apdu} {length : Nat}

/-- The first command of a memo. -/
theorem wp_memoInitial (hl : t.ctx.cborContext.cborLength.toNat = length) (hle : length ≤ 256)
    (hfits : Fits length apdu)
    (hfinish : ∀ c, Framed length apdu.data →
      wp finish Q (fun _ _ => True) ⟨⟨t.ctx.inner, c⟩, t.shared.updateHash apdu.data⟩)
    (hmore : ∀ c, Partial length apdu.data c →
      wp more Q (fun _ _ => True) ⟨⟨t.ctx.inner, c⟩, t.shared.updateHash apdu.data⟩) :
    wp (memoInitial apdu.cdata apdu.lc finish more) Q (fun _ _ => True) t := by
  simp only [memoInitial, Fw.onCbor, wp_bind, wp_updateHash, wp_zoom, Fw.wp_getCtx, wp_ite]
  refine wp_mono (readCborInitial_spec _ _) ?_ (fun _ _ _ => trivial)
  rintro _ ⟨c, s⟩ ⟨rfl, hread⟩
  obtain ⟨hf, hp⟩ := hread.framed hl hle hfits
  exact ⟨fun hz => hfinish c (hf hz), fun hne => hmore c (hp hne)⟩

/-- The second command of a memo. -/
theorem wp_memoContent {memo : List UInt8} (h : Partial length memo t.ctx.cborContext)
    (hfinish : ∀ c, Framed length (memo ++ apdu.data) →
      wp finish Q (fun _ _ => True) ⟨⟨t.ctx.inner, c⟩, t.shared.updateHash apdu.data⟩) :
    wp (memoContent apdu.cdata apdu.lc finish) Q (fun _ _ => True) t := by
  simp only [memoContent, Fw.onCbor, wp_bind, wp_updateHash, wp_zoom, Fw.wp_getCtx,
    Fw.wp_throwIf, implies_true, true_and, not_not]
  refine readCborContent_spec _ _ fun c _ _ hc hz => ?_
  exact hfinish c (h.framed (hc ▸ hz))

end Phases

end Memo
end ConcordiumLedger
