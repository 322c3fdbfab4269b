import ConcordiumLedger.Common.Presses
import ConcordiumLedger.Main.Memo

/-!
# Main.MemoSession

A session of an instruction with a memo, as far as the memo goes.

* `Declared`  — what the initial command has hashed, with the length of the memo that follows.
* `Framing`   — how the hash and the CBOR context stand in each phase of the session.
* `Inv`       — the invariant of a session: `Framing`, and own screens with known callbacks.
-/

namespace ConcordiumLedger

open CMem CProg CProg.Prog

namespace Memo

/-- The bytes that a command with this `p1` has brought. -/
def memoOf (p1 : UInt8) : Action → List UInt8
  | .handler _ p _ data => if p = p1 then data else []
  | _ => []

/-- The bytes of the memo commands of the session. -/
def memoSent (p1 : UInt8) (s : Shared) : List UInt8 := (sessionLog s.log).flatMap (memoOf p1)

/-- The phases of a session: the memo has not begun, it has begun, it has been received. -/
inductive Phase where
  | start
  | more
  | done
deriving DecidableEq

structure Declared where
  initial : List UInt8
  length : Nat
  p1Memo : UInt8

/-- The recipient comes after the header, and the length of the memo at `lengthAt`. -/
def declared (kind p1Memo : UInt8) (lengthAt : Nat) (first : Apdu) : Declared where
  initial := headerOf first.cdata ++ [kind] ++ (payloadOf first.cdata).slice 32 ++
    ((payloadOf first.cdata).advance lengthAt).slice 2
  length := ((payloadOf first.cdata).u2be lengthAt).toNat
  p1Memo := p1Memo

/-- The memo is one item of the declared length, hashed between the initial fields and `rest`. -/
structure Hashed (m : Declared) (rest : List UInt8) (s : Shared) : Prop where
  framed : Framed m.length (memoSent m.p1Memo s)
  hash : s.hash = m.initial ++ memoSent m.p1Memo s ++ rest

def Framing (m : Declared) (c : CborContext) (s : Shared) : Phase → Prop
  | .start => s.hash = m.initial ∧ memoSent m.p1Memo s = [] ∧ c.cborLength.toNat = m.length
  | .more => s.hash = m.initial ++ memoSent m.p1Memo s ∧
      Partial m.length (memoSent m.p1Memo s) c
  | .done => ∃ rest, Hashed m rest s

variable {m : Declared} {γ : Type}

theorem memoSent_quiet {p1 : UInt8} {s s' : Shared} {as : List Action}
    (hl : s'.log = s.log ++ as) (hq : ∀ a ∈ as, a.quiet = true) :
    memoSent p1 s' = memoSent p1 s := by
  have hnone : as.flatMap (memoOf p1) = [] := by
    rw [List.flatMap_eq_nil_iff]
    intro a ha
    have ha := hq a ha
    cases a with
    | handler ins p _ data => cases ha
    | _ => rfl
  rw [memoSent, hl, sessionLog_append_quiet hq, List.flatMap_append, hnone, List.append_nil, memoSent]

theorem Framing.of_eq {c : CborContext} {s s' : Shared} {ph : Phase} (h : Framing m c s ph)
    (hh : s'.hash = s.hash) (hs : memoSent m.p1Memo s' = memoSent m.p1Memo s) :
    Framing m c s' ph := by
  cases ph with
  | start => simp only [Framing] at h ⊢; rwa [hh, hs]
  | more => simp only [Framing] at h ⊢; rwa [hh, hs]
  | done =>
    obtain ⟨rest, hd⟩ := h
    exact ⟨rest, hs ▸ hd.framed, by rw [hh, hs]; exact hd.hash⟩

/-- What is hashed after the memo does not change it. -/
theorem Hashed.append {s s' : Shared} {rest bytes : List UInt8} (h : Hashed m rest s)
    (hh : s'.hash = s.hash ++ bytes) (hs : memoSent m.p1Memo s' = memoSent m.p1Memo s) :
    Hashed m (rest ++ bytes) s' where
  framed := hs ▸ h.framed
  hash := by rw [hh, hs, h.hash, List.append_assoc]

/-! ## Commands -/

theorem memoSent_entered (p1 : UInt8) (t : Device γ) (apdu : Apdu) :
    memoSent p1 (entered t apdu).shared =
      memoSent p1 t.shared ++ if apdu.p1 = p1 then apdu.data else [] := by
  simp [memoSent, entered, sessionStep, memoOf]

theorem memoSent_updateHash (p1 : UInt8) (s : Shared) (bytes : List UInt8) :
    memoSent p1 (s.updateHash bytes) = memoSent p1 s := by
  simp [memoSent, sessionStep, memoOf]

theorem memoSent_reply (p1 : UInt8) (s : Shared) (data : List UInt8) (sw : UInt16) :
    memoSent p1 (s.reply data sw) = memoSent p1 s := by
  simp [memoSent, sessionStep, memoOf]

theorem memoSent_uxFlowInit (p1 : UInt8) (s : Shared) (flow : List Step) :
    memoSent p1 (s.uxFlowInit flow) = memoSent p1 s := by
  simp [memoSent, sessionStep, memoOf]

section Commands

variable {Q : PUnit → Device (WithDataBlob γ) → Prop} {t : Device (WithDataBlob γ)}
  {finish more : Fw (WithDataBlob γ) PUnit} {apdu : Apdu}

/-- The first memo command of a session. -/
theorem wp_start (h : Framing m t.ctx.cborContext t.shared .start) (hle : m.length ≤ 256)
    (hp : apdu.p1 = m.p1Memo) (hfits : Fits m.length apdu)
    (hfinish : ∀ c, Hashed m [] ((entered t apdu).shared.updateHash apdu.data) →
      wp finish Q (fun _ _ => True)
        ⟨⟨t.ctx.inner, c⟩, (entered t apdu).shared.updateHash apdu.data⟩)
    (hmore : ∀ c, Framing m c ((entered t apdu).shared.updateHash apdu.data) .more →
      wp more Q (fun _ _ => True)
        ⟨⟨t.ctx.inner, c⟩, (entered t apdu).shared.updateHash apdu.data⟩) :
    wp (memoInitial apdu.cdata apdu.lc finish more) Q (fun _ _ => True) (entered t apdu) := by
  obtain ⟨hh, hnone, hlen⟩ := h
  have hsent : memoSent m.p1Memo ((entered t apdu).shared.updateHash apdu.data) = apdu.data := by
    rw [memoSent_updateHash, memoSent_entered, hnone, if_pos hp, List.nil_append]
  have hhash : ((entered t apdu).shared.updateHash apdu.data).hash = m.initial ++ apdu.data := by
    rw [Shared.updateHash_hash, ← hh]; rfl
  refine wp_memoInitial (t := entered t apdu) hlen hle hfits (fun c hf => hfinish c ?_)
    (fun c hp => hmore c ?_)
  · exact ⟨by rwa [hsent], by rw [hsent, hhash, List.append_nil]⟩
  · exact ⟨by rw [hsent, hhash], by rwa [hsent]⟩

/-- A command after the memo. -/
theorem Hashed.command {t : Device γ} {apdu : Apdu} {rest bytes : List UInt8}
    (h : Hashed m rest t.shared) (hp : apdu.p1 ≠ m.p1Memo) :
    Hashed m (rest ++ bytes) ((entered t apdu).shared.updateHash bytes) := by
  refine h.append rfl ?_
  rw [memoSent_updateHash, memoSent_entered, if_neg hp, List.append_nil]

/-- The second memo command of a session. -/
theorem wp_more (h : Framing m t.ctx.cborContext t.shared .more) (hp : apdu.p1 = m.p1Memo)
    (hfinish : ∀ c, Hashed m [] ((entered t apdu).shared.updateHash apdu.data) →
      wp finish Q (fun _ _ => True)
        ⟨⟨t.ctx.inner, c⟩, (entered t apdu).shared.updateHash apdu.data⟩) :
    wp (memoContent apdu.cdata apdu.lc finish) Q (fun _ _ => True) (entered t apdu) := by
  obtain ⟨hh, hpart⟩ := h
  have hsent : memoSent m.p1Memo ((entered t apdu).shared.updateHash apdu.data) =
      memoSent m.p1Memo t.shared ++ apdu.data := by
    rw [memoSent_updateHash, memoSent_entered, if_pos hp]
  have hhash : ((entered t apdu).shared.updateHash apdu.data).hash =
      m.initial ++ memoSent m.p1Memo t.shared ++ apdu.data := by
    rw [Shared.updateHash_hash, ← hh]; rfl
  refine wp_memoContent (t := entered t apdu) hpart fun c hf => hfinish c ?_
  exact ⟨by rwa [hsent], by rw [hsent, hhash, List.append_nil, List.append_assoc]⟩

/-- The end of the initial command. -/
theorem wp_memoLength {cdata : Ptr}
    (h : ∀ c : CborContext, c.cborLength.toNat = (cdata.u2be 0).toNat →
      (cdata.u2be 0).toNat ≤ 256 →
      Q ⟨⟩ ⟨⟨t.ctx.inner, c⟩, t.shared.updateHash (cdata.slice 2)⟩) :
    wp (memoLength cdata) Q (fun _ _ => True) t := by
  simp only [memoLength, Fw.onCbor, wp_bind, wp_zoom, Fw.wp_modifyCtx, Fw.wp_throwIf,
    wp_updateHash, implies_true, true_and]
  intro hle
  refine h _ (by simp) ?_
  have := UInt32.le_iff_toNat_le.mp (UInt32.not_lt.mp hle)
  simpa [maxMemoSize] using this

end Commands

/-! ## Sessions -/

/-- The condition on the events of a session: the first memo command fits the declared length, and
a screen that is left from an earlier session is only used for its shared steps. -/
def Condition (m : Declared) (phase : γ → Option Phase) (t : Device (WithDataBlob γ)) :
    Event → Prop
  | .command apdu => phase t.ctx.inner = some .start → apdu.p1 = m.p1Memo → Fits m.length apdu
  | ev => OwnScreens t ev

structure Inv (m : Declared) (ins : UInt8) (phase : γ → Option Phase) (own : Callback → Prop)
    (t : Device (WithDataBlob γ)) : Prop where
  length_le : m.length ≤ 256
  framing : ∃ ph, phase t.ctx.inner = some ph ∧ Framing m t.ctx.cborContext t.shared ph
  instruction : ∀ i, t.shared.currentInstruction = some i → i = ins
  screen : screens t.shared ≠ [] → ∀ st ∈ t.shared.display, own st.callback

variable {ins : UInt8} {phase : γ → Option Phase} {own : Callback → Prop}
  {t t' : Device (WithDataBlob γ)}

/-- The invariant after the initial command. -/
theorem Inv.initial {t₀ : Device (WithDataBlob γ)} {first : Apdu} {kind p1Memo : UInt8}
    {lengthAt : Nat} {s : Shared} {inner : γ} {c : CborContext}
    (hs : HeaderHashed first.cdata kind (opened t₀ first).shared s) (hp : first.p1 ≠ p1Memo)
    (hc : c.cborLength.toNat = ((payloadOf first.cdata).u2be lengthAt).toNat)
    (hle : ((payloadOf first.cdata).u2be lengthAt).toNat ≤ 256) (hph : phase inner = some .start) :
    Inv (declared kind p1Memo lengthAt first) first.ins phase own
      ⟨⟨inner, c⟩, ((s.updateHash ((payloadOf first.cdata).slice 32)).updateHash
        (((payloadOf first.cdata).advance lengthAt).slice 2)).reply [] success⟩ where
  length_le := hle
  framing := by
    refine ⟨.start, hph, ?_, ?_, hc⟩
    · simp [hs.hash, declared]
    · simp [memoSent, memoOf, declared, hs.log, opened, sessionStep, hp]
  instruction := by
    intro i hi
    have hins : s.currentInstruction = some i := hi
    rw [hs.instruction] at hins
    cases hins
    rfl
  screen := by
    intro hf
    simp [screens, hs.log, opened, sessionStep, flows] at hf

/-- A command that replies under the same screen. -/
theorem Inv.replied {apdu : Apdu} {bytes : List UInt8} {inner : γ} {c : CborContext} {ph : Phase}
    (h : Inv m ins phase own t) (hph : phase inner = some ph)
    (hfr : Framing m c ((entered t apdu).shared.updateHash bytes) ph) :
    Inv m ins phase own
      ⟨⟨inner, c⟩, ((entered t apdu).shared.updateHash bytes).reply [] success⟩ where
  length_le := h.length_le
  framing := ⟨ph, hph, hfr.of_eq rfl (memoSent_reply _ _ _ _)⟩
  instruction := h.instruction
  screen := by
    intro hf
    refine h.screen ?_
    simpa using hf

/-- A command after the memo that puts up a screen. -/
theorem Inv.shown {apdu : Apdu} {rest bytes : List UInt8} {inner : γ} {c : CborContext}
    {flow : List Step} (h : Inv m ins phase own t) (hph : phase inner = some .done)
    (hh : Hashed m rest ((entered t apdu).shared.updateHash bytes))
    (hown : ∀ st ∈ flow, own st.callback) :
    Inv m ins phase own ⟨⟨inner, c⟩,
      { ((entered t apdu).shared.updateHash bytes).uxFlowInit flow with asynchReply := true }⟩ where
  length_le := h.length_le
  framing := by
    have hfr : Framing m c _ .done := ⟨rest, hh⟩
    exact ⟨.done, hph, hfr.of_eq rfl (memoSent_uxFlowInit _ _ _)⟩
  instruction := h.instruction
  screen := fun _ => hown

/-- Anything that only hashes more after the memo. -/
theorem Inv.extended {bytes : List UInt8} (h : Inv m ins phase own t)
    (hph : phase t.ctx.inner = some .done) (hph' : phase t'.ctx.inner = some .done)
    (hh : t'.shared.hash = t.shared.hash ++ bytes)
    (hs : memoSent m.p1Memo t'.shared = memoSent m.p1Memo t.shared)
    (hi : ∀ i, t'.shared.currentInstruction = some i → t.shared.currentInstruction = some i)
    (hd : (screens t'.shared = screens t.shared ∧
      t'.shared.display = t.shared.display) ∨ ∀ st ∈ t'.shared.display, own st.callback) :
    Inv m ins phase own t' where
  length_le := h.length_le
  framing := by
    obtain ⟨ph, hp, hfr⟩ := h.framing
    rw [hph] at hp
    cases hp
    obtain ⟨rest, hr⟩ := hfr
    exact ⟨.done, hph', _, hr.append hh hs⟩
  instruction := fun i h' => h.instruction i (hi i h')
  screen := by
    rcases hd with ⟨hf, hd⟩ | hd
    · rw [hf, hd]; exact h.screen
    · exact fun _ => hd

theorem Inv.pressed (h : Inv m ins phase own t) {i : Nat}
    (hshared : ∀ cb, cb.isShared = true → own cb)
    (hc : Condition m phase t (.press i)) : own (t.shared.pressed i) :=
  OwnScreens.own hc hshared h.screen

theorem Inv.passed (h : Inv m ins phase own t) (hshared : ∀ cb, cb.isShared = true → own cb)
    (hp : Passed t t') : Inv m ins phase own t' where
  length_le := h.length_le
  framing := by
    obtain ⟨ph, hph, hfr⟩ := h.framing
    obtain ⟨as, hl, hq⟩ := hp.log
    rw [hp.ctx]
    exact ⟨ph, hph, hfr.of_eq hp.hash (memoSent_quiet hl hq)⟩
  instruction := fun i hi => h.instruction i (hp.instruction i hi)
  screen := hp.own_screen hshared h.screen

end Memo
end ConcordiumLedger
