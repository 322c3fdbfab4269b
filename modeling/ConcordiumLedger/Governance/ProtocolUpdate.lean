import ConcordiumLedger.Common.PaginatedHex
import ConcordiumLedger.Common.Presses
import ConcordiumLedger.Governance.Rules

/-!
# Governance.ProtocolUpdate

A protocol update is signed as it is shown, in every session that sends each text in one command.

* `Payload`       — what the commands carry, and how it is hashed.
* `SignedAsShown` — what holds when a Sign step is displayed.
* `InOneCommand`  — the condition on the events: the handler never compares what is left of a text
  with what has come of it.
* `Phase`         — what a session has received, hashed, counted and shown.
-/

namespace ConcordiumLedger

open CMem CProg CProg.Prog Transition

namespace SignUpdateProtocol

/-! ## What the property says -/

/-- The payload of a protocol update. -/
structure Payload where
  message : List UInt8
  specificationUrl : List UInt8
  specificationHash : List UInt8
  auxiliaryData : List UInt8

/-- A text with its length before it. -/
def textBytes (text : List UInt8) : List UInt8 := beBytes 8 text.length ++ text

def Payload.bytes (p : Payload) : List UInt8 :=
  textBytes p.message ++ textBytes p.specificationUrl ++ p.specificationHash ++ p.auxiliaryData

/-- The payload length that the first command declares. -/
def payloadLengthOf (first : Apdu) : UInt64 := (updatePayload first.cdata).u8be 0

/-- What is hashed of the first command. -/
def initialBytes (first : Apdu) : List UInt8 :=
  updateHeaderOf first.cdata ++ beBytes 8 (payloadLengthOf first).toNat

def messageScreen (text : List UInt8) : String × Option (List UInt8) := ("Message", some text)

def urlScreen (text : List UInt8) : String × Option (List UInt8) := ("Spec. URL", some text)

def hashScreen (bytes : List UInt8) : String × Option (List UInt8) :=
  ("Spec. hash", some (paginate (hexText bytes)))

/-- The steps that show a part of the payload. -/
def ofPayload (st : String × Option (List UInt8)) : Bool :=
  st.1 ∈ ["Message", "Spec. URL", "Spec. hash"]

/-- What the session has shown of the payload, in order. -/
def shownTexts (s : Shared) : List (String × Option (List UInt8)) :=
  (shownSteps s).filter ofPayload

/-- The hash input is one complete update with the declared lengths, its message and its URL are
what the pages of their screens show together, and the hash on the screen is the one that is
hashed. -/
structure SignedAsShown (first : Apdu) (p : Payload) (s : Shared) : Prop where
  hash : s.hash = initialBytes first ++ p.bytes
  length : (payloadLengthOf first).toNat = p.bytes.length
  hash_length : p.specificationHash.length = 32
  shown : ∃ messages urls : List (List UInt8),
    shownTexts s = messages.map messageScreen ++ urls.map urlScreen ++
      [hashScreen p.specificationHash] ∧
    messages.flatten = p.message ∧ urls.flatten = p.specificationUrl

/-- What a command takes of the payload. -/
def taken (c : Apdu) : UInt64 :=
  if c.p1 = p1TextLength then 8 else if c.p1 = p1SpecificationHash then 32 else c.lc.toUInt64

/-- A text comes in one command, is shorter than its array and has no NUL in it, and no command is
longer than what is left of the payload. A screen of an earlier session is only used for its shared
steps. -/
def InOneCommand (t : Device Context) : Event → Prop
  | .command c => (c.p1 = p1Text →
      c.lc.toUInt64 = t.ctx.textLength ∧ c.lc < 255 ∧ 0 ∉ c.data) ∧ taken c ≤ t.ctx.payloadLength
  | .press i => OwnScreens t (.press i)
  | .noApdu => True

instance (t : Device Context) (ev : Event) : Decidable (InOneCommand t ev) :=
  match ev with
  | .command _ => inferInstanceAs (Decidable (_ ∧ _))
  | .press i => inferInstanceAs (Decidable (OwnScreens t (.press i)))
  | .noApdu => inferInstanceAs (Decidable True)

/-! ## Sessions -/

/-- The application as this instruction sees it. -/
def protocolApp (sdk : Sdk) : App Context where
  handler := fun apdu b => handleSignUpdateProtocol apdu.cdata apdu.p1 apdu.lc b
  callback := sharedCallback sdk fun
    | .handleText => handleText
    | .switchToLoading => switchToLoading
    | _ => Pure.pure ⟨⟩

def Own (cb : Callback) : Prop := cb.isShared = true ∨ cb = .handleText ∨ cb = .switchToLoading

/-- The bytes of the payload that were received are hashed and counted, and what was shown of
them. -/
structure Received (first : Apdu) (bytes : List UInt8)
    (texts : List (String × Option (List UInt8))) (t : Device Context) : Prop where
  hash : t.shared.hash = initialBytes first ++ bytes
  left : t.ctx.payloadLength.toNat + bytes.length = (payloadLengthOf first).toNat
  shown : shownTexts t.shared = texts

/-- Where the session is. The screen of a text stays up until the next one, and each press of it
may count `textState` up. -/
inductive Phase (first : Apdu) (t : Device Context) : Prop
  | messageLength (received : Received first [] [] t) (state : t.ctx.state = .textLength)
      (text : t.ctx.textState = .message) (fresh : screens t.shared = [])
  | message (received : Received first (beBytes 8 t.ctx.textLength.toNat) [] t)
      (state : t.ctx.state = .text) (text : t.ctx.textState = .message)
      (fresh : screens t.shared = [])
  | urlLength (msg : List UInt8)
      (received : Received first (textBytes msg) [messageScreen msg] t)
      (state : t.ctx.state = .textLength) (all : t.ctx.textLength = 0)
      (text : t.ctx.textState = .message → t.shared.replyOwed = true)
      (display : Only [.none, .handleText] t.shared.display)
  | url (msg : List UInt8)
      (received : Received first (textBytes msg ++ beBytes 8 t.ctx.textLength.toNat)
        [messageScreen msg] t)
      (state : t.ctx.state = .text) (text : t.ctx.textState ≠ .message)
      (display : Only [.none, .handleText] t.shared.display)
  | hash (msg url : List UInt8)
      (received : Received first (textBytes msg ++ textBytes url)
        [messageScreen msg, urlScreen url] t)
      (state : t.ctx.state = .specificationHash)
      (display : Only [.none, .handleText] t.shared.display)
  | auxiliary (p : Payload) (hash_length : p.specificationHash.length = 32)
      (received : Received first p.bytes [messageScreen p.message, urlScreen p.specificationUrl,
        hashScreen p.specificationHash] t)
      (state : t.ctx.state = .auxiliaryData)
      (display : Only [.none, .switchToLoading] t.shared.display)
  | signing (signing : Signing t)

/-- The invariant of a session. -/
structure Inv (first : Apdu) (t : Device Context) : Prop where
  instruction : ∀ i, t.shared.currentInstruction = some i → i = insUpdateProtocol
  own : screens t.shared ≠ [] → ∀ st ∈ t.shared.display, Own st.callback
  active : t.shared.running = true → t.shared.currentInstruction ≠ none → Phase first t
  signed : offersSign t.shared.display = true → ∃ p, SignedAsShown first p t.shared

section Session

variable {sdk : Sdk} {first : Apdu} {t t' : Device Context} {bytes : List UInt8}
  {texts : List (String × Option (List UInt8))}

theorem shownTexts_congr {s s' : Shared} (h : screens s' = screens s) :
    shownTexts s' = shownTexts s := by
  rw [shownTexts, shownSteps_congr h, shownTexts]

theorem shownTexts_uxFlowInit (s : Shared) (flow : List Step) :
    shownTexts (s.uxFlowInit flow) =
      shownTexts s ++ (flow.map fun st => (st.title, st.shown)).filter ofPayload := by
  rw [shownTexts, shownSteps_uxFlowInit, List.filter_append, shownTexts]

theorem own_of_only {flow : List Step} (h : Only [.none, .handleText, .switchToLoading] flow) :
    ∀ st ∈ flow, Own st.callback := by
  intro st hst
  have hcb := h st hst
  simp only [List.mem_cons, List.not_mem_nil, or_false] at hcb
  rcases hcb with hcb | hcb | hcb <;> rw [hcb]
  · exact .inl rfl
  · exact .inr (.inl rfl)
  · exact .inr (.inr rfl)

/-- A phase under a screen of the session in which no Sign step is displayed. -/
theorem Inv.of_screen (hi : t.shared.currentInstruction = some insUpdateProtocol)
    (hp : Phase first t) (hd : Only [.none, .handleText, .switchToLoading] t.shared.display) :
    Inv first t where
  instruction := fun _ hi' => (Option.some.inj (hi.symm.trans hi')).symm
  own := fun _ => own_of_only hd
  active := fun _ _ => hp
  signed := by
    intro hs
    rw [hd.not_offersSign (by decide)] at hs
    cases hs

/-- A phase before the first screen of the session. -/
theorem Inv.of_fresh (hi : t.shared.currentInstruction = some insUpdateProtocol)
    (hp : Phase first t) (hf : screens t.shared = [])
    (hs : offersSign t.shared.display = false) : Inv first t where
  instruction := fun _ hi' => (Option.some.inj (hi.symm.trans hi')).symm
  own := fun h => absurd hf h
  active := fun _ _ => hp
  signed := by
    intro hs'
    rw [hs] at hs'
    cases hs'

/-- Bytes that are hashed and taken off the counter. -/
theorem Received.add {more : List UInt8} {n : UInt64}
    {texts' : List (String × Option (List UInt8))} (h : Received first bytes texts t)
    (hn : n ≤ t.ctx.payloadLength) (hlen : more.length = n.toNat)
    (hhash : t'.shared.hash = t.shared.hash ++ more)
    (hleft : t'.ctx.payloadLength = t.ctx.payloadLength - n)
    (hshown : shownTexts t'.shared = texts') : Received first (bytes ++ more) texts' t' where
  hash := by rw [hhash, h.hash, List.append_assoc]
  left := by
    have hle := UInt64.le_iff_toNat_le.mp hn
    have hl := h.left
    rw [hleft, UInt64.toNat_sub_of_le _ _ hn, List.length_append, hlen]
    omega
  shown := hshown

theorem Received.congr (h : Received first bytes texts t) (hhash : t'.shared.hash = t.shared.hash)
    (hleft : t'.ctx.payloadLength = t.ctx.payloadLength)
    (hscr : screens t'.shared = screens t.shared) : Received first bytes texts t' :=
  ⟨hhash.trans h.hash, by rw [hleft]; exact h.left, (shownTexts_congr hscr).trans h.shown⟩

/-! ### Commands -/

theorem handleInitial_inv {a : Apdu} (ha : a.ins = insUpdateProtocol)
    (hd : offersSign t.shared.display = false) :
    wp ((protocolApp sdk).handler a true) (fun _ t' => Inv a t') (fun _ _ => True)
      (opened t a) := by
  show wp (handleSignUpdateProtocol a.cdata a.p1 a.lc true) _ _ _
  unfold handleSignUpdateProtocol
  rw [wp_bind, Fw.wp_when]
  refine ⟨fun _ => ?_, fun h => absurd rfl h⟩
  rw [setState, Fw.wp_modifyCtx, wp_bind, Fw.wp_getCtx]
  refine (wp_ite _ _ _).mpr ⟨fun _ => ?_, fun _ => ?_⟩
  · rw [handleInitial, wp_bind]
    refine wp_readUpdateHeader (fun s' hs => ?_) fun _ _ _ => trivial
    simp only [wp_bind, Fw.wp_modifyCtx, wp_updateHash, setState, wp_sendSuccessNoIdle]
    have hfresh : screens s' = [] := by
      rw [hs.screens]
      simp
    refine .of_fresh (hs.instruction.trans (congrArg some ha)) (.messageLength ?_ rfl rfl ?_) ?_ ?_
    · refine ⟨?_, rfl, ?_⟩
      · show s'.hash ++ (updatePayload a.cdata).slice 8 = _
        rw [hs.hash, Ptr.slice_eight, List.append_nil, initialBytes, payloadLengthOf]
      · rw [shownTexts_congr (s := s') (by simp), shownTexts, shownSteps, hfresh]
        rfl
    · simpa using hfresh
    · simpa using hfresh
    · show offersSign s'.display = false
      rw [hs.display]
      exact hd
  · -- every other packet needs another state
    refine (wp_ite _ _ _).mpr ⟨fun h => (by cases h.2), fun _ => ?_⟩
    refine (wp_ite _ _ _).mpr ⟨fun h => (by cases h.2), fun _ => ?_⟩
    refine (wp_ite _ _ _).mpr ⟨fun h => (by cases h.2), fun _ => ?_⟩
    exact (wp_ite _ _ _).mpr ⟨fun h => (by cases h.2), fun _ => trivial⟩

/-- A length of either text, in a state in which `phase` then holds. -/
theorem wp_handleTextLength {Q : PUnit → Device Context → Prop} {a : Apdu}
    (received : Received first bytes texts t) (htaken : (8 : UInt64) ≤ t.ctx.payloadLength)
    (h : Received first (bytes ++ beBytes 8 (a.cdata.u8be 0).toNat) texts
        ⟨{ t.ctx with
            textLength := a.cdata.u8be 0
            payloadLength := t.ctx.payloadLength - 8
            state := .text },
          (t.shared.updateHash (a.cdata.slice 8)).reply [] success⟩ →
      Q ⟨⟩ ⟨{ t.ctx with
            textLength := a.cdata.u8be 0
            payloadLength := t.ctx.payloadLength - 8
            state := .text },
          (t.shared.updateHash (a.cdata.slice 8)).reply [] success⟩) :
    wp (handleTextLength a.cdata) Q (fun _ _ => True) t := by
  simp only [handleTextLength, wp_bind, Fw.wp_modifyCtx, wp_updateHash, setState,
    wp_sendSuccessNoIdle]
  refine h (received.add htaken (beBytes_length _ _) ?_ rfl ?_)
  · show t.shared.hash ++ a.cdata.slice 8 = _
    rw [Ptr.slice_eight]
  · rw [shownTexts_congr (s := t.shared) (by simp)]
    exact received.shown

/-- The text of a command that carries all of it. -/
theorem buffer_shown {n : Nat} (b : Buffer n) {text : List UInt8} (hz : 0 ∉ text)
    (hlen : text.length < n) :
    cString ((b.memmove 0 text).memmove text.length [0]).bytes = some text := by
  rw [Buffer.memmove_memmove _ _ _ (by
    rw [List.length_append, List.length_singleton]
    exact hlen)]
  exact cString_memmove _ _ hz hlen

theorem uint64_sub_self (n : UInt64) : n - n = 0 := by
  apply UInt64.toNat.inj
  rw [UInt64.toNat_sub_of_le _ _ (UInt64.le_refl n), Nat.sub_self]
  rfl

theorem handleTextPart_inv {a : Apdu} (hi : t.shared.currentInstruction = some insUpdateProtocol)
    (ho : t.shared.replyOwed = true) (hp1 : a.p1 = p1Text) (hc : InOneCommand t (.command a))
    (received : Received first (bytes ++ beBytes 8 t.ctx.textLength.toNat) texts t)
    (hphase : bytes = [] ∧ texts = [] ∧ t.ctx.textState = .message ∨
      (∃ msg, bytes = textBytes msg ∧ texts = [messageScreen msg]) ∧
        t.ctx.textState ≠ .message) :
    wp (handleTextPart a.cdata a.lc) (fun _ t' => Inv first t') (fun _ _ => True) t := by
  obtain ⟨htext, htaken⟩ := hc
  obtain ⟨hall, hshort, hz⟩ := htext hp1
  have hdata : a.data.length = a.lc.toNat := Ptr.slice_length _ _
  have hlen : a.data.length = t.ctx.textLength.toNat := by
    rw [← hall, UInt8.toNat_toUInt64]
    exact hdata
  have hpart : taken a = a.lc.toUInt64 := by
    rw [taken, hp1]
    rfl
  rw [hpart] at htaken
  have hlt : a.lc.toNat < 255 := UInt8.lt_iff_toNat_lt.mp hshort
  have hbuf := buffer_shown t.ctx.buffer hz (hdata ▸ hlt)
  rw [hdata] at hbuf
  have hzero : t.ctx.textLength - a.lc.toUInt64 = 0 := by
    rw [hall]
    exact uint64_sub_self _
  have hrec (t' : Device Context) (hhash : t'.shared.hash = t.shared.hash ++ a.data)
      (hleft : t'.ctx.payloadLength = t.ctx.payloadLength - a.lc.toUInt64)
      (shown : List (String × Option (List UInt8))) (hshown : shownTexts t'.shared = shown) :
      Received first (bytes ++ textBytes a.data) shown t' := by
    rw [textBytes, hlen, ← List.append_assoc]
    exact received.add htaken (by rw [hdata, UInt8.toNat_toUInt64]) hhash hleft hshown
  simp only [handleTextPart, setState, wp_bind, Fw.wp_getCtx, Fw.wp_throwIf, Fw.wp_modifyCtx,
    wp_updateHash, Fw.wp_when, implies_true, true_and]
  intro _
  refine ⟨fun _ => ?_, fun h => absurd hshort h⟩
  rcases hphase with ⟨rfl, rfl, htxt⟩ | ⟨⟨msg, rfl, rfl⟩, htxt⟩
  · rw [htxt]
    simp only [wp_bind, Fw.wp_modifyCtx, wp_uxFlowInit, wp_waitForButton]
    refine .of_screen hi (.urlLength a.data (hrec _ rfl rfl _ ?_) rfl hzero (fun _ => ho) ?_) ?_
    · show shownTexts (Shared.uxFlowInit _ _) = _
      rw [shownTexts_uxFlowInit, shownTexts_congr (s := t.shared) (by simp), received.shown]
      have htext : cString ((t.ctx.buffer.memmove 0 (a.cdata.slice a.lc.toNat)).memmove
          a.lc.toNat [0]).bytes = some a.data := hbuf
      simp [uxSignProtocolUpdate, uxSignFlowSharedReview, uxUpdateType, Step.shown, ofPayload,
        messageScreen, htext]
    · simp [Only, uxSignProtocolUpdate, uxSignFlowSharedReview, uxUpdateType]
    · simp [Only, uxSignProtocolUpdate, uxSignFlowSharedReview, uxUpdateType]
  · cases hst : t.ctx.textState with
    | message => exact absurd hst htxt
    | specificationUrl =>
      simp only [wp_bind, Fw.wp_modifyCtx, wp_uxFlowInit, wp_waitForButton]
      refine .of_screen hi (.hash msg a.data (hrec _ rfl rfl _ ?_) rfl ?_) ?_
      · show shownTexts (Shared.uxFlowInit _ _) = _
        rw [shownTexts_uxFlowInit, shownTexts_congr (s := t.shared) (by simp), received.shown]
        have htext : cString ((t.ctx.buffer.memmove 0 (a.cdata.slice a.lc.toNat)).memmove
            a.lc.toNat [0]).bytes = some a.data := hbuf
        simp [uxSignProtocolUpdateUrl, Step.shown, ofPayload, urlScreen, htext]
      · simp [Only, uxSignProtocolUpdateUrl]
      · simp [Only, uxSignProtocolUpdateUrl]
    | textStateEnd => trivial
    | beyond => trivial

theorem handleSpecificationHash_inv {a : Apdu} {msg url : List UInt8}
    (hi : t.shared.currentInstruction = some insUpdateProtocol)
    (htaken : (32 : UInt64) ≤ t.ctx.payloadLength)
    (received : Received first (textBytes msg ++ textBytes url) [messageScreen msg, urlScreen url]
      t) :
    wp (handleSpecificationHash a.cdata) (fun _ t' => Inv first t') (fun _ _ => True) t := by
  simp only [handleSpecificationHash, setState, wp_bind, wp_updateHash, Fw.wp_getCtx, Fw.wp_eval,
    Fw.wp_modifyCtx, wp_uxFlowInit, wp_waitForButton, implies_true, and_true]
  intro hex hhex
  have hlen : (a.cdata.slice 32).length = 32 := Ptr.slice_length _ _
  have htext : cString hex.bytes = some (paginate (hexText (a.cdata.slice 32))) := by
    rw [toPaginatedHex_eq _ _ (by omega) (by omega)] at hhex
    cases hhex
    exact cString_hex _ _ (by omega)
  refine .of_screen hi (.auxiliary ⟨msg, url, a.cdata.slice 32, []⟩ hlen ?_ rfl ?_) ?_
  · rw [Payload.bytes, List.append_nil]
    refine received.add htaken hlen rfl rfl ?_
    show shownTexts (Shared.uxFlowInit _ _) = _
    rw [shownTexts_uxFlowInit, shownTexts_congr (s := t.shared) (by simp), received.shown]
    simp [uxSignProtocolUpdateSpecificationHash, Step.shown, ofPayload, hashScreen, htext]
  · simp [Only, uxSignProtocolUpdateSpecificationHash]
  · simp [Only, uxSignProtocolUpdateSpecificationHash]

theorem handleAuxiliaryData_inv {a : Apdu} {p : Payload}
    (hi : t.shared.currentInstruction = some insUpdateProtocol)
    (ho : t.shared.replyOwed = true) (hp1 : a.p1 = p1AuxiliaryData)
    (htaken : taken a ≤ t.ctx.payloadLength) (hlen : p.specificationHash.length = 32)
    (received : Received first p.bytes [messageScreen p.message, urlScreen p.specificationUrl,
      hashScreen p.specificationHash] t)
    (state : t.ctx.state = .auxiliaryData)
    (display : Only [.none, .switchToLoading] t.shared.display) :
    wp (handleAuxiliaryData a.cdata a.lc) (fun _ t' => Inv first t') (fun _ _ => True) t := by
  have hpart : taken a = a.lc.toUInt64 := by
    rw [taken, hp1]
    rfl
  rw [hpart] at htaken
  have hdata : a.data.length = a.lc.toUInt64.toNat := by
    rw [UInt8.toNat_toUInt64]
    exact Ptr.slice_length _ _
  let q : Payload := { p with auxiliaryData := p.auxiliaryData ++ a.data }
  have hrec (t' : Device Context) (hhash : t'.shared.hash = t.shared.hash ++ a.data)
      (hleft : t'.ctx.payloadLength = t.ctx.payloadLength - a.lc.toUInt64)
      (hshown : shownTexts t'.shared = shownTexts t.shared) :
      Received first q.bytes [messageScreen p.message, urlScreen p.specificationUrl,
        hashScreen p.specificationHash] t' := by
    have hq : q.bytes = p.bytes ++ a.data := (List.append_assoc _ _ _).symm
    rw [hq]
    exact received.add htaken hdata hhash hleft (hshown.trans received.shown)
  simp only [handleAuxiliaryData, wp_bind, wp_updateHash, Fw.wp_modifyCtx, Fw.wp_getCtx, wp_ite,
    wp_uxFlowInit, wp_waitForButton, wp_sendSuccessNoIdle]
  refine ⟨fun hzero => ?_, fun _ => ⟨fun _ => ?_, fun _ => trivial⟩⟩
  · have hall := hrec ⟨{ t.ctx with payloadLength := t.ctx.payloadLength - a.lc.toUInt64 },
      { (t.shared.updateHash a.data).uxFlowInit uxSignFlowShared with asynchReply := true }⟩
      rfl rfl (by
        show shownTexts (Shared.uxFlowInit _ _) = _
        rw [shownTexts_uxFlowInit, shownTexts_congr (s := t.shared) (by simp)]
        simp [uxSignFlowShared, uxSignFlowSharedSign, uxSignFlowSharedDecline, ofPayload])
    exact {
      instruction := fun _ hi' => (Option.some.inj (hi.symm.trans hi')).symm
      own := by
        intro _ st hst
        have hflow : st = uxSignFlowSharedSign ∨ st = uxSignFlowSharedDecline := by
          simpa [uxSignFlowShared] using hst
        rcases hflow with rfl | rfl <;> exact .inl rfl
      active := fun _ _ => .signing ⟨ho, by
        simp [Only, uxSignFlowShared, uxSignFlowSharedSign, uxSignFlowSharedDecline]⟩
      signed := by
        intro _
        refine ⟨q, hall.hash, ?_, hlen, [p.message], [p.specificationUrl], hall.shown, ?_, ?_⟩
        · have hl := hall.left
          have hz : (t.ctx.payloadLength - a.lc.toUInt64).toNat = 0 := congrArg UInt64.toNat hzero
          show _ = q.bytes.length
          rw [← hl]
          show _ = _
          rw [hz, Nat.zero_add]
        · simp [q]
        · simp [q] }
  · refine .of_screen hi (.auxiliary q hlen (hrec _ rfl rfl ?_) state ?_) ?_
    · exact shownTexts_congr (by simp)
    · exact display
    · exact Only.mono display (by simp)

/-- A command of the session. -/
theorem command_inv {a : Apdu} (h : Inv first t) (hc : InOneCommand t (.command a))
    (hs : SessionStep (protocolApp sdk) t (.command a) t') : Inv first t' := by
  obtain ⟨hcur, hr, ho, hh⟩ := hs
  have hi : (entered t a).shared.currentInstruction = some insUpdateProtocol :=
    hcur.trans (congrArg some (h.instruction _ hcur))
  have hscr : screens (entered t a).shared = screens t.shared := screens_entered t a
  have hrec {bytes : List UInt8} {texts : List (String × Option (List UInt8))}
      (h : Received first bytes texts t) : Received first bytes texts (entered t a) :=
    h.congr rfl rfl hscr
  have hlength (hp1 : a.p1 = p1TextLength) : (8 : UInt64) ≤ t.ctx.payloadLength := by
    have htaken := hc.2
    rw [taken, if_pos hp1] at htaken
    exact htaken
  have hw : wp ((protocolApp sdk).handler a false) (fun _ t' => Inv first t') (fun _ _ => True)
      (entered t a) := by
    show wp (handleSignUpdateProtocol a.cdata a.p1 a.lc false) _ _ _
    unfold handleSignUpdateProtocol
    rw [wp_bind, Fw.wp_when]
    refine ⟨fun h => absurd h (by decide), fun _ => ?_⟩
    rw [wp_bind, Fw.wp_getCtx]
    have hphase := h.active hr (by rw [hcur]; simp)
    have hctx : (entered t a).ctx = t.ctx := rfl
    cases hphase with
    | messageLength received state text fresh =>
      simp only [hctx, state, reduceCtorEq, and_false, and_true, if_false]
      refine (wp_ite _ _ _).mpr ⟨fun hp1 => ?_, fun _ => trivial⟩
      refine wp_handleTextLength (hrec received) (hlength hp1) fun hall => ?_
      refine .of_fresh hi (.message hall rfl text ?_) ?_ ?_
      · simpa using hscr.trans fresh
      · simpa using hscr.trans fresh
      · cases hsign : offersSign t.shared.display with
        | false => exact hsign
        | true =>
          obtain ⟨_, hsigned⟩ := h.signed hsign
          obtain ⟨_, _, hshown, _⟩ := hsigned.shown
          rw [received.shown] at hshown
          simp at hshown
    | message received state text fresh =>
      simp only [hctx, state, reduceCtorEq, and_false, and_true, if_false]
      refine (wp_ite _ _ _).mpr ⟨fun hp1 => ?_, fun _ => trivial⟩
      have hnone : Received first ([] ++ beBytes 8 (entered t a).ctx.textLength.toNat) []
          (entered t a) := hrec received
      exact handleTextPart_inv hi rfl hp1 hc hnone (.inl ⟨rfl, rfl, text⟩)
    | urlLength msg received state all text display =>
      simp only [hctx, state, reduceCtorEq, and_false, and_true, if_false]
      refine (wp_ite _ _ _).mpr ⟨fun hp1 => ?_, fun _ => trivial⟩
      refine wp_handleTextLength (hrec received) (hlength hp1) fun hall => ?_
      refine .of_screen hi (.url msg hall rfl (fun hmsg => ?_) display) (Only.mono display (by simp))
      -- the command before has been answered
      rw [text hmsg] at ho
      cases ho
    | url msg received state text display =>
      simp only [hctx, state, reduceCtorEq, and_false, and_true, if_false]
      refine (wp_ite _ _ _).mpr ⟨fun hp1 => ?_, fun _ => trivial⟩
      exact handleTextPart_inv hi rfl hp1 hc (hrec received) (.inr ⟨⟨msg, rfl, rfl⟩, text⟩)
    | hash msg url received state display =>
      simp only [hctx, state, reduceCtorEq, and_false, and_true, if_false]
      refine (wp_ite _ _ _).mpr ⟨fun hp1 => ?_, fun _ => trivial⟩
      refine handleSpecificationHash_inv hi ?_ (hrec received)
      have htaken := hc.2
      rw [taken, hp1] at htaken
      exact htaken
    | auxiliary p hash_length received state display =>
      simp only [hctx, state, reduceCtorEq, and_false, and_true, if_false]
      refine (wp_ite _ _ _).mpr ⟨fun hp1 => ?_, fun _ => trivial⟩
      exact handleAuxiliaryData_inv hi rfl hp1 hc.2 hash_length (hrec received) state display
    | signing hsign =>
      -- no command comes while the Sign screen is up
      rw [hsign.owed] at ho
      cases ho
  have hq := of_wp_ok hw hh
  exact hq

/-! ### Presses -/

theorem TextState.next_ne_message (s : TextState) : s.next ≠ .message := by
  cases s <;> decide

/-- A press of a shared step. -/
theorem Inv.passed (h : Inv first t) (hp : Passed t t')
    (hphase : t'.shared.running = true → t'.shared.currentInstruction ≠ none → t'.ctx = t.ctx →
      screens t'.shared = screens t.shared → Phase first t') :
    Inv first t' where
  instruction := fun i hi => h.instruction i (hp.instruction i hi)
  own := hp.own_screen (fun _ hcb => .inl hcb) h.own
  active := by
    intro hr hne
    obtain ⟨_, _, _, hscr⟩ := hp.goes_on hr hne
    exact hphase hr hne hp.ctx hscr
  signed := by
    intro hs
    obtain ⟨hd, hscr⟩ := hp.of_offersSign hs
    rw [hd] at hs
    obtain ⟨p, hsigned⟩ := h.signed hs
    exact ⟨p, hp.hash.trans hsigned.hash, hsigned.length, hsigned.hash_length,
      (shownTexts_congr hscr).symm ▸ hsigned.shown⟩

/-- The button on the screen of a text replies, and counts `textState` up when no text is left. -/
theorem handleText_inv (hi : t.shared.currentInstruction = some insUpdateProtocol)
    (hd : Only [.none, .handleText] t.shared.display)
    (hp : ∀ textState, textState = t.ctx.textState ∧ t.ctx.textLength ≠ 0 ∨ textState ≠ .message →
      Phase first ⟨{ t.ctx with textState }, t.shared.reply [] success⟩) :
    Inv first (finish ((protocolApp sdk).callback .handleText t)) := by
  have hd' : Only [.none, .handleText, .switchToLoading] t.shared.display := hd.mono (by simp)
  apply finish_of_wp
  show wp handleText _ _ t
  simp only [handleText, wp_bind, Fw.wp_getCtx, Fw.wp_when, Fw.wp_modifyCtx, wp_sendSuccessNoIdle]
  refine ⟨fun _ => ?_, fun hleft => ?_⟩
  · exact .of_screen hi (hp _ (.inr (TextState.next_ne_message _))) hd'
  · exact .of_screen hi (hp _ (.inl ⟨rfl, hleft⟩)) hd'

theorem press_inv {i : Nat} (h : Inv first t) (hc : InOneCommand t (.press i))
    (hr : t.shared.running = true) (hne : t.shared.currentInstruction ≠ none) :
    Inv first (finish ((protocolApp sdk).callback (t.shared.pressed i) t)) := by
  obtain ⟨ins, hcur⟩ := Option.ne_none_iff_exists'.mp hne
  have hi : t.shared.currentInstruction = some insUpdateProtocol := by
    rw [hcur, h.instruction ins hcur]
  have hpass (hf : screens t.shared = []) :
      Passed t (finish ((protocolApp sdk).callback (t.shared.pressed i) t)) := by
    refine sharedCallback_passed t sdk ?_
    rcases hc with hshared | hscr
    · exact hshared
    · exact absurd hf hscr
  have hscr : screens (t.shared.reply [] success) = screens t.shared := screens_reply _ _ _
  cases h.active hr hne with
  | messageLength received state text fresh =>
    refine h.passed (hpass fresh) fun _ _ hctx hs => ?_
    exact .messageLength (received.congr (hpass fresh).hash (by rw [hctx]) hs)
      (by rw [hctx]; exact state) (by rw [hctx]; exact text) (hs.trans fresh)
  | message received state text fresh =>
    refine h.passed (hpass fresh) fun _ _ hctx hs => ?_
    refine .message ?_ (by rw [hctx]; exact state) (by rw [hctx]; exact text) (hs.trans fresh)
    rw [hctx]
    exact received.congr (hpass fresh).hash (by rw [hctx]) hs
  | urlLength msg received state all text display =>
    have hm := pressed_mem display (by decide) i
    simp only [List.mem_cons, List.not_mem_nil, or_false] at hm
    rcases hm with hm | hm <;> rw [hm]
    · exact h
    · refine handleText_inv hi display fun ts hts => ?_
      refine .urlLength msg (received.congr rfl rfl hscr) state all (fun hmsg => ?_) display
      rcases hts with ⟨_, hleft⟩ | hts
      · exact absurd all hleft
      · exact absurd hmsg hts
  | url msg received state text display =>
    have hm := pressed_mem display (by decide) i
    simp only [List.mem_cons, List.not_mem_nil, or_false] at hm
    rcases hm with hm | hm <;> rw [hm]
    · exact h
    · refine handleText_inv hi display fun ts hts => ?_
      refine .url msg (received.congr rfl rfl hscr) state ?_ display
      rcases hts with ⟨hsame, _⟩ | hts
      · rw [hsame]
        exact text
      · exact hts
  | hash msg url received state display =>
    have hm := pressed_mem display (by decide) i
    simp only [List.mem_cons, List.not_mem_nil, or_false] at hm
    rcases hm with hm | hm <;> rw [hm]
    · exact h
    · exact handleText_inv hi display fun _ _ =>
        .hash msg url (received.congr rfl rfl hscr) state display
  | auxiliary p hash_length received state display =>
    have hm := pressed_mem display (by decide) i
    simp only [List.mem_cons, List.not_mem_nil, or_false] at hm
    rcases hm with hm | hm <;> rw [hm]
    · exact h
    · -- the screen with the hash gives way to the one that asks to wait
      have hload : shownTexts ((t.shared.uxFlowInit uxSignProtocolUpdateLoading).reply [] success) =
          shownTexts t.shared := by
        rw [shownTexts_congr (screens_reply _ _ _), shownTexts_uxFlowInit]
        simp [uxSignProtocolUpdateLoading, ofPayload]
      have hd : Only [.none] uxSignProtocolUpdateLoading := by
        simp [Only, uxSignProtocolUpdateLoading]
      exact .of_screen hi (.auxiliary p hash_length
        ⟨received.hash, received.left, hload.trans received.shown⟩ state (hd.mono (by simp)))
        (hd.mono (by simp))
  | signing hsign =>
    rcases hsign.press sdk _ i with hsame | hend
    · have hstay : finish ((protocolApp sdk).callback (t.shared.pressed i) t) = t := hsame
      rw [hstay]
      exact h
    · have hm := pressed_mem hsign.only (by decide) i
      have hshared : (t.shared.pressed i).isShared = true := by
        simp only [List.mem_cons, List.not_mem_nil, or_false] at hm
        rcases hm with hm | hm | hm <;> rw [hm] <;> rfl
      have hp : Passed t (finish ((protocolApp sdk).callback (t.shared.pressed i) t)) :=
        sharedCallback_passed t sdk hshared
      exact h.passed hp fun hr' hne' _ _ => absurd (hend hr') hne'

end Session

/-! ## The device -/

section Device

variable {μ ν : Type} {u : GovernanceContext μ ν} {d₀ d₁ d : Device μ} {first : Apdu}

theorem embeds (sdk : Sdk) (u : GovernanceContext μ ν) :
    Embeds (governanceApp sdk u) u.signUpdateProtocolContext (protocolApp sdk) insUpdateProtocol
      Own where
  handler := by
    intro a b ha
    have hh : (governanceApp sdk u).handler a b = Fw.on u.signUpdateProtocolContext
        (handleSignUpdateProtocol a.cdata a.p1 a.lc b) := by
      show governanceHandler sdk u a b = _
      unfold governanceHandler
      rw [ha]
      rfl
    rw [hh]
    exact Views.on _ _
  callback := by
    rintro cb (hcb | rfl | rfl)
    · exact Views.sharedCallback _ sdk hcb
    · exact Views.on _ _
    · exact Views.on _ _

end Device

/-! ## Two sessions -/

/-- The first command, with an empty key path and zeroes in the header. -/
def initialCommand (payloadLength : Nat) : Apdu :=
  sent insUpdateProtocol p1Initial 0
    ([0] ++ List.replicate 28 0 ++ [UpdateType.protocol] ++ beBytes 8 payloadLength)

/-- A text of the given length: one command with the length, one with the bytes, and the
confirmation, which is step `i` of the screen. -/
def textEvents (length : Nat) (text : List UInt8) (i : Nat) : List Event :=
  [ .command (sent insUpdateProtocol p1TextLength 0 (beBytes 8 length)),
    .command (sent insUpdateProtocol p1Text 0 text),
    .press i ]

/-- The rest of the session, up to the Sign screen. -/
def hashAndData : List Event :=
  [ .command (sent insUpdateProtocol p1SpecificationHash 0 (List.replicate 32 7)),
    .press 0,
    .command (sent insUpdateProtocol p1AuxiliaryData 0 [9]) ]

/-- The message that the pages show. -/
def shownMessage (s : Shared) : List UInt8 :=
  ((shownTexts s).filterMap fun st => if st.1 = "Message" then st.2 else none).flatten

theorem SignedAsShown.shown_message {first : Apdu} {p : Payload} {s : Shared}
    (h : SignedAsShown first p s) : shownMessage s = p.message := by
  obtain ⟨messages, urls, hshown, hmessage, _⟩ := h.shown
  rw [shownMessage, hshown, ← hmessage]
  simp [List.filterMap_append, List.filterMap_map, Function.comp_def, messageScreen, urlScreen,
    hashScreen]

end SignUpdateProtocol
end ConcordiumLedger
