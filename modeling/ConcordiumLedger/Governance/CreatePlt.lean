import ConcordiumLedger.Common.Commands
import ConcordiumLedger.Common.NumberFacts
import ConcordiumLedger.Common.PaginatedHex
import ConcordiumLedger.Common.Presses
import ConcordiumLedger.Governance.Rules

/-!
# Governance.CreatePlt

How the initialization parameters of a token are received: for every way of cutting them into
chunks, what is hashed, stored and shown is the same.

* `Transaction`  — a token id, a module, the decimals and the parameters.
* `Receiving`    — what holds between two chunks.
* `Received`     — what is hashed, stored and shown after some of them.
-/

namespace ConcordiumLedger

open CMem CProg CProg.Prog Transition

namespace SignCreatePlt

/-- The creation of a token. -/
structure Transaction where
  path : List UInt8
  header : List UInt8
  tokenId : List UInt8
  tokenModule : List UInt8
  decimals : UInt8
  initParams : List UInt8
  isPath : IsPath path
  header_length : header.length = 28
  tokenId_pos : 1 ≤ tokenId.length
  tokenId_le : tokenId.length ≤ 128
  tokenModule_length : tokenModule.length = 32
  initParams_pos : 1 ≤ initParams.length
  initParams_lt : initParams.length < 2 ^ 32

namespace Transaction

/-- The data of the first command. -/
def initialBytes (tx : Transaction) : List UInt8 := tx.path ++ tx.header ++ [UpdateType.createPlt]

/-- The data of the second command. -/
def payloadBytes (tx : Transaction) : List UInt8 :=
  [.ofNat tx.tokenId.length] ++ tx.tokenId ++ tx.tokenModule ++ [tx.decimals] ++
    beBytes 4 tx.initParams.length

/-- What is hashed before the parameters. -/
def hashedBefore (tx : Transaction) : List UInt8 :=
  tx.header ++ [UpdateType.createPlt] ++ tx.payloadBytes

end Transaction

structure IsCommand (p1 : UInt8) (c : Apdu) : Prop where
  cla : c.cla = 0xE0
  ins : c.ins = insCreatePlt
  p1_eq : c.p1 = p1

/-- The first two commands of a transaction. -/
structure Transaction.Sent (tx : Transaction) (initial payload : Apdu) : Prop where
  isInitial : IsCommand p1Initial initial
  initialData : initial.data = tx.initialBytes
  isPayload : IsCommand p1Payload payload
  payloadData : payload.data = tx.payloadBytes

/-! ## Where a chunk is stored -/

theorem bytesToStore_toNat {offset : UInt32} (dataLength : UInt8) (h : offset.toNat < 512) :
    (bytesToStore offset dataLength.toUInt32).toNat = min dataLength.toNat (512 - offset.toNat) := by
  have hsize : initParamsSize.toNat = 512 := rfl
  have hlen := dataLength.toNat_lt
  have hsum : (offset + dataLength.toUInt32).toNat = offset.toNat + dataLength.toNat := by
    rw [UInt32.toNat_add, UInt8.toNat_toUInt32]
    exact Nat.mod_eq_of_lt (show _ < 2 ^ 32 by omega)
  unfold bytesToStore
  by_cases hgt : offset + dataLength.toUInt32 > initParamsSize
  · rw [if_pos hgt, UInt32.toNat_sub_of_le _ _ (UInt32.le_iff_toNat_le.mpr (by omega)), hsize]
    have hgt' := UInt32.lt_iff_toNat_lt.mp hgt
    omega
  · rw [if_neg hgt, UInt8.toNat_toUInt32]
    have hle := UInt32.le_iff_toNat_le.mp (UInt32.not_lt.mp hgt)
    omega

/-- A chunk is stored from the bytes on that were received before it, up to the end of the array. -/
theorem initParamsStore_eq (c : Context) (dataLength : UInt8) :
    let offset := (c.initializationParamsLength - c.remainingInitializationParamsBytes).toNat
    initParamsStore c dataLength =
      if 0 < min dataLength.toNat (512 - offset) then
        some (offset, min dataLength.toNat (512 - offset))
      else none := by
  intro offset
  show (if bytesToStore _ _ > 0 ∧ _ then _ else _) = _
  by_cases hoff : offset < 512
  · have hb := bytesToStore_toNat dataLength hoff
    have hlt : c.initializationParamsLength - c.remainingInitializationParamsBytes <
        initParamsSize := UInt32.lt_iff_toNat_lt.mpr hoff
    by_cases hpos : 0 < min dataLength.toNat (512 - offset)
    · rw [if_pos hpos, if_pos ⟨UInt32.lt_iff_toNat_lt.mpr (by rw [hb]; exact hpos), hlt⟩, hb]
    · rw [if_neg hpos, if_neg fun hc => hpos (by rw [← hb]; exact UInt32.lt_iff_toNat_lt.mp hc.1)]
  · rw [if_neg fun hc => hoff (UInt32.lt_iff_toNat_lt.mp hc.2), if_neg (by omega)]

/-- Every copy stays within the array. -/
theorem initParamsStore_le {c : Context} {dataLength : UInt8} {offset length : Nat}
    (h : initParamsStore c dataLength = some (offset, length)) : offset + length ≤ 512 := by
  have heq := initParamsStore_eq c dataLength
  rw [h] at heq
  simp only at heq
  split at heq
  · obtain ⟨rfl, rfl⟩ := Prod.mk.inj (Option.some.inj heq)
    omega
  · cases heq

/-! ## Chunks -/

/-- The context after a chunk was received. -/
def Context.receive (c : Context) (cdata : Ptr) (dataLength : UInt8) : Context :=
  { c with
    initParams := stored c cdata dataLength
    remainingInitializationParamsBytes :=
      c.remainingInitializationParamsBytes - dataLength.toUInt32 }

/-- The context after the last chunk, with the text that is shown. -/
def Context.render (c : Context) : Context :=
  { c with
    initParamsHex := c.initParamsHex.memmove 0
      (paginate (hexText (c.initParams.bytes.take (displayLength c).toNat)) ++ [0]) }

theorem displayLength_eq (c : Context) :
    (displayLength c).toNat = min c.initializationParamsLength.toNat 512 := by
  have hsize : initParamsSize.toNat = 512 := rfl
  unfold displayLength
  by_cases h : c.initializationParamsLength > initParamsSize
  · have hgt := UInt32.lt_iff_toNat_lt.mp h
    rw [if_pos h]
    omega
  · have hle := UInt32.le_iff_toNat_le.mp (UInt32.not_lt.mp h)
    rw [if_neg h]
    omega

/-- The text always fits. -/
theorem toPaginatedHex_initParams (c : Context) :
    toPaginatedHex (c.initParams.bytes.take (displayLength c).toNat) c.initParamsHex =
      .ok c.render.initParamsHex := by
  have hlen : (c.initParams.bytes.take (displayLength c).toNat).length ≤ 512 := by
    rw [List.length_take, c.initParams.length_eq]
    omega
  exact toPaginatedHex_eq _ _ (by omega) (by omega)

/-- What the function for the chunks does. -/
theorem wp_handleInitParams {cdata : Ptr} {dataLength : UInt8} {t : Device Context}
    {Q : PUnit → Device Context → Prop} {E : Error → Device Context → Prop}
    (hlt : t.ctx.remainingInitializationParamsBytes < dataLength.toUInt32 → E .invalidState t)
    (hmore : ¬ t.ctx.remainingInitializationParamsBytes < dataLength.toUInt32 →
      t.ctx.remainingInitializationParamsBytes - dataLength.toUInt32 ≠ 0 →
      Q ⟨⟩ ⟨t.ctx.receive cdata dataLength,
        (t.shared.updateHash (cdata.slice dataLength.toNat)).reply [] success⟩)
    (hlast : ¬ t.ctx.remainingInitializationParamsBytes < dataLength.toUInt32 →
      t.ctx.remainingInitializationParamsBytes - dataLength.toUInt32 = 0 →
      Q ⟨⟩ ⟨(t.ctx.receive cdata dataLength).render,
        { (t.shared.updateHash (cdata.slice dataLength.toNat)).uxFlowInit
            (uxSignCreatePltStart (t.ctx.receive cdata dataLength).render) with
          asynchReply := true }⟩) :
    wp (handleInitParams cdata dataLength) Q E t := by
  have hrender := toPaginatedHex_initParams (t.ctx.receive cdata dataLength)
  unfold Context.receive at hmore hlast hrender
  simp only [handleInitParams, wp_bind, Fw.wp_getCtx, Fw.wp_throwIf, wp_updateHash,
    Fw.wp_modifyCtx, wp_ite, Fw.wp_eval, wp_uxFlowInit, wp_waitForButton, wp_sendSuccessNoIdle]
  refine ⟨hlt, fun hle => ⟨fun hz => ⟨?_, ?_⟩, hmore hle⟩⟩
  · intro hex hhex
    have hok := hhex.symm.trans hrender
    cases hok
    exact hlast hle hz
  · intro e he
    have herr := he.symm.trans hrender
    cases herr

/-- What is stored is where the parameters received so far end. -/
theorem stored_prefix (cdata : Ptr) (dataLength : UInt8) {c : Context} {received : List UInt8}
    (hstored : received.take 512 <+: c.initParams.bytes)
    (hoffset : (c.initializationParamsLength - c.remainingInitializationParamsBytes).toNat =
      received.length) :
    (received ++ cdata.slice dataLength.toNat).take 512 <+: (stored c cdata dataLength).bytes := by
  have heq := initParamsStore_eq c dataLength
  simp only [hoffset] at heq
  unfold stored
  rw [heq, List.take_append]
  by_cases hpos : 0 < min dataLength.toNat (512 - received.length)
  · have hlt : received.length < 512 := by omega
    have htake : (cdata.slice dataLength.toNat).take (512 - received.length) =
        cdata.slice (min dataLength.toNat (512 - received.length)) := by
      rw [Ptr.take_slice, Nat.min_comm]
    rw [if_pos hpos, htake]
    rw [List.take_of_length_le (by omega)] at hstored ⊢
    refine Buffer.append_prefix_memmove hstored ?_
    rw [List.length_append, Ptr.slice_length]
    omega
  · rw [if_neg hpos]
    have hnil : (cdata.slice dataLength.toNat).take (512 - received.length) = [] := by
      rw [← List.length_eq_zero_iff, List.length_take, Ptr.slice_length]
      omega
    rw [hnil, List.append_nil]
    exact hstored

/-- The text that is shown is that of the first 512 bytes. -/
theorem cString_render {c : Context} {params : List UInt8}
    (hstored : params.take 512 <+: c.initParams.bytes)
    (htotal : c.initializationParamsLength.toNat = params.length) :
    cString c.render.initParamsHex.bytes = some (paginate (hexText (params.take 512))) := by
  have htake : c.initParams.bytes.take (displayLength c).toNat = params.take 512 := by
    obtain ⟨rest, hrest⟩ := hstored
    rw [displayLength_eq, ← hrest, htotal, List.take_left' (by rw [List.length_take, Nat.min_comm])]
  unfold Context.render
  rw [htake]
  have hlen : (params.take 512).length ≤ 512 := List.length_take_le _ _
  exact cString_hex _ _ (by omega)

/-! ## What holds between two commands -/

section Session

variable {tx : Transaction}

/-- The Sign screen shows the first 512 bytes of the parameters. -/
structure Shown (tx : Transaction) (s : Shared) : Prop where
  offered : Offered s
  initParams : (s.display.filter fun st => st.title = "Init Params").map Step.shown =
    [some (paginate (hexText (tx.initParams.take 512)))]

/-- The device takes commands of the session. -/
structure Live (t : Device Context) : Prop where
  running : t.shared.running = true
  instruction : t.shared.currentInstruction = some insCreatePlt

/-- The bytes of `received` have arrived. -/
structure Receiving (tx : Transaction) (received : List UInt8) (t : Device Context) : Prop where
  live : Live t
  state : t.ctx.state = .initParams
  total : t.ctx.initializationParamsLength.toNat = tx.initParams.length
  remaining : t.ctx.remainingInitializationParamsBytes.toNat + received.length =
    tx.initParams.length
  kept : received.take 512 <+: t.ctx.initParams.bytes
  hash : t.shared.hash = tx.hashedBefore ++ received
  more : received ≠ tx.initParams → screens t.shared = []
  last : received = tx.initParams → Shown tx t.shared

theorem Receiving.offset {received : List UInt8} {t : Device Context}
    (h : Receiving tx received t) :
    (t.ctx.initializationParamsLength - t.ctx.remainingInitializationParamsBytes).toNat =
      received.length := by
  have ht := h.total
  have hr := h.remaining
  rw [UInt32.toNat_sub_of_le _ _ (UInt32.le_iff_toNat_le.mpr (by omega))]
  omega

/-- What a chunk does that goes on where the parameters received so far end. -/
theorem Receiving.chunk {received : List UInt8} {t : Device Context} {cdata : Ptr}
    {dataLength : UInt8} (h : Receiving tx received t)
    (hp : received ++ cdata.slice dataLength.toNat <+: tx.initParams) :
    wp (handleInitParams cdata dataLength)
      (fun _ t' => Receiving tx (received ++ cdata.slice dataLength.toNat) t')
      (fun _ _ => False) t := by
  have hr := h.remaining
  have hlen := hp.length_le
  rw [List.length_append, Ptr.slice_length] at hlen
  have hle : dataLength.toNat ≤ t.ctx.remainingInitializationParamsBytes.toNat := by omega
  have hsub : (t.ctx.remainingInitializationParamsBytes - dataLength.toUInt32).toNat =
      t.ctx.remainingInitializationParamsBytes.toNat - dataLength.toNat := by
    rw [UInt32.toNat_sub_of_le _ _ (UInt32.le_iff_toNat_le.mpr (by
      rw [UInt8.toNat_toUInt32]; exact hle)), UInt8.toNat_toUInt32]
  have hstored := stored_prefix cdata dataLength h.kept h.offset
  have hall : received ++ cdata.slice dataLength.toNat = tx.initParams ↔
      t.ctx.remainingInitializationParamsBytes - dataLength.toUInt32 = 0 := by
    rw [← UInt32.toNat_inj, hsub]
    show _ ↔ _ = 0
    constructor
    · intro heq
      have hl := congrArg List.length heq
      rw [List.length_append, Ptr.slice_length] at hl
      omega
    · intro hz
      exact hp.eq_of_length (by rw [List.length_append, Ptr.slice_length]; omega)
  have hremaining : (t.ctx.remainingInitializationParamsBytes - dataLength.toUInt32).toNat +
      (received ++ cdata.slice dataLength.toNat).length = tx.initParams.length := by
    rw [hsub, List.length_append, Ptr.slice_length]
    omega
  have hhash : t.shared.hash ++ cdata.slice dataLength.toNat =
      tx.hashedBefore ++ (received ++ cdata.slice dataLength.toNat) := by
    rw [h.hash, List.append_assoc]
  refine wp_handleInitParams (fun hlt => ?_) (fun _ hne => ?_) (fun _ hz => ?_)
  · rw [UInt32.lt_iff_toNat_lt, UInt8.toNat_toUInt32] at hlt
    omega
  · have hne' := fun heq => hne (hall.mp heq)
    refine ⟨⟨h.live.running, h.live.instruction⟩, h.state, h.total, hremaining, hstored, hhash,
      fun _ => ?_, fun heq => absurd heq hne'⟩
    rw [screens_reply, screens_updateHash]
    refine h.more fun heq => hne' ?_
    have hz : dataLength.toNat = 0 := by
      rw [← heq] at hlen
      omega
    rw [hz, Ptr.slice_zero, List.append_nil]
    exact heq
  · have heq := hall.mpr hz
    refine ⟨⟨h.live.running, h.live.instruction⟩, h.state, h.total, hremaining, hstored, hhash,
      fun hne => absurd heq hne, fun _ => ⟨⟨?_, ?_⟩, ?_⟩⟩
    · simp [offersSign, uxSignCreatePltStart, uxSignAndDecline, Step.signs, uxSignFlowSharedSign]
    · show screens ((t.shared.updateHash _).uxFlowInit _) ≠ []
      rw [screens_uxFlowInit]
      simp
    · rw [heq] at hstored
      rw [← cString_render (c := t.ctx.receive cdata dataLength) hstored h.total]
      simp [uxSignCreatePltStart, uxSignAndDecline, uxSignFlowSharedReview, uxUpdateType,
        uxSignFlowSharedSign, uxSignFlowSharedDecline, Step.shown]

/-- A chunk that exceeds the declared length is refused before anything is written. -/
theorem Receiving.exceeds {received : List UInt8} {t : Device Context} (cdata : Ptr)
    (dataLength : UInt8) (h : Receiving tx received t)
    (hgt : tx.initParams.length < received.length + dataLength.toNat) :
    handleInitParams cdata dataLength t = .thrown .invalidState t := by
  have hr := h.remaining
  have hlt : t.ctx.remainingInitializationParamsBytes < dataLength.toUInt32 := by
    rw [UInt32.lt_iff_toNat_lt, UInt8.toNat_toUInt32]
    omega
  show Prog.bind (Fw.throwIf _ _) _ t = _
  unfold Fw.throwIf
  rw [if_pos hlt]
  rfl

/-! ## The first two commands -/

/-- The header was received. -/
structure Opened (tx : Transaction) (t : Device Context) : Prop where
  live : Live t
  state : t.ctx.state = .payload
  hash : t.shared.hash = tx.header ++ [UpdateType.createPlt]
  screens : screens t.shared = []

theorem handleInitial_opened {t : Device Context} {cdata : Ptr} (hl : Live t)
    (hs : screens t.shared = []) (hb : cdata.Begins tx.initialBytes) :
    wp (handleInitial cdata) (fun _ t' => Opened tx t') (fun _ _ => False) t := by
  unfold Transaction.initialBytes at hb
  rw [Ptr.begins_append, Ptr.begins_append, List.length_append] at hb
  obtain ⟨⟨hpath, hheader⟩, htype⟩ := hb
  obtain ⟨h8, hplen⟩ := tx.isPath.length hpath
  rw [hplen] at hheader htype
  rw [tx.header_length, ← Ptr.advance_advance] at htype
  unfold Ptr.Begins at hheader
  rw [tx.header_length] at hheader
  simp only [handleInitial, readUpdateHeader, hashUpdateHeaderAndType, hashHeaderAndType, wp_bind,
    wp_parseKeyDerivationPath, wp_cxSha256Init, wp_updateHash, Fw.wp_throwIf, wp_pure,
    Fw.wp_modifyCtx, setState, wp_sendSuccessNoIdle]
  refine ⟨fun h => absurd h (UInt8.not_lt.mpr h8), fun _ => ⟨fun h => ?_, fun _ => ?_⟩⟩
  · exact h (Ptr.begins_singleton.mp htype)
  · refine ⟨⟨hl.running, hl.instruction⟩, rfl, ?_, ?_⟩
    · show [] ++ (cdata.advance (1 + 4 * (cdata 0).toNat)).slice 28 ++
        ((cdata.advance (1 + 4 * (cdata 0).toNat)).advance 28).slice 1 = _
      rw [List.nil_append, hheader]
      congr 1
    · simp only [screens_reply, screens_updateHash, screens_sha256Init, screens_loadPath]
      exact hs

theorem bin2dec_byte (b : UInt8) : bin2dec 4 b.toUInt64 = .ok (decimal b.toNat ++ [0]) := by
  have hb := b.toNat_lt
  have h64 : b.toUInt64.toNat = b.toNat := UInt8.toNat_toUInt64 b
  have hlen := lengthOfNumber_le b.toUInt64 (j := 3) (by decide) (by omega)
  have hdec := decimal_length b.toUInt64
  rw [h64] at hdec
  rw [bin2dec, numberToText, if_neg (by omega), digitsText_lengthOfNumber, h64]
  show (if 4 < (decimal b.toNat).length + 1 then _ else _) = _
  rw [if_neg (by omega)]

theorem handlePayload_receiving {t : Device Context} {cdata : Ptr} (h : Opened tx t)
    (hb : cdata.Begins tx.payloadBytes) :
    wp (handlePayload cdata) (fun _ t' => Receiving tx [] t') (fun _ _ => False) t := by
  have hpos := tx.tokenId_pos
  have hle := tx.tokenId_le
  have hlt := tx.initParams_lt
  have hsplit : cdata 0 = .ofNat tx.tokenId.length ∧ (cdata.advance 1).Begins tx.tokenId ∧
      ((cdata.advance 1).advance tx.tokenId.length).Begins tx.tokenModule ∧
      (((cdata.advance 1).advance tx.tokenId.length).advance 32) 0 = tx.decimals ∧
      ((((cdata.advance 1).advance tx.tokenId.length).advance 32).advance 1).Begins
        (beBytes 4 tx.initParams.length) := by
    unfold Transaction.payloadBytes at hb
    simp only [Ptr.begins_append, List.length_append, List.length_singleton,
      tx.tokenModule_length] at hb
    obtain ⟨⟨⟨⟨hlen, hid⟩, hmodule⟩, hdec⟩, hparams⟩ := hb
    simp only [Ptr.advance_advance]
    exact ⟨Ptr.begins_singleton.mp hlen, hid, hmodule, Ptr.begins_singleton.mp hdec, hparams⟩
  obtain ⟨hlen, hid, hmodule, hdec, hparams⟩ := hsplit
  have hn : (cdata 0).toNat = tx.tokenId.length := by
    rw [hlen, UInt8.toNat_ofNat']
    omega
  have hcount : ((((cdata.advance 1).advance tx.tokenId.length).advance 32).advance 1).u4be 0 =
      .ofNat tx.initParams.length := by
    refine Ptr.begins_beBytes_four.mp ?_
    rw [UInt32.toNat_ofNat', Nat.mod_eq_of_lt hlt]
    exact hparams
  have hcountNat : (UInt32.ofNat tx.initParams.length).toNat = tx.initParams.length := by
    rw [UInt32.toNat_ofNat', Nat.mod_eq_of_lt hlt]
  simp only [handlePayload, wp_bind, Fw.wp_throwIf, wp_updateHash, Fw.wp_modifyCtx, Fw.wp_getCtx,
    Fw.wp_eval, setState, wp_sendSuccessNoIdle]
  rw [hn, hcount]
  refine ⟨?_, fun _ => ⟨fun hex _ => ⟨fun text _ => ⟨?_, fun _ => ?_⟩, ?_⟩, ?_⟩⟩
  · rintro (h1 | h1)
    · rw [gt_iff_lt, UInt8.lt_iff_toNat_lt, hn] at h1
      have h128 : (128 : UInt8).toNat = 128 := rfl
      omega
    · rw [h1] at hn
      have h0 : (0 : UInt8).toNat = 0 := rfl
      omega
  · intro hz
    have h0 := tx.initParams_pos
    rw [hz] at hcountNat
    have hzero : (0 : UInt32).toNat = 0 := rfl
    omega
  · refine ⟨⟨h.live.running, h.live.instruction⟩, rfl, hcountNat, ?_, ?_, ?_, fun _ => ?_,
      fun heq => ?_⟩
    · exact hcountNat
    · simp
    · show t.shared.hash ++ cdata.slice 1 ++ (cdata.advance 1).slice tx.tokenId.length ++
        ((cdata.advance 1).advance tx.tokenId.length).slice 32 ++
        (((cdata.advance 1).advance tx.tokenId.length).advance 32).slice 1 ++
        ((((cdata.advance 1).advance tx.tokenId.length).advance 32).advance 1).slice 4 = _
      unfold Ptr.Begins at hid hmodule hparams
      rw [tx.tokenModule_length] at hmodule
      rw [beBytes_length] at hparams
      rw [h.hash, slice_one, slice_one, hid, hmodule, hparams, hlen, hdec, Transaction.hashedBefore,
        Transaction.payloadBytes]
      simp only [List.append_assoc, List.append_nil]
    · simp only [screens_reply, screens_updateHash]
      exact h.screens
    · have h0 := tx.initParams_pos
      rw [← heq] at h0
      exact absurd h0 (by simp)
  · intro e he
    rw [bin2dec_byte] at he
    cases he
  · intro e he
    rw [toPaginatedHex_eq _ _ (by rw [Ptr.slice_length]; omega) (by
      rw [Ptr.slice_length]
      decide)] at he
    cases he

end Session

/-! ## Whole transactions -/

section Transactions

variable {μ ν : Type} {sdk : Sdk} {u : GovernanceContext μ ν}

/-- What holds after the chunks of `received`. -/
structure Received (sdk : Sdk) (u : GovernanceContext μ ν) (tx : Transaction)
    (received : List UInt8) (d : Device μ) : Prop where
  hash : d.shared.hash = tx.hashedBefore ++ received
  sign : Offered d.shared ↔ received = tx.initParams
  shown : Offered d.shared →
    (d.shared.display.filter fun st => st.title = "Init Params").map Step.shown =
      [some (paginate (hexText (tx.initParams.take 512)))]
  /-- What the next chunk stores lies in the array. -/
  store : ∀ c, IsCommand p1InitParams c → ∀ d', commandStep (governanceApp sdk u) d c = some d' →
    (u.signCreatePltContext.get d'.ctx).initParams =
        stored (u.signCreatePltContext.get d.ctx) c.cdata c.lc ∧
      ∀ offset length, initParamsStore (u.signCreatePltContext.get d.ctx) c.lc =
        some (offset, length) → offset + length ≤ 512
  /-- The next chunk is rejected if it exceeds the declared length. -/
  exceeds : ∀ c, IsCommand p1InitParams c →
    tx.initParams.length < received.length + c.data.length →
    ∃ d', dispatch (governanceApp sdk u) c (receivedCommand d) = .thrown .invalidState d' ∧
      d'.shared.hash = d.shared.hash ∧
      u.signCreatePltContext.get d'.ctx = u.signCreatePltContext.get d.ctx

theorem handler_eq {p1 : UInt8} {c : Apdu} (hc : IsCommand p1 c) (b : Bool) :
    (governanceApp sdk u).handler c b =
      Fw.on u.signCreatePltContext (handleSignCreatePlt c.cdata c.p1 c.lc b) := by
  show governanceHandler sdk u c b = _
  unfold governanceHandler
  rw [hc.ins]
  rfl

/-- The branch for the chunks. -/
theorem handle_initParams {c : Apdu} (hc : IsCommand p1InitParams c) {t : Device Context}
    (hs : t.ctx.state = .initParams) :
    handleSignCreatePlt c.cdata c.p1 c.lc false t = handleInitParams c.cdata c.lc t := by
  show (ite (c.p1 = p1Initial ∧ t.ctx.state = .initial) _
    (ite (c.p1 = p1Payload ∧ t.ctx.state = .payload) _
      (ite (c.p1 = p1InitParams ∧ t.ctx.state = .initParams) _ _)) : Fw _ PUnit) t = _
  rw [if_neg (by simp [hs]), if_neg (by simp [hs]), if_pos ⟨hc.p1_eq, hs⟩]

theorem handle_payload {c : Apdu} (hc : IsCommand p1Payload c) {t : Device Context}
    (hs : t.ctx.state = .payload) :
    handleSignCreatePlt c.cdata c.p1 c.lc false t = handlePayload c.cdata t := by
  show (ite (c.p1 = p1Initial ∧ t.ctx.state = .initial) _
    (ite (c.p1 = p1Payload ∧ t.ctx.state = .payload) _ _) : Fw _ PUnit) t = _
  rw [if_neg (by simp [hs]), if_pos ⟨hc.p1_eq, hs⟩]

theorem wp_congr {γ : Type} {x y : Fw γ PUnit} {t : Device γ} {Q : PUnit → Device γ → Prop}
    {E : Error → Device γ → Prop} (h : x t = y t) (hw : wp y Q E t) : wp x Q E t := by
  unfold wp at hw ⊢
  rw [h]
  exact hw

theorem Receiving.entered {tx : Transaction} {received : List UInt8} {d : Device μ} {c : Apdu}
    (h : Receiving tx received (d.view u.signCreatePltContext)) :
    Receiving tx received ((entered d c).view u.signCreatePltContext) where
  live := ⟨h.live.running, h.live.instruction⟩
  state := h.state
  total := h.total
  remaining := h.remaining
  kept := h.kept
  hash := h.hash
  more hne := (screens_entered d c).trans (h.more hne)
  last heq := ⟨⟨(h.last heq).offered.1, by
    show screens (ConcordiumLedger.entered d c).shared ≠ []
    rw [screens_entered]
    exact (h.last heq).offered.2⟩, (h.last heq).initParams⟩

variable (sdk) in
/-- A chunk of the parameters. -/
theorem receive_chunk {tx : Transaction} {received : List UInt8} {d : Device μ} {c : Apdu}
    (h : Receiving tx received (d.view u.signCreatePltContext)) (hc : IsCommand p1InitParams c)
    (hp : received ++ c.data <+: tx.initParams) :
    ∃ d', commandStep (governanceApp sdk u) d c = some d' ∧
      Receiving tx (received ++ c.data) (d'.view u.signCreatePltContext) := by
  have he := h.entered (c := c)
  refine commandStep_of_wp h.live.running (h.live.instruction.trans (by rw [hc.ins])) hc.cla
    (handler_eq hc false) ?_
  exact wp_congr (handle_initParams hc he.state) (he.chunk hp)

variable (sdk) in
/-- The chunks, one after the other. -/
theorem receive_chunks {tx : Transaction} {chunks : List Apdu}
    (hc : ∀ c ∈ chunks, IsCommand p1InitParams c) : ∀ {received : List UInt8} {d : Device μ},
    Receiving tx received (d.view u.signCreatePltContext) →
      received ++ chunks.flatMap Apdu.data <+: tx.initParams →
      ∃ d', exec (commandStep (governanceApp sdk u)) d chunks = some d' ∧
        Receiving tx (received ++ chunks.flatMap Apdu.data) (d'.view u.signCreatePltContext) := by
  induction chunks with
  | nil =>
    intro received d h _
    exact ⟨d, rfl, by rw [List.flatMap_nil, List.append_nil]; exact h⟩
  | cons c cs ih =>
    intro received d h hp
    rw [List.flatMap_cons, ← List.append_assoc] at hp
    obtain ⟨d₁, hd₁, h₁⟩ := receive_chunk sdk h (hc c List.mem_cons_self)
      ((List.prefix_append _ _).trans hp)
    obtain ⟨d₂, hd₂, h₂⟩ := ih (fun c' hc' => hc c' (List.mem_cons_of_mem _ hc')) h₁ hp
    refine ⟨d₂, Option.bind_eq_some_iff.mpr ⟨d₁, hd₁, hd₂⟩, ?_⟩
    rw [List.flatMap_cons, ← List.append_assoc]
    exact h₂

theorem Receiving.received {tx : Transaction} {received : List UInt8} {d : Device μ}
    (h : Receiving tx received (d.view u.signCreatePltContext)) : Received sdk u tx received d := by
  have hsign : Offered d.shared ↔ received = tx.initParams := by
    constructor
    · intro ho
      by_contra hne
      exact ho.2 (h.more hne)
    · intro heq
      exact (h.last heq).offered
  refine ⟨h.hash, hsign, fun ho => (h.last (hsign.mp ho)).initParams, ?_, ?_⟩
  · intro c hc d' hd'
    have he := h.entered (c := c)
    refine ⟨?_, fun offset length hst => initParamsStore_le hst⟩
    refine of_commandStep (P := fun t => t.ctx.initParams =
      stored (u.signCreatePltContext.get d.ctx) c.cdata c.lc) hd' hc.cla (handler_eq hc false)
      (wp_congr (handle_initParams hc he.state) ?_)
    exact wp_handleInitParams (fun _ => trivial) (fun _ _ => rfl) fun _ _ => rfl
  · intro c hc hgt
    have he := h.entered (c := c)
    have hdata : c.data.length = c.lc.toNat := Ptr.slice_length _ _
    have hthrown := Receiving.exceeds c.cdata c.lc he (by rw [← hdata]; exact hgt)
    rw [← handle_initParams hc he.state] at hthrown
    refine ⟨⟨u.signCreatePltContext.set (u.signCreatePltContext.get d.ctx) d.ctx,
      (ConcordiumLedger.entered d c).shared⟩, ?_, rfl, Member.get_set _ _ _⟩
    have hi : d.shared.currentInstruction = some c.ins := h.live.instruction.trans (by rw [hc.ins])
    rw [dispatch_eq _ hi hc.cla, handler_eq hc false]
    exact Fw.on_thrown hthrown

end Transactions

/-! ## A token on a device that has booted -/

/-- The token "A" with three bytes of parameters. -/
def exampleToken : Transaction where
  path := [0]
  header := List.replicate 28 0
  tokenId := [65]
  tokenModule := List.replicate 32 0
  decimals := 6
  initParams := [1, 2, 3]
  isPath := ⟨0, [], rfl, by decide, rfl⟩
  header_length := rfl
  tokenId_pos := by decide
  tokenId_le := by decide
  tokenModule_length := rfl
  initParams_pos := by decide
  initParams_lt := by decide

end SignCreatePlt
end ConcordiumLedger
