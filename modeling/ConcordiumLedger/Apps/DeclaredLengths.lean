import ConcordiumLedger.Common.StreamedParts
import ConcordiumLedger.Governance.Rules
import ConcordiumLedger.Main.App

/-!
# Apps.DeclaredLengths

The streamed parts of both applications: the proofs of the encrypted transfers and of the transfer
to public, the auxiliary data of a protocol update and the verify key of an identity provider. The
counter of each is unsigned and is compared with 0 only, so a chunk that exceeds what remains is
taken: a part is received as declared exactly when no chunk does that.
-/

namespace ConcordiumLedger

open CMem CProg CProg.Prog Transition StreamedPart

variable {μ ν γ : Type}

/-! ## Unsigned counters -/

theorem left_uint16 (x : UInt16) (len : UInt8) :
    (x - len.toUInt16).toNat = left (2 ^ 16) x.toNat len.toNat := by
  have hlen := len.toNat_lt
  rw [UInt16.toNat_sub, UInt8.toNat_toUInt16, left]
  congr 1
  omega

theorem left_uint32 (x : UInt32) (len : UInt8) :
    (x - len.toUInt32).toNat = left (2 ^ 32) x.toNat len.toNat := by
  have hlen := len.toNat_lt
  rw [UInt32.toNat_sub, UInt8.toNat_toUInt32, left]
  congr 1
  omega

theorem left_uint64 (x : UInt64) (len : UInt8) :
    (x - len.toUInt64).toNat = left (2 ^ 64) x.toNat len.toNat := by
  have hlen := len.toNat_lt
  rw [UInt64.toNat_sub, UInt8.toNat_toUInt64, left]
  congr 1
  omega

theorem left_zero_uint16 {x : UInt16} {len : UInt8} (h : x - len.toUInt16 = 0) :
    left (2 ^ 16) x.toNat len.toNat = 0 := by
  rw [← left_uint16, h]
  rfl

theorem left_zero_uint64 {x : UInt64} {len : UInt8} (h : x - len.toUInt64 = 0) :
    left (2 ^ 64) x.toNat len.toNat = 0 := by
  rw [← left_uint64, h]
  rfl

/-! ## The proofs of transfers -/

section Main

variable (sdk : Sdk) (u : InstructionContext μ)

def encryptedTransferProofs : StreamedPart μ :=
  onMember (mainApp sdk u) insEncryptedAmountTransfer SignEncryptedAmountTransfer.p1Proof
    u.signEncryptedAmountToTransfer (fun c => c.inner.state = .proofs)
    (fun c => c.inner.proofSize.toNat) offersSign false

def encryptedTransferWithMemoProofs : StreamedPart μ :=
  onMember (mainApp sdk u) insEncryptedAmountTransferWithMemo SignEncryptedAmountTransfer.p1Proof
    u.signEncryptedAmountToTransfer (fun c => c.inner.state = .proofs)
    (fun c => c.inner.proofSize.toNat) offersSign false

def transferToPublicProofs : StreamedPart μ :=
  onMember (mainApp sdk u) insTransferToPublic SignTransferToPublic.p1Proof
    u.signTransferToPublic (fun c => c.state = .proof) (fun c => c.proofSize.toNat) offersSign false

theorem handleProofs_spec (cdata : Ptr) (len : UInt8) (memo : Bool)
    (t : Device SignEncryptedAmountTransfer.Blob) (hs : t.ctx.inner.state = .proofs) :
    wp (SignEncryptedAmountTransfer.handleProofs cdata len memo)
      (fun _ t' => Counted (2 ^ 16)
        (fun c : SignEncryptedAmountTransfer.Blob => c.inner.state = .proofs)
        (fun c => c.inner.proofSize.toNat) len.toNat (cdata.slice len.toNat) t t')
      (fun _ _ => False) t := by
  simp only [SignEncryptedAmountTransfer.handleProofs, wp_bind, wp_updateHash, Fw.wp_modifyCtx,
    Fw.wp_getCtx, wp_ite, SignEncryptedAmountTransfer.startEncryptedTransferDisplay,
    wp_uxFlowInit, wp_waitForButton, wp_sendSuccessNoIdle]
  constructor
  · intro hz
    exact ⟨⟨hs, left_uint16 _ _, rfl, rfl, rfl⟩, fun h => absurd (left_zero_uint16 hz) h⟩
  · intro _
    exact ⟨⟨hs, left_uint16 _ _, rfl, rfl, rfl⟩, fun _ => by simp [flows]⟩

theorem encryptedTransferProofs_counts : (encryptedTransferProofs sdk u).Counts (2 ^ 16) := by
  refine Counts.of_counted
    (fun c => handleSignEncryptedAmountTransfer sdk c.cdata c.p1 c.lc false)
    (fun c => SignEncryptedAmountTransfer.handleProofs c.cdata c.lc false) (by decide)
    (fun c => c.inner.proofSize.toNat_lt) rfl ?_ ?_
    (fun c t hs => handleProofs_spec _ _ _ t hs)
  · intro c hins
    show mainHandler sdk u c false = _
    unfold mainHandler
    rw [hins]
    rfl
  · intro c t hp1 hs
    open SignEncryptedAmountTransfer in
    show (ite (c.p1 = p1Initial ∧ t.ctx.inner.state = .initial) _
      (ite (c.p1 = p1RemainingAmount ∧ t.ctx.inner.state = .remainingAmount) _
        (ite (c.p1 = p1TransferAmountAggIndexProofSize ∧ t.ctx.inner.state = .transferAmount) _
          (ite (c.p1 = p1Proof ∧ t.ctx.inner.state = .proofs) _ _))) : Fw _ PUnit) t = _
    rw [if_neg (by simp [hs]), if_neg (by simp [hs]), if_neg (by simp [hs]), if_pos ⟨hp1, hs⟩]

theorem encryptedTransferWithMemoProofs_counts :
    (encryptedTransferWithMemoProofs sdk u).Counts (2 ^ 16) := by
  refine Counts.of_counted
    (fun c => handleSignEncryptedAmountTransferWithMemo sdk c.cdata c.p1 c.lc false)
    (fun c => SignEncryptedAmountTransfer.handleProofs c.cdata c.lc true) (by decide)
    (fun c => c.inner.proofSize.toNat_lt) rfl ?_ ?_
    (fun c t hs => handleProofs_spec _ _ _ t hs)
  · intro c hins
    show mainHandler sdk u c false = _
    unfold mainHandler
    rw [hins]
    rfl
  · intro c t hp1 hs
    open SignEncryptedAmountTransfer in
    show (ite (c.p1 = p1InitialWithMemo ∧ t.ctx.inner.state = .initial) _
      (ite (c.p1 = p1Memo ∧ t.ctx.inner.state = .memoStart) _
        (ite (c.p1 = p1Memo ∧ t.ctx.inner.state = .memo) _
          (ite (c.p1 = p1RemainingAmount ∧ t.ctx.inner.state = .remainingAmount) _
            (ite (c.p1 = p1TransferAmountAggIndexProofSize ∧ t.ctx.inner.state = .transferAmount) _
              (ite (c.p1 = p1Proof ∧ t.ctx.inner.state = .proofs) _ _))))) : Fw _ PUnit) t = _
    rw [if_neg (by simp [hs]), if_neg (by simp [hs]), if_neg (by simp [hs]), if_neg (by simp [hs]),
      if_neg (by simp [hs]), if_pos ⟨hp1, hs⟩]

/-- The function that handles a chunk of the proof. -/
def proofChunk (cdata : Ptr) (dataLength : UInt8) : Fw SignTransferToPublic.Context PUnit := do
  updateHash cdata dataLength.toNat
  Fw.modifyCtx fun c => { c with proofSize := c.proofSize - dataLength.toUInt16 }
  let ctx ← Fw.getCtx
  if ctx.proofSize = 0 then do
    uxFlowInit SignTransferToPublic.uxSignTransferToPublic
    waitForButton
  else sendSuccessNoIdle

theorem proofChunk_spec (cdata : Ptr) (len : UInt8) (t : Device SignTransferToPublic.Context)
    (hs : t.ctx.state = .proof) :
    wp (proofChunk cdata len)
      (fun _ t' => Counted (2 ^ 16) (fun c : SignTransferToPublic.Context => c.state = .proof)
        (fun c => c.proofSize.toNat) len.toNat (cdata.slice len.toNat) t t')
      (fun _ _ => False) t := by
  simp only [proofChunk, wp_bind, wp_updateHash, Fw.wp_modifyCtx, Fw.wp_getCtx, wp_ite,
    wp_uxFlowInit, wp_waitForButton, wp_sendSuccessNoIdle]
  constructor
  · intro hz
    exact ⟨⟨hs, left_uint16 _ _, rfl, rfl, rfl⟩, fun h => absurd (left_zero_uint16 hz) h⟩
  · intro _
    exact ⟨⟨hs, left_uint16 _ _, rfl, rfl, rfl⟩, fun _ => by simp [flows]⟩

theorem transferToPublicProofs_counts : (transferToPublicProofs sdk u).Counts (2 ^ 16) := by
  refine Counts.of_counted (fun c => handleSignTransferToPublic sdk c.cdata c.p1 c.lc false)
    (fun c => proofChunk c.cdata c.lc) (by decide) (fun c => c.proofSize.toNat_lt) rfl ?_ ?_
    (fun c t hs => proofChunk_spec _ _ t hs)
  · intro c hins
    show mainHandler sdk u c false = _
    unfold mainHandler
    rw [hins]
    rfl
  · intro c t hp1 hs
    open SignTransferToPublic in
    show (ite (c.p1 = p1Initial ∧ t.ctx.state = .initial) _
      (ite (c.p1 = p1RemainingAmount ∧ t.ctx.state = .remainingAmount) _
        (ite (c.p1 = p1Proof ∧ t.ctx.state = .proof) _ _)) : Fw _ PUnit) t = _
    rw [if_neg (by simp [hs]), if_neg (by simp [hs]), if_pos ⟨hp1, hs⟩]
    rfl

end Main

/-! ## The auxiliary data of a protocol update and the verify key of an identity provider -/

section Governance

variable (sdk : Sdk) (v : GovernanceContext μ ν)

def protocolAuxiliaryData : StreamedPart μ :=
  onMember (governanceApp sdk v) insUpdateProtocol SignUpdateProtocol.p1AuxiliaryData
    v.signUpdateProtocolContext (fun c => c.state = .auxiliaryData)
    (fun c => c.payloadLength.toNat) offersSign false

/-- The screen with the hash of the key. -/
def showsVerifyKey (steps : List Step) : Bool := steps.any fun st => st.title == "Verify Key Hash"

def identityProviderVerifyKey : StreamedPart μ :=
  onMember (governanceApp sdk v) insAddIdentityProvider SignAddIdentityProvider.p1VerifyKey
    v.signAddIdentityProvider (fun c => c.inner.state = .verifyKey)
    (fun c => c.inner.verifyKeyLength.toNat) showsVerifyKey true

theorem auxiliaryData_spec (cdata : Ptr) (len : UInt8) (t : Device SignUpdateProtocol.Context)
    (hs : t.ctx.state = .auxiliaryData) :
    wp (SignUpdateProtocol.handleAuxiliaryData cdata len)
      (fun _ t' => Counted (2 ^ 64)
        (fun c : SignUpdateProtocol.Context => c.state = .auxiliaryData)
        (fun c => c.payloadLength.toNat) len.toNat (cdata.slice len.toNat) t t')
      (fun _ _ => False) t := by
  simp only [SignUpdateProtocol.handleAuxiliaryData, wp_bind, wp_updateHash, Fw.wp_modifyCtx,
    Fw.wp_getCtx, wp_ite, wp_uxFlowInit, wp_waitForButton, wp_sendSuccessNoIdle, Fw.wp_throw]
  refine ⟨fun hz => ?_, fun hz => ⟨fun _ => ?_, fun hpos => ?_⟩⟩
  · exact ⟨⟨hs, left_uint64 _ _, rfl, rfl, rfl⟩, fun h => absurd (left_zero_uint64 hz) h⟩
  · exact ⟨⟨hs, left_uint64 _ _, rfl, rfl, rfl⟩, fun _ => by simp [flows]⟩
  · -- an unsigned number that is not 0 is positive
    apply hpos
    rw [gt_iff_lt, UInt64.lt_iff_toNat_lt]
    exact Nat.pos_of_ne_zero fun h => hz (UInt64.toNat_inj.mp h)

theorem protocolAuxiliaryData_counts : (protocolAuxiliaryData sdk v).Counts (2 ^ 64) := by
  refine Counts.of_counted (fun c => handleSignUpdateProtocol c.cdata c.p1 c.lc false)
    (fun c => SignUpdateProtocol.handleAuxiliaryData c.cdata c.lc) (by decide)
    (fun c => c.payloadLength.toNat_lt) rfl ?_ ?_
    (fun c t hs => auxiliaryData_spec _ _ t hs)
  · intro c hins
    show governanceHandler sdk v c false = _
    unfold governanceHandler
    rw [hins]
    rfl
  · intro c t hp1 hs
    open SignUpdateProtocol in
    show (ite (c.p1 = p1Initial ∧ t.ctx.state = .initial) _
      (ite (c.p1 = p1TextLength ∧ t.ctx.state = .textLength) _
        (ite (c.p1 = p1Text ∧ t.ctx.state = .text) _
          (ite (c.p1 = p1SpecificationHash ∧ t.ctx.state = .specificationHash) _
            (ite (c.p1 = p1AuxiliaryData ∧ t.ctx.state = .auxiliaryData) _ _)))) : Fw _ PUnit) t = _
    rw [if_neg (by simp [hs]), if_neg (by simp [hs]), if_neg (by simp [hs]), if_neg (by simp [hs]),
      if_pos ⟨hp1, hs⟩]

theorem verifyKey_more (cdata : Ptr) (len : UInt8) (t : Device SignAddIdentityProvider.Blob)
    (hs : t.ctx.inner.state = .verifyKey)
    (h : left (2 ^ 32) t.ctx.inner.verifyKeyLength.toNat len.toNat ≠ 0) :
    wp (SignAddIdentityProvider.handleVerifyKey sdk cdata len)
      (fun _ t' => flows t'.shared.log = flows t.shared.log ∧
        Leads (fun c : SignAddIdentityProvider.Blob => c.inner.state = .verifyKey)
          (fun c => c.inner.verifyKeyLength.toNat)
          (left (2 ^ 32) t.ctx.inner.verifyKeyLength.toNat len.toNat) (cdata.slice len.toNat) t t')
      (fun _ _ => False) t := by
  simp only [SignAddIdentityProvider.handleVerifyKey, wp_bind, wp_updateHash,
    WithDescription.wp_modifyInner, WithDescription.wp_getInner, wp_ite, wp_sendSuccessNoIdle]
  refine ⟨fun hz => absurd ?_ h, fun _ => ?_⟩
  · rw [← left_uint32]
    exact congrArg UInt32.toNat hz
  · exact ⟨by simp [flows], hs, left_uint32 _ _, rfl, rfl, rfl⟩

theorem verifyKey_last (cdata : Ptr) (len : UInt8) (t : Device SignAddIdentityProvider.Blob)
    (h : left (2 ^ 32) t.ctx.inner.verifyKeyLength.toNat len.toNat = 0) :
    wp (SignAddIdentityProvider.handleVerifyKey sdk cdata len)
      (fun _ t' => ¬ t'.ctx.inner.state = .verifyKey ∧
        t'.shared.hash = t.shared.hash ++ cdata.slice len.toNat)
      (fun _ _ => True) t := by
  rw [← left_uint32] at h
  have hzero : t.ctx.inner.verifyKeyLength - len.toUInt32 = 0 := UInt32.toNat_inj.mp h
  simp only [SignAddIdentityProvider.handleVerifyKey, wp_bind, wp_updateHash,
    WithDescription.wp_modifyInner, WithDescription.wp_getInner, wp_ite, Fw.wp_eval,
    SignAddIdentityProvider.setState, wp_uxFlowInit, wp_waitForButton, implies_true, and_true]
  refine ⟨fun _ _ _ => ⟨?_, rfl⟩, fun hz => absurd hzero hz⟩
  intro hstate
  cases hstate

/-- In every other phase a chunk of the verify key is rejected. -/
theorem verifyKey_out (cdata : Ptr) (len : UInt8) (t : Device SignAddIdentityProvider.Blob)
    (hs : ¬ t.ctx.inner.state = .verifyKey) :
    wp (handleSignAddIdentityProvider sdk cdata SignAddIdentityProvider.p1VerifyKey len false)
      (fun _ _ => False) (fun _ _ => True) t := by
  open SignAddIdentityProvider in
  simp only [handleSignAddIdentityProvider, wp_bind, Fw.wp_when, WithDescription.wp_getInner,
    wp_ite, hs, false_implies, not_false_eq_true, true_implies, Fw.wp_throw,
    Bool.false_eq_true, true_and]
  refine ⟨fun h => absurd h.1 (by decide), fun _ => ⟨fun h => absurd h.1 (by decide), fun _ =>
    ⟨fun h => absurd h.1 (by decide), fun _ => ⟨fun h => absurd h.1 (by decide), fun _ => trivial⟩⟩⟩⟩

theorem identityProviderVerifyKey_counts : (identityProviderVerifyKey sdk v).Counts (2 ^ 32) := by
  refine Counts.of_member
    (fun c => handleSignAddIdentityProvider sdk c.cdata c.p1 c.lc false)
    (fun c => SignAddIdentityProvider.handleVerifyKey sdk c.cdata c.lc) (by decide)
    (fun c => c.inner.verifyKeyLength.toNat_lt) rfl ?_ ?_
    (fun c t hs h => verifyKey_more sdk _ _ t hs h) ?_ ?_
  · intro c hins
    show governanceHandler sdk v c false = _
    unfold governanceHandler
    rw [hins]
    rfl
  · intro c t hp1 hs
    open SignAddIdentityProvider in
    show (ite (c.p1 = p1Initial ∧ t.ctx.inner.state = .initial) _
      (ite (c.p1 = p1DescriptionLength ∧ t.ctx.inner.state = .descriptionLength) _
        (ite (c.p1 = p1Description ∧ t.ctx.inner.state = .description) _
          (ite (c.p1 = p1VerifyKey ∧ t.ctx.inner.state = .verifyKey) _ _))) : Fw _ PUnit) t = _
    rw [if_neg (by simp [hs]), if_neg (by simp [hs]), if_neg (by simp [hs]), if_pos ⟨hp1, hs⟩]
  · intro c t _ h
    refine wp_mono (verifyKey_last sdk _ _ t h) (fun _ t' hq => ?_) fun _ _ _ => rfl
    rw [if_pos rfl]
    exact hq
  · intro _ c t hp1 hs
    have hw := verifyKey_out sdk c.cdata c.lc t hs
    rw [show SignAddIdentityProvider.p1VerifyKey = c.p1 from hp1.symm] at hw
    exact hw

end Governance

/-! ## All streamed parts -/

def mainParts (sdk : Sdk) (u : InstructionContext μ) : List (StreamedPart μ) :=
  [encryptedTransferProofs sdk u, encryptedTransferWithMemoProofs sdk u,
    transferToPublicProofs sdk u]

def governanceParts (sdk : Sdk) (v : GovernanceContext γ ν) : List (StreamedPart γ) :=
  [protocolAuxiliaryData sdk v, identityProviderVerifyKey sdk v]

/-- Each streamed part of the two applications is received exactly as declared if and only if no
chunk takes more than what remains. -/
theorem streamed_exactly_iff (sdk : Sdk) (u : InstructionContext μ) (v : GovernanceContext γ ν) :
    (∀ p ∈ mainParts sdk u, ∀ d n cs, p.Receives d n → (∀ c ∈ cs, p.IsChunk c) →
      (p.ExactlyDeclared d n cs ↔ p.Fits n cs)) ∧
    ∀ p ∈ governanceParts sdk v, ∀ d n cs, p.Receives d n → (∀ c ∈ cs, p.IsChunk c) →
      (p.ExactlyDeclared d n cs ↔ p.Fits n cs) := by
  constructor
  · intro p hp d n cs hr hcs
    simp only [mainParts, List.mem_cons, List.not_mem_nil, or_false] at hp
    rcases hp with rfl | rfl | rfl
    · exact exactlyDeclared_iff_fits (encryptedTransferProofs_counts sdk u) hr hcs
    · exact exactlyDeclared_iff_fits (encryptedTransferWithMemoProofs_counts sdk u) hr hcs
    · exact exactlyDeclared_iff_fits (transferToPublicProofs_counts sdk u) hr hcs
  · intro p hp d n cs hr hcs
    simp only [governanceParts, List.mem_cons, List.not_mem_nil, or_false] at hp
    rcases hp with rfl | rfl
    · exact exactlyDeclared_iff_fits (protocolAuxiliaryData_counts sdk v) hr hcs
    · exact exactlyDeclared_iff_fits (identityProviderVerifyKey_counts sdk v) hr hcs

/-! ## One byte of auxiliary data -/

section OneByte

open SignUpdateProtocol

def protocolCommand (p1 : UInt8) (data : List UInt8) : Apdu := sent insUpdateProtocol p1 0 data

/-- A protocol update with the message `m`, the URL `u` and one byte of auxiliary data, up to the
auxiliary data. -/
def upToAuxiliaryData : List Event :=
  [ .command (protocolCommand p1Initial
      ([0] ++ List.replicate 28 0 ++ [UpdateType.protocol] ++ [0, 0, 0, 0, 0, 0, 0, 51])),
    .command (protocolCommand p1TextLength [0, 0, 0, 0, 0, 0, 0, 1]),
    .command (protocolCommand p1Text (ascii "m")), .press 2,
    .command (protocolCommand p1TextLength [0, 0, 0, 0, 0, 0, 0, 1]),
    .command (protocolCommand p1Text (ascii "u")), .press 0,
    .command (protocolCommand p1SpecificationHash (List.replicate 32 0)), .press 0 ]

/-- The part in which the byte is received. -/
def oneBytePart : StreamedPart GovernanceContexts :=
  protocolAuxiliaryData zeroAddressSdk GovernanceContexts.layout

theorem oneBytePart_receives :
    ∃ d, Run (step oneBytePart.app) (fun _ _ => True) bootedGovernance d ∧
      oneBytePart.Receives d 1 := by
  have hex : ((exec (guarded (step oneBytePart.app) fun _ _ => True) bootedGovernance
      upToAuxiliaryData).any fun d =>
        d.shared.running && d.shared.currentInstruction == some insUpdateProtocol &&
          d.ctx.signUpdateProtocolContext.state == .auxiliaryData &&
          d.ctx.signUpdateProtocolContext.payloadLength == 1) = true := by
    decide
  obtain ⟨d, hd, hc⟩ := (Option.any_eq_true _ _).mp hex
  simp only [Bool.and_eq_true, beq_iff_eq] at hc
  obtain ⟨⟨⟨hr, hi⟩, hs⟩, hp⟩ := hc
  exact ⟨d, exec_run hd, hr, hi, hs, congrArg UInt64.toNat hp⟩

theorem oneBytePart_chunk (data : List UInt8) :
    oneBytePart.IsChunk (protocolCommand p1AuxiliaryData data) := ⟨rfl, rfl, rfl⟩

theorem streamed_exactly_one_byte :
    ∃ d, Run (step oneBytePart.app) (fun _ _ => True) bootedGovernance d ∧
      oneBytePart.ExactlyDeclared d 1 [protocolCommand p1AuxiliaryData [7]] := by
  obtain ⟨d, hrun, hr⟩ := oneBytePart_receives
  refine ⟨d, hrun, ((streamed_exactly_iff zeroAddressSdk Contexts.layout
    GovernanceContexts.layout).2 oneBytePart List.mem_cons_self d 1
    [protocolCommand p1AuxiliaryData [7]] hr fun c hc => ?_).mpr ⟨by decide, .inr trivial⟩⟩
  cases List.mem_singleton.mp hc
  exact oneBytePart_chunk [7]

/-- Two bytes are not rejected where one was declared. -/
theorem two_bytes_for_one :
    ∃ d, Run (step oneBytePart.app) (fun _ _ => True) bootedGovernance d ∧
      oneBytePart.Receives d 1 ∧ oneBytePart.IsChunk (protocolCommand p1AuxiliaryData [7, 7]) ∧
      ¬ oneBytePart.ExactlyDeclared d 1 [protocolCommand p1AuxiliaryData [7, 7]] := by
  obtain ⟨d, hrun, hr⟩ := oneBytePart_receives
  refine ⟨d, hrun, hr, oneBytePart_chunk [7, 7], fun h => ?_⟩
  have hfits := fits_of_exactlyDeclared
    (protocolAuxiliaryData_counts zeroAddressSdk GovernanceContexts.layout) hr
    (by intro c hc; cases List.mem_singleton.mp hc; exact oneBytePart_chunk [7, 7]) h
  exact absurd hfits.1 (by decide)

end OneByte

end ConcordiumLedger
