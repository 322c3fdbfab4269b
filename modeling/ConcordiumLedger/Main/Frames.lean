import ConcordiumLedger.Common.Screens
import ConcordiumLedger.Main.App

/-!
# Main.Frames

The frames of the handlers and callbacks of the main application.
-/

namespace ConcordiumLedger

open CMem CProg CProg.Prog

set_option synthInstance.maxSize 20000

variable {μ γ : Type} {R S T : Shared → Shared → Prop} {K : ScreenKind → Prop}
  [Steady R] [Screens K R S] [Waits R S T] [Permits K .shared]
variable (sdk : Sdk) (cdata : Ptr) (p1 p2 lc kind : UInt8) (b : Bool)

namespace MainHandlers

/-! ## Screens -/

theorem only_optional {cbs : List Callback} {c : Prop} [Decidable c] {flow : List Step}
    (h : Only cbs flow) : Only cbs (if c then flow else []) := by
  split
  · exact h
  · exact fun _ hst => by cases hst

section Flows

attribute [local simp] Only ScreenKind.callbacks uxSignFlowShared uxSignFlowSharedReview
  uxSignFlowAccountSenderView uxSignFlowSharedSign uxSignFlowSharedDecline

instance : OfKind (.own .sendSuccess) fun d : Device VerifyAddress.Context =>
    VerifyAddress.uxVerifyAddress d.ctx :=
  ⟨fun _ => by simp [VerifyAddress.uxVerifyAddress]⟩

instance : OfKind (.own .exportPrivateKey) fun d : Device ExportPrivateKey.Context =>
    ExportPrivateKey.uxExportPrivateKey d.ctx :=
  ⟨fun _ => by simp [ExportPrivateKey.uxExportPrivateKey]⟩

instance : OfKind .shared SignTransferToEncrypted.uxSignTransferToEncrypted :=
  ⟨fun _ => by simp [SignTransferToEncrypted.uxSignTransferToEncrypted]⟩

instance : OfKind .shared SignTransferToPublic.uxSignTransferToPublic :=
  ⟨fun _ => by simp [SignTransferToPublic.uxSignTransferToPublic]⟩

instance : OfKind (.own .processNextScheduledAmount) fun d : Device SignTransferWithSchedule.Blob =>
    SignTransferWithSchedule.uxSignScheduledTransferPairFlow d.ctx.inner :=
  ⟨fun _ => by simp [SignTransferWithSchedule.uxSignScheduledTransferPairFlow,
    SignTransferWithSchedule.pairSteps]⟩

instance : OfKind .shared fun d : Device SignTransferWithSchedule.Blob =>
    SignTransferWithSchedule.uxSignScheduledTransferPairFlowSign d.ctx.inner :=
  ⟨fun _ => by simp [SignTransferWithSchedule.uxSignScheduledTransferPairFlowSign,
    SignTransferWithSchedule.pairSteps]⟩

instance : OfKind (.own .handleData) fun d : Device SignRegisterData.Blob =>
    SignRegisterData.uxRegisterDataPayload d.ctx.cborContext :=
  ⟨fun _ => by simp [SignRegisterData.uxRegisterDataPayload]⟩

instance : OfKind .shared fun d : Device SignRegisterData.Blob =>
    SignRegisterData.uxRegisterDataInitial d.shared :=
  ⟨fun _ => by simp [SignRegisterData.uxRegisterDataInitial]⟩

instance : OfKind .shared fun _ : Device γ => uxSignFlowShared := ⟨fun _ => by simp⟩

instance : OfKind .shared fun d : Device SignPublicInformationForIp.Context =>
    SignPublicInformationForIp.uxPublicKeyFlow d.ctx := by
  refine ⟨fun _ => (only_optional ?_).append ?_⟩
  · simp [SignPublicInformationForIp.uxReview]
  · simp [SignPublicInformationForIp.uxDisplayPublicKey, SignPublicInformationForIp.uxContinue]

instance : OfKind .shared fun d : Device SignPublicInformationForIp.Context =>
    SignPublicInformationForIp.uxFinalFlow d.ctx := by
  refine ⟨fun _ => (only_optional ?_).append ?_⟩
  · simp [SignPublicInformationForIp.uxReview]
  · simp [SignPublicInformationForIp.uxDisplayPublicKey]

section Credential

open SignCredentialDeployment

theorem only_withIntro {cbs : List Callback} {b : Bool} {flow : List Step}
    (hintro : .sendSuccessNoIdle ∈ cbs) (h : Only cbs flow) : Only cbs (withIntro b flow) := by
  unfold withIntro
  split
  · exact fun st hst => by
      rcases List.mem_cons.mp hst with rfl | hst
      · exact hintro
      · exact h st hst
  · exact h

instance : OfKind (.own .processNextVerificationKey) fun d : Device Context =>
    withIntro d.ctx.showIntro (uxVerificationKeyFlow d.ctx) :=
  ⟨fun _ => only_withIntro (by simp) (by simp [uxVerificationKeyFlow, uxPublicKey])⟩

instance : OfKind .shared fun d : Device Context =>
    withIntro d.ctx.showIntro (uxSignCredentialDeploymentNew d.ctx) :=
  ⟨fun _ => only_withIntro (by simp)
    (by simp [uxSignCredentialDeploymentNew, keyAndThresholds, uxPublicKey, signDetails])⟩

instance : OfKind .shared fun d : Device Context =>
    withIntro d.ctx.showIntro (uxSignCredentialDeploymentExisting d.ctx) :=
  ⟨fun _ => only_withIntro (by simp)
    (by simp [uxSignCredentialDeploymentExisting, keyAndThresholds, uxPublicKey, signDetails])⟩

instance : OfKind .shared fun d : Device Context => uxUpdateCredentialsInitialFlow d.shared :=
  ⟨fun _ => by simp [uxUpdateCredentialsInitialFlow]⟩

instance : OfKind .shared fun d : Device Context => uxSignCredentialUpdateId d.ctx :=
  ⟨fun _ => by simp [uxSignCredentialUpdateId]⟩

instance : OfKind .shared fun d : Device Context => uxSignCredentialUpdateThreshold d.ctx :=
  ⟨fun _ => by simp [uxSignCredentialUpdateThreshold]⟩

end Credential

section Configure

open SignConfigureBaker

theorem only_reviewSteps (b : Bool) (s : Shared) :
    Only ScreenKind.shared.callbacks (reviewSteps b s) :=
  only_optional (by simp)

theorem only_optionalStep {b : Bool} {st : Step} (h : st.callback = .none) :
    Only ScreenKind.shared.callbacks (optionalStep b st) :=
  only_optional (by simp [h])

theorem only_closingSteps (b : Bool) : Only ScreenKind.shared.callbacks (closingSteps b) := by
  cases b <;> simp [closingSteps, uxContinue]

instance : OfKind .shared uxSignConfigureBakerFirst := by
  refine ⟨fun d => ?_⟩
  refine .append (.append (.append (.append (.append (only_reviewSteps _ _) (only_optionalStep ?_))
    (only_optionalStep rfl)) (only_optionalStep rfl)) (only_optionalStep rfl)) (only_closingSteps _)
  split <;> rfl

instance (b : Bool) : OfKind .shared (uxSignConfigureBakerUrl b) := by
  refine ⟨fun d => (only_reviewSteps _ _).append ?_⟩
  cases b with
  | true =>
    refine .append (f := [_]) ?_ (only_closingSteps _)
    split <;> simp
  | false => simp

instance : OfKind .shared uxSignConfigureBakerCommission :=
  ⟨fun _ => .append (.append (.append (.append (.append (only_reviewSteps _ _)
    (only_optionalStep rfl)) (only_optionalStep rfl)) (only_optionalStep rfl))
    (only_optionalStep rfl)) (only_closingSteps _)⟩

instance : Shows K R S SignConfigureDelegation.startDisplay := by
  refine .of_only fun d => ?_
  refine .append (.append (.append (.append (by simp) (only_optional ?_))
    (only_optional (by simp))) (only_optional (by simp))) (by simp)
  split <;> simp

end Configure

/-- The screens with a memo in them. -/
theorem only_withMemo {cbs : List Callback} {c : Prop} [Decidable c] {front back : List Step}
    {cbor : CborContext} (hnone : .none ∈ cbs) (hf : Only cbs front) (hb : Only cbs back) :
    Only cbs (front ++ (if c then [uxDisplayMemoStepNocb cbor] else []) ++ back) :=
  (hf.append (only_optional (by simp [uxDisplayMemoStepNocb, hnone]))).append hb

instance : Shows K R S (SignTransfer.startTransferDisplay b) :=
  .of_only fun _ => only_withMemo (by simp) (by simp) (by simp)

instance : Shows K R S (SignEncryptedAmountTransfer.startEncryptedTransferDisplay b) :=
  .of_only fun _ => only_withMemo (by simp) (by simp) (by simp)

instance : Shows K R S (SignTransferWithSchedule.startInitialScheduledTransferDisplay b) :=
  .of_only fun _ => only_withMemo (by simp) (by simp) (by simp)

end Flows

instance (path : List UInt32) : Moves R (getBlsPrivateKey sdk path : Fw γ (List UInt8)) := by
  unfold getBlsPrivateKey
  infer_instance

instance [Permits K (.own .sendSuccess)] : Ends K R S T (handleVerifyAddress sdk cdata) := by
  unfold handleVerifyAddress
  refine @Ends.bind _ _ _ _ _ _ _ _ _ _ _ _ fun _ => @Ends.bind _ _ _ _ _ _ _ _ _ _ _ _ fun _ =>
    @Ends.bind _ _ _ _ _ _ _ _ _ _ _ _ fun prf => ?_
  cases sdk.getCredId prf (cdata.u4be 4) <;> infer_instance

instance {α : Type} {x : Fw CborContext α} [h : Moves R x] :
    Moves R (Fw.onCbor x : Fw (WithDataBlob γ) α) := by
  refine ⟨fun t => ?_⟩
  unfold Fw.onCbor
  rw [wp_zoom]
  exact h.holds ⟨t.ctx.cborContext, t.shared⟩

instance : Moves R (readCborContent cdata lc) := by
  unfold readCborContent
  infer_instance

instance (off : Nat) (n : UInt64) : Moves R (displayNumber off n) := by
  unfold displayNumber
  infer_instance

instance (n : UInt64) : Moves R (displayNegative n) := by
  unfold displayNegative
  infer_instance

instance : Moves R (readCborInitial cdata lc) := by
  unfold readCborInitial
  refine @Moves.bind _ _ _ _ _ _ _ _ fun _ => @Moves.bind _ _ _ _ _ _ _ _ fun p => ?_
  obtain ⟨size, length⟩ := p
  infer_instance

instance : Moves R (memoLength cdata : Fw (WithDataBlob γ) PUnit) := by
  unfold memoLength
  infer_instance

instance {x y : Fw (WithDataBlob γ) PUnit} [Ends K R S T x]
    [Ends K R S T y] : Ends K R S T (memoInitial cdata lc x y) := by
  unfold memoInitial
  infer_instance

instance {x : Fw (WithDataBlob γ) PUnit} [Ends K R S T x] :
    Ends K R S T (memoContent cdata lc x) := by
  unfold memoContent
  infer_instance

section Transfer

open SignTransfer

instance [Inits R] [Loads R cdata] : Moves R (SignTransfer.header sdk cdata kind) := by
  unfold SignTransfer.header
  refine @Moves.bind _ _ _ _ _ _ _ _ fun _ => @Moves.bind _ _ _ _ _ _ _ _ fun p => ?_
  obtain ⟨read, recipient⟩ := p
  infer_instance

instance (s : SignTransfer.State) : Moves R (SignTransfer.setState s) := by
  unfold SignTransfer.setState
  infer_instance

instance : Moves R (amount cdata) := by
  unfold amount
  infer_instance

instance : Shows K R S (finishMemo) := by
  unfold finishMemo
  infer_instance

instance [Inits R] [Loads R cdata] : Ends K R S T (handleSignTransfer sdk cdata) := by
  unfold handleSignTransfer
  infer_instance

instance [Inits R] [Loads R cdata] : Ends K R S T
    (handleSignTransferWithMemo sdk cdata p1 lc b) := by
  unfold handleSignTransferWithMemo
  infer_instance

end Transfer

section Encrypted

open SignEncryptedAmountTransfer

instance [Inits R] [Loads R cdata] : Moves R
    (SignEncryptedAmountTransfer.header sdk cdata kind) := by
  unfold SignEncryptedAmountTransfer.header
  refine @Moves.bind _ _ _ _ _ _ _ _ fun _ => @Moves.bind _ _ _ _ _ _ _ _ fun p => ?_
  obtain ⟨read, recipient⟩ := p
  infer_instance

instance (s : SignEncryptedAmountTransfer.State) : Moves R
    (SignEncryptedAmountTransfer.setState s) := by
  unfold SignEncryptedAmountTransfer.setState
  infer_instance

instance : Shows K R S (handleRemainingAmount cdata) := by
  unfold handleRemainingAmount
  infer_instance

instance : Shows K R S (handleTransferAmountAggIndexProofSize cdata) := by
  unfold handleTransferAmountAggIndexProofSize
  infer_instance

instance : Ends K R S T (SignEncryptedAmountTransfer.handleProofs cdata lc b) := by
  unfold SignEncryptedAmountTransfer.handleProofs
  infer_instance

instance : Shows K R S (finishMemoEncrypted) := by
  unfold finishMemoEncrypted
  infer_instance

instance [Inits R] [Loads R cdata] : Ends K R S T
    (handleSignEncryptedAmountTransfer sdk cdata p1 lc b) := by
  unfold handleSignEncryptedAmountTransfer
  infer_instance

instance [Inits R] [Loads R cdata] : Ends K R S T
    (handleSignEncryptedAmountTransferWithMemo sdk cdata p1 lc b) := by
  unfold handleSignEncryptedAmountTransferWithMemo
  infer_instance

instance [Inits R] [Loads R cdata] : Ends K R S T (handleSignTransferToEncrypted sdk cdata) := by
  unfold handleSignTransferToEncrypted
  infer_instance

instance (s : SignTransferToPublic.State) : Moves R (SignTransferToPublic.setState s) := by
  unfold SignTransferToPublic.setState
  infer_instance

instance [Inits R] [Loads R cdata] : Ends K R S T
    (handleSignTransferToPublic sdk cdata p1 lc b) := by
  unfold handleSignTransferToPublic
  infer_instance

end Encrypted

section Schedule

open SignTransferWithSchedule

instance [Inits R] [Loads R cdata] : Moves R (SignTransferWithSchedule.header sdk cdata kind) := by
  unfold SignTransferWithSchedule.header
  refine @Moves.bind _ _ _ _ _ _ _ _ fun _ => @Moves.bind _ _ _ _ _ _ _ _ fun p => ?_
  obtain ⟨read, recipient⟩ := p
  infer_instance

instance (s : SignTransferWithSchedule.State) : Moves R (SignTransferWithSchedule.setState s) := by
  unfold SignTransferWithSchedule.setState
  infer_instance

instance : Moves R releaseTime := by
  unfold releaseTime
  refine @Moves.bind _ _ _ _ _ _ _ _ fun ctx => @Moves.bind _ _ _ _ _ _ _ _ fun _ =>
    @Moves.bind _ _ _ _ _ _ _ _ fun _ => ?_
  cases secondsToTm (ctx.inner.buffer.ptr.u8be ctx.inner.pos.toNat / 1000).toNat <;> infer_instance

instance : Moves R (releaseAmount) := by
  unfold releaseAmount
  infer_instance

instance [Permits K (.own .processNextScheduledAmount)] :
    Shows K R S processNextScheduledAmount := by
  unfold processNextScheduledAmount
  infer_instance

instance [Permits K (.own .processNextScheduledAmount)] : Ends K R S T
    (handleTransferPairs cdata) := by
  unfold handleTransferPairs
  infer_instance

instance : Ends K R S T finishMemoScheduled := by
  unfold finishMemoScheduled
  infer_instance

instance [Permits K (.own .processNextScheduledAmount)] [Inits R] [Loads R cdata] : Ends K R S T
    (handleSignTransferWithSchedule sdk cdata p1 b) := by
  unfold handleSignTransferWithSchedule
  infer_instance

instance [Permits K (.own .processNextScheduledAmount)] [Inits R] [Loads R cdata] : Ends K R S T
    (handleSignTransferWithScheduleAndMemo sdk cdata p1 lc b) := by
  unfold handleSignTransferWithScheduleAndMemo
  infer_instance

end Schedule

section Credential

open SignCredentialDeployment

instance (s : SignCredentialDeployment.State) : Moves R (SignCredentialDeployment.setState s) := by
  unfold SignCredentialDeployment.setState
  infer_instance

instance (s : UpdateCredentialState) : Moves R (setUpdateState s) := by
  unfold setUpdateState
  infer_instance

instance : Moves R (parseVerificationKey cdata) := by
  unfold parseVerificationKey
  infer_instance

instance [Permits K (.own .processNextVerificationKey)] :
    Shows K R S (SignCredentialDeployment.handleVerificationKey cdata) := by
  unfold SignCredentialDeployment.handleVerificationKey
  infer_instance

instance : Shows K R S (handleSignatureThreshold cdata) := by
  unfold handleSignatureThreshold
  infer_instance

instance : Shows K R S (handleArIdentity cdata) := by
  unfold handleArIdentity
  infer_instance

instance : Shows K R S (handleCredentialDates cdata) := by
  unfold handleCredentialDates
  infer_instance

instance : Shows K R S (handleAttributeTag cdata) := by
  unfold handleAttributeTag
  infer_instance

instance : Shows K R S (handleAttributeValue cdata) := by
  unfold handleAttributeValue
  infer_instance

instance : Shows K R S (handleLengthOfProofs cdata p2) := by
  unfold handleLengthOfProofs
  infer_instance

instance : Shows K R S (SignCredentialDeployment.handleProofs cdata p2) := by
  unfold SignCredentialDeployment.handleProofs
  infer_instance

instance : Shows K R S (handleNewOrExisting sdk cdata) := by
  unfold handleNewOrExisting
  infer_instance

instance [Permits K (.own .processNextVerificationKey)] [Inits R] [Loads R cdata] : Ends K R S T
    (handleSignCredentialDeployment sdk cdata p1 p2 b) := by
  unfold handleSignCredentialDeployment
  infer_instance

instance : Shows K R S (processNextVerificationKey) := by
  unfold processNextVerificationKey
  infer_instance

instance [Inits R] [Loads R cdata] : Ends K R S T (handleUpdateInitial sdk cdata) := by
  unfold handleUpdateInitial
  infer_instance

instance : Shows K R S (handleCredentialIdCount cdata) := by
  unfold handleCredentialIdCount
  infer_instance

instance : Ends K R S T (handleCredentialId cdata) := by
  unfold handleCredentialId
  infer_instance

instance : Ends K R S T (handleUpdateThreshold cdata) := by
  unfold handleUpdateThreshold
  infer_instance

instance [Permits K (.own .processNextVerificationKey)] [Inits R] [Loads R cdata] : Ends K R S T
    (handleSignUpdateCredential sdk cdata p1 p2 b) := by
  unfold handleSignUpdateCredential
  infer_instance

end Credential

section Configure

open SignConfigureBaker

instance (s : SignConfigureBaker.State) : Moves R (SignConfigureBaker.setState s) := by
  unfold SignConfigureBaker.setState
  infer_instance

instance : Still clearFirstDisplay := by
  unfold clearFirstDisplay
  infer_instance

instance : Shows K R S (startConfigureBakerDisplay) := by
  unfold startConfigureBakerDisplay
  infer_instance

instance : Shows K R S (startConfigureBakerUrlDisplay b) := by
  unfold startConfigureBakerUrlDisplay
  infer_instance

instance : Shows K R S (startConfigureBakerCommissionDisplay) := by
  unfold startConfigureBakerCommissionDisplay
  infer_instance

instance [Inits R] [Loads R cdata] : Shows K R S (SignConfigureBaker.handleInitial sdk cdata) := by
  unfold SignConfigureBaker.handleInitial
  infer_instance

instance : Moves R (SignConfigureBaker.readCapital cdata) := by
  unfold SignConfigureBaker.readCapital
  infer_instance

instance : Moves R (SignConfigureBaker.readRestake cdata) := by
  unfold SignConfigureBaker.readRestake
  infer_instance

instance : Moves R (readOpenForDelegation cdata) := by
  unfold readOpenForDelegation
  cases openStatusText (cdata 0) <;> infer_instance

instance (n : Int) : Shows K R S (readKeys cdata n) := by
  unfold readKeys
  infer_instance

instance : Ends K R S T (handleFirstBatch cdata lc) := by
  unfold handleFirstBatch
  infer_instance

instance : Ends K R S T (handleAggregationKey cdata lc) := by
  unfold handleAggregationKey
  infer_instance

instance : Ends K R S T (handleUrlLength cdata) := by
  unfold handleUrlLength
  infer_instance

instance : Ends K R S T (handleUrl cdata lc) := by
  unfold handleUrl
  infer_instance

instance (off : Nat) : Moves R (readRate b cdata off) := by
  unfold readRate
  infer_instance

instance : Shows K R S (handleCommissionRates cdata lc) := by
  unfold handleCommissionRates
  infer_instance

instance [Inits R] [Loads R cdata] : Ends K R S T (handleSignConfigureBaker sdk cdata p1 lc b) := by
  unfold handleSignConfigureBaker
  infer_instance

instance : Moves R (SignConfigureDelegation.readCapital cdata) := by
  unfold SignConfigureDelegation.readCapital
  infer_instance

instance : Moves R (SignConfigureDelegation.readRestake cdata) := by
  unfold SignConfigureDelegation.readRestake
  infer_instance

instance : Moves R (SignConfigureDelegation.readDelegationTarget cdata) := by
  unfold SignConfigureDelegation.readDelegationTarget
  infer_instance

instance [Inits R] [Loads R cdata] : Ends K R S T (handleSignConfigureDelegation sdk cdata lc) := by
  unfold handleSignConfigureDelegation
  infer_instance

end Configure

instance (s : SignPublicInformationForIp.State) : Moves R
    (SignPublicInformationForIp.setState s) := by
  unfold SignPublicInformationForIp.setState
  infer_instance

instance [Inits R] [Loads R cdata] : Shows K R S
    (SignPublicInformationForIp.handleInitial cdata) := by
  unfold SignPublicInformationForIp.handleInitial
  infer_instance

instance : Ends K R S T (SignPublicInformationForIp.handleVerificationKey cdata) := by
  unfold SignPublicInformationForIp.handleVerificationKey
  infer_instance

instance : Ends K R S T (SignPublicInformationForIp.handleThreshold cdata) := by
  unfold SignPublicInformationForIp.handleThreshold
  infer_instance

instance [Inits R] [Loads R cdata] : Ends K R S T
    (handleSignPublicInformationForIp cdata p1 b) := by
  unfold handleSignPublicInformationForIp
  infer_instance

instance (s : SignRegisterData.State) : Moves R (SignRegisterData.setState s) := by
  unfold SignRegisterData.setState
  infer_instance

instance : Moves R (SignRegisterData.readData cdata lc) := by
  unfold SignRegisterData.readData
  refine @Moves.bind _ _ _ _ _ _ _ _ fun ctx => ?_
  cases ctx.inner.state <;> infer_instance

instance : Shows K R S handleData := by
  unfold handleData
  infer_instance

instance [Permits K (.own .handleData)] [Inits R] [Loads R cdata] : Ends K R S T
    (handleSignRegisterData sdk cdata p1 lc b) := by
  unfold handleSignRegisterData
  infer_instance

instance (n : UInt32) : Moves R (exportedKey sdk n) := by
  unfold exportedKey
  infer_instance

instance [Permits K (.own .osSchedExit)] : Shows K R S (exportPrivateKey sdk) := by
  unfold exportPrivateKey
  infer_instance

instance [Permits K (.own .exportPrivateKey)] : Ends K R S T
    (handleExportPrivateKey cdata p1 p2) := by
  unfold handleExportPrivateKey
  infer_instance

end MainHandlers

/-- The handler of a command, along relations for its bytes. -/
theorem mainHandler_ends_of_ne (u : InstructionContext μ) (apdu : Apdu) [Inits R] [Loads R apdu.cdata]
    (hins : apdu.ins ≠ insExportPrivateKey) (hk : ∀ cb, cb ≠ .exportPrivateKey → K (.own cb)) :
    Ends K R S T (mainHandler sdk u apdu b) := by
  have hidle : Permits K (.own .uiIdle) := ⟨hk _ (by decide)⟩
  have hexit : Permits K (.own .osSchedExit) := ⟨hk _ (by decide)⟩
  have hsuccess : Permits K (.own .sendSuccess) := ⟨hk _ (by decide)⟩
  have hkey : Permits K (.own .sendPublicKey) := ⟨hk _ (by decide)⟩
  have hpair : Permits K (.own .processNextScheduledAmount) := ⟨hk _ (by decide)⟩
  have hverification : Permits K (.own .processNextVerificationKey) := ⟨hk _ (by decide)⟩
  have hdata : Permits K (.own .handleData) := ⟨hk _ (by decide)⟩
  unfold mainHandler
  dsimp only
  rw [if_neg hins]
  infer_instance

instance mainHandler_ends (u : InstructionContext μ) (apdu : Apdu) [Inits R] [Loads R apdu.cdata]
    [∀ cb, Permits K (.own cb)] : Ends K R S T (mainHandler sdk u apdu b) := by
  unfold mainHandler
  infer_instance

instance mainOwnCallback_shows (u : InstructionContext μ) (cb : Callback)
    [Permits K (.own .osSchedExit)] [Permits K (.own .uiIdle)]
    [Permits K (.own .processNextScheduledAmount)] : Shows K R S (mainOwnCallback sdk u cb) := by
  cases cb <;> unfold mainOwnCallback <;> infer_instance

theorem mainApp_framed (u : InstructionContext μ) {R T : Ptr → Shared → Shared → Prop}
    {K : Shared → Shared → Prop} [∀ cdata, Frame (R cdata)]
    [∀ cdata, Waits (R cdata) (R cdata) (T cdata)] [∀ cdata, Loads (R cdata) cdata] [Frame K] :
    Framed (mainApp sdk u) R T K where
  handler apdu b := mainHandler_ends sdk b u apdu
  callback := Moves.sharedCallback fun cb => mainOwnCallback_shows sdk u cb

/-- The screen with the export step only comes up with a command to export keys. -/
theorem mainApp_screened (u : InstructionContext μ) :
    Screened (mainApp sdk u) insExportPrivateKey (· = .own .exportPrivateKey) where
  handler c b t := by
    let K (k : ScreenKind) : Prop := k = .own .exportPrivateKey → c.ins = insExportPrivateKey
    have hends : Ends K Touched (Shown K) (Ended K) (mainHandler sdk u c b) := by
      by_cases hins : c.ins = insExportPrivateKey
      · have hall : ∀ k, Permits K k := fun k => ⟨fun _ => hins⟩
        infer_instance
      · have hshared : Permits K .shared := ⟨fun h => by cases h⟩
        refine mainHandler_ends_of_ne sdk b u c hins fun cb hcb h => ?_
        injection h with h
        exact absurd h hcb
    exact hends.holds t
  shared cb hcb t := sharedCallback_passed t sdk hcb
  own cb hcb t := by
    let K (k : ScreenKind) : Prop := ¬ k = .own .exportPrivateKey
    have hshared : Permits K .shared := ⟨by simp [K]⟩
    have hexit : Permits K (.own .osSchedExit) := ⟨by simp [K]⟩
    have hidle : Permits K (.own .uiIdle) := ⟨by simp [K]⟩
    have hpair : Permits K (.own .processNextScheduledAmount) := ⟨by simp [K]⟩
    have hown : (mainApp sdk u).callback cb = mainOwnCallback sdk u cb := by
      cases cb <;> first | rfl | cases hcb
    have hshows : Shows K Touched (Shown K) (mainOwnCallback sdk u cb) := inferInstance
    rw [hown]
    exact hshows.holds t

end ConcordiumLedger
