import ConcordiumLedger.Common.Screens
import ConcordiumLedger.Governance.App

/-!
# Governance.Frames

The frames of the handlers and callbacks of the governance application.
-/

namespace ConcordiumLedger

open CMem CProg CProg.Prog

set_option synthInstance.maxSize 20000

variable {μ ν γ : Type} {R S T : Shared → Shared → Prop} {K : ScreenKind → Prop}
  [Steady R] [Screens K R S] [Waits R S T] [Permits K .shared]
variable (sdk : Sdk) (cdata : Ptr) (p1 p2 lc kind : UInt8) (b : Bool)

namespace GovernanceHandlers

/-! ## Screens -/

section Flows

attribute [local simp] Only ScreenKind.callbacks uxSignFlowShared uxSignFlowSharedReview
  uxSignFlowSharedSign uxSignFlowSharedDecline uxSignAndDecline uxUpdateType

instance : OfKind .shared fun _ : Device γ => uxSignFlowShared := ⟨fun _ => by simp⟩

instance : OfKind .shared fun d : Device SignUpdateExchangeRate.Context =>
      SignUpdateExchangeRate.uxSignExchangeRate d.ctx :=
  ⟨fun _ => by simp [SignUpdateExchangeRate.uxSignExchangeRate]⟩

instance : OfKind .shared fun d : Device SignUpdateFoundationAccount.Context =>
      SignUpdateFoundationAccount.uxSignFoundationAccountAddress d.ctx :=
  ⟨fun _ => by simp [SignUpdateFoundationAccount.uxSignFoundationAccountAddress]⟩

instance : OfKind .shared fun d : Device SignUpdateGasRewards.Context =>
      SignUpdateGasRewards.uxSignGasRewards d.ctx :=
  ⟨fun _ => by simp [SignUpdateGasRewards.uxSignGasRewards]⟩

instance : OfKind .shared fun d : Device SignUpdateMintDistribution.Context =>
      SignUpdateMintDistribution.uxSignMintRate d.ctx :=
  ⟨fun _ => by simp [SignUpdateMintDistribution.uxSignMintRate]⟩

instance : OfKind .shared fun d : Device SignUpdateTransactionFeeDistribution.Context =>
      SignUpdateTransactionFeeDistribution.uxSignTransactionDist d.ctx :=
  ⟨fun _ => by simp [SignUpdateTransactionFeeDistribution.uxSignTransactionDist]⟩

instance : OfKind .shared fun d : Device SignUpdateBakerStakeThreshold.Context =>
      SignUpdateBakerStakeThreshold.uxSignBakerStakeThreshold d.ctx :=
  ⟨fun _ => by simp [SignUpdateBakerStakeThreshold.uxSignBakerStakeThreshold]⟩

instance : OfKind .shared fun d : Device SignUpdateTimeParameters.Context =>
      SignUpdateTimeParameters.uxSignTimeParameters d.ctx :=
  ⟨fun _ => by simp [SignUpdateTimeParameters.uxSignTimeParameters]⟩

instance : OfKind .shared fun d : Device SignUpdateCooldownParameters.Context =>
      SignUpdateCooldownParameters.uxSignCooldownParameters d.ctx :=
  ⟨fun _ => by simp [SignUpdateCooldownParameters.uxSignCooldownParameters]⟩

instance : OfKind .shared fun d : Device SignUpdateTimeoutParameters.Context =>
      SignUpdateTimeoutParameters.uxSignUpdateTimeoutParameters d.ctx :=
  ⟨fun _ => by simp [SignUpdateTimeoutParameters.uxSignUpdateTimeoutParameters]⟩

instance : OfKind .shared fun d : Device SignUpdateMinBlockTime.Context =>
      SignUpdateMinBlockTime.uxSignUpdateMinBlockTime d.ctx :=
  ⟨fun _ => by simp [SignUpdateMinBlockTime.uxSignUpdateMinBlockTime]⟩

instance : OfKind .shared fun d : Device SignUpdateBlockEnergyLimit.Context =>
      SignUpdateBlockEnergyLimit.uxSignUpdateBlockEnergyLimit d.ctx :=
  ⟨fun _ => by simp [SignUpdateBlockEnergyLimit.uxSignUpdateBlockEnergyLimit]⟩

instance : OfKind .shared fun d : Device SignUpdateFinalizationCommitteeParameters.Context =>
      SignUpdateFinalizationCommitteeParameters.uxSignUpdateFinalizationCommitteeParameters d.ctx :=
  ⟨fun _ => by simp [SignUpdateFinalizationCommitteeParameters.uxSignUpdateFinalizationCommitteeParameters]⟩

instance : OfKind .shared fun d : Device SignUpdateValidatorScoreParameters.Context =>
      SignUpdateValidatorScoreParameters.uxSignValidatorScoreParameters d.ctx :=
  ⟨fun _ => by simp [SignUpdateValidatorScoreParameters.uxSignValidatorScoreParameters]⟩

instance : OfKind .shared fun d : Device SignUpdatePoolParameters.Context =>
      SignUpdatePoolParameters.uxSignPoolParametersInitial d.ctx :=
  ⟨fun _ => by simp [SignUpdatePoolParameters.uxSignPoolParametersInitial]⟩

instance : OfKind .shared fun d : Device SignUpdatePoolParameters.Context =>
      SignUpdatePoolParameters.uxSignPoolParametersCommissionRanges d.ctx :=
  ⟨fun _ => by simp [SignUpdatePoolParameters.uxSignPoolParametersCommissionRanges]⟩

instance : OfKind .shared fun d : Device SignUpdatePoolParameters.Context =>
      SignUpdatePoolParameters.uxSignPoolParametersCommissionFinal d.ctx :=
  ⟨fun _ => by simp [SignUpdatePoolParameters.uxSignPoolParametersCommissionFinal]⟩

instance : OfKind .shared fun d : Device SignHigherLevelKeyUpdate.Context =>
      SignHigherLevelKeyUpdate.uxSignRootKeysReview d.ctx :=
  ⟨fun _ => by simp [SignHigherLevelKeyUpdate.uxSignRootKeysReview]⟩

instance : OfKind .shared fun d : Device SignHigherLevelKeyUpdate.Context =>
      SignHigherLevelKeyUpdate.uxSignRootKeysUpdateKey d.ctx :=
  ⟨fun _ => by simp [SignHigherLevelKeyUpdate.uxSignRootKeysUpdateKey]⟩

instance : OfKind .shared fun d : Device SignHigherLevelKeyUpdate.Context =>
      SignHigherLevelKeyUpdate.uxSignRootKeysUpdateThreshold d.ctx :=
  ⟨fun _ => by simp [SignHigherLevelKeyUpdate.uxSignRootKeysUpdateThreshold]⟩

instance : OfKind .shared fun d : Device SignUpdateAuthorizations.Context =>
      SignUpdateAuthorizations.uxSignUpdateAuthorizationsReview d.ctx :=
  ⟨fun _ => by simp [SignUpdateAuthorizations.uxSignUpdateAuthorizationsReview]⟩

instance : OfKind .shared fun d : Device SignUpdateAuthorizations.Context =>
      SignUpdateAuthorizations.uxUpdateAuthorizationsPublicKey d.ctx :=
  ⟨fun _ => by simp [SignUpdateAuthorizations.uxUpdateAuthorizationsPublicKey]⟩

instance : OfKind .shared fun d : Device SignCreatePlt.Context =>
      SignCreatePlt.uxSignCreatePltStart d.ctx :=
  ⟨fun _ => by simp [SignCreatePlt.uxSignCreatePltStart]⟩

instance : OfKind (.own .processKeyIndices) fun d : Device SignUpdateAuthorizations.Context =>
      SignUpdateAuthorizations.uxUpdateAuthorizations d.ctx :=
  ⟨fun _ => by simp [SignUpdateAuthorizations.uxUpdateAuthorizations]⟩

instance : OfKind (.own .processThreshold) fun d : Device SignUpdateAuthorizations.Context =>
      SignUpdateAuthorizations.uxUpdateAuthorizationsThreshold d.ctx :=
  ⟨fun _ => by simp [SignUpdateAuthorizations.uxUpdateAuthorizationsThreshold]⟩

instance : OfKind (.own .handleText) fun d : Device SignUpdateProtocol.Context =>
      SignUpdateProtocol.uxSignProtocolUpdate d.ctx :=
  ⟨fun _ => by simp [SignUpdateProtocol.uxSignProtocolUpdate]⟩

instance : OfKind (.own .handleText) fun d : Device SignUpdateProtocol.Context =>
      SignUpdateProtocol.uxSignProtocolUpdateUrl d.ctx :=
  ⟨fun _ => by simp [SignUpdateProtocol.uxSignProtocolUpdateUrl]⟩

instance : OfKind (.own .switchToLoading) fun d : Device SignUpdateProtocol.Context =>
      SignUpdateProtocol.uxSignProtocolUpdateSpecificationHash d.ctx :=
  ⟨fun _ => by simp [SignUpdateProtocol.uxSignProtocolUpdateSpecificationHash]⟩

instance : OfKind (.own .handleDescriptionPart) fun d : Device (WithDescription γ) =>
    DescriptionView.uxSignDescription d.ctx.description :=
  ⟨fun _ => by simp [DescriptionView.uxSignDescription]⟩

instance : OfKind .shared fun d : Device SignAddIdentityProvider.Blob =>
      SignAddIdentityProvider.uxSignAddIdentityProviderStart d.ctx.inner :=
  ⟨fun _ => by simp [SignAddIdentityProvider.uxSignAddIdentityProviderStart]⟩

instance : OfKind .shared fun d : Device SignAddIdentityProvider.Blob =>
      SignAddIdentityProvider.uxSignAddIdentityProviderVerifyKey d.ctx.inner :=
  ⟨fun _ => by simp [SignAddIdentityProvider.uxSignAddIdentityProviderVerifyKey]⟩

instance : OfKind .shared fun d : Device SignAddIdentityProvider.Blob =>
      SignAddIdentityProvider.uxSignAddIdentityProviderFinish d.ctx.inner :=
  ⟨fun _ => by simp [SignAddIdentityProvider.uxSignAddIdentityProviderFinish]⟩

instance : OfKind .shared fun d : Device SignAddAnonymityRevoker.Blob =>
      SignAddAnonymityRevoker.uxSignAddAnonymityRevokerStart d.ctx.inner :=
  ⟨fun _ => by simp [SignAddAnonymityRevoker.uxSignAddAnonymityRevokerStart]⟩

instance : OfKind .shared fun d : Device SignAddAnonymityRevoker.Blob =>
      SignAddAnonymityRevoker.uxSignAddAnonymityRevokerFinish d.ctx.inner :=
  ⟨fun _ => by simp [SignAddAnonymityRevoker.uxSignAddAnonymityRevokerFinish]⟩

end Flows

instance [Inits R] [Loads R cdata] : Moves R (readUpdateHeader cdata kind : Fw γ Nat) := by
  unfold readUpdateHeader
  infer_instance

/-! ## Parameters -/

instance [Inits R] [Loads R cdata] : Ends K R S T (handleSignUpdateExchangeRate cdata) := by
  unfold handleSignUpdateExchangeRate
  infer_instance

instance [Inits R] [Loads R cdata] : Ends K R S T
    (handleSignUpdateFoundationAccount sdk cdata) := by
  unfold handleSignUpdateFoundationAccount
  infer_instance

instance [Inits R] [Loads R cdata] : Ends K R S T (handleSignUpdateGasRewards cdata) := by
  unfold handleSignUpdateGasRewards
  infer_instance

instance [Inits R] [Loads R cdata] : Ends K R S T (handleSignUpdateMintDistribution cdata p2) := by
  unfold handleSignUpdateMintDistribution
  infer_instance

instance [Inits R] [Loads R cdata] : Ends K R S T
    (handleSignUpdateTransactionFeeDistribution cdata) := by
  unfold handleSignUpdateTransactionFeeDistribution
  infer_instance

instance [Inits R] [Loads R cdata] : Ends K R S T (handleSignUpdateBakerStakeThreshold cdata) := by
  unfold handleSignUpdateBakerStakeThreshold
  infer_instance

instance [Inits R] [Loads R cdata] : Ends K R S T (handleSignUpdateTimeParameters cdata) := by
  unfold handleSignUpdateTimeParameters
  infer_instance

instance [Inits R] [Loads R cdata] : Ends K R S T (handleSignUpdateCooldownParameters cdata) := by
  unfold handleSignUpdateCooldownParameters
  infer_instance

instance [Inits R] [Loads R cdata] : Ends K R S T (handleSignTimeoutParameters cdata) := by
  unfold handleSignTimeoutParameters
  infer_instance

instance [Inits R] [Loads R cdata] : Ends K R S T (handleSignMinBlockTime cdata) := by
  unfold handleSignMinBlockTime
  infer_instance

instance [Inits R] [Loads R cdata] : Ends K R S T (handleSignUpdateBlockEnergyLimit cdata) := by
  unfold handleSignUpdateBlockEnergyLimit
  infer_instance

instance [Inits R] [Loads R cdata] : Ends K R S T
    (handleSignUpdateFinalizationCommitteeParameters cdata) := by
  unfold handleSignUpdateFinalizationCommitteeParameters
  infer_instance

instance [Inits R] [Loads R cdata] : Ends K R S T
    (handleSignUpdateValidatorScoreParameters cdata) := by
  unfold handleSignUpdateValidatorScoreParameters
  infer_instance

/-! ## Pool parameters -/

instance (s : SignUpdatePoolParameters.State) : Moves R (SignUpdatePoolParameters.setState s) := by
  unfold SignUpdatePoolParameters.setState
  infer_instance

instance (display : Buffer 8) : Moves R
    (SignUpdatePoolParameters.parseCommissionRate cdata display) := by
  unfold SignUpdatePoolParameters.parseCommissionRate
  infer_instance

instance [Inits R] [Loads R cdata] : Ends K R S T
    (SignUpdatePoolParameters.handleInitial cdata) := by
  unfold SignUpdatePoolParameters.handleInitial
  infer_instance

instance : Ends K R S T (SignUpdatePoolParameters.handleCommissionRanges cdata) := by
  unfold SignUpdatePoolParameters.handleCommissionRanges
  infer_instance

instance : Ends K R S T (SignUpdatePoolParameters.handleEquity cdata) := by
  unfold SignUpdatePoolParameters.handleEquity
  infer_instance

instance [Inits R] [Loads R cdata] : Ends K R S T (handleSignUpdatePoolParameters cdata p1 b) := by
  unfold handleSignUpdatePoolParameters
  infer_instance

/-! ## Protocol updates -/

instance (s : SignUpdateProtocol.State) : Moves R (SignUpdateProtocol.setState s) := by
  unfold SignUpdateProtocol.setState
  infer_instance

instance : Shows K R S SignUpdateProtocol.switchToLoading :=
  ⟨fun t => Screens.loading K (R := R) t.shared []
    (by simp [Only, SignUpdateProtocol.uxSignProtocolUpdateLoading])⟩

instance : Shows K R S SignUpdateProtocol.handleText := by
  unfold SignUpdateProtocol.handleText
  infer_instance

instance [Inits R] [Loads R cdata] : Ends K R S T (SignUpdateProtocol.handleInitial cdata) := by
  unfold SignUpdateProtocol.handleInitial
  infer_instance

instance : Ends K R S T (SignUpdateProtocol.handleTextLength cdata) := by
  unfold SignUpdateProtocol.handleTextLength
  infer_instance

instance [Permits K (.own .handleText)] : Ends K R S T
    (SignUpdateProtocol.handleTextPart cdata lc) := by
  unfold SignUpdateProtocol.handleTextPart
  refine @Ends.bind _ _ _ _ _ _ _ _ _ _ _ _ fun ctx => ?_
  cases ctx.textState <;> dsimp only <;> infer_instance

instance [Permits K (.own .switchToLoading)] : Ends K R S T
    (SignUpdateProtocol.handleSpecificationHash cdata) := by
  unfold SignUpdateProtocol.handleSpecificationHash
  infer_instance

instance : Ends K R S T (SignUpdateProtocol.handleAuxiliaryData cdata lc) := by
  unfold SignUpdateProtocol.handleAuxiliaryData
  infer_instance

instance [Permits K (.own .handleText)] [Permits K (.own .switchToLoading)] [Inits R]
    [Loads R cdata] : Ends K R S T (handleSignUpdateProtocol cdata p1 lc b) := by
  unfold handleSignUpdateProtocol
  infer_instance

/-! ## Descriptions -/

section Description

open WithDescription

instance : Moves R (getInner : Fw (WithDescription γ) γ) := ⟨fun _ => Steady.refl _⟩

instance (f : γ → γ) : Moves R (modifyInner f) := by
  unfold modifyInner
  infer_instance

instance : Moves R (getDescription : Fw (WithDescription γ) DescriptionView.Context) :=
  ⟨fun _ => Steady.refl _⟩

instance (f : DescriptionView.Context → DescriptionView.Context) :
    Moves R (modifyDescription f : Fw (WithDescription γ) PUnit) := by
  unfold modifyDescription
  infer_instance

instance (s : DescriptionView.DescriptionState) :
    Moves R (setDescriptionState s : Fw (WithDescription γ) PUnit) := by
  unfold setDescriptionState
  infer_instance

instance : Shows K R S (handleDescriptionPart : Fw (WithDescription γ) PUnit) := by
  unfold handleDescriptionPart
  refine @Shows.bind _ _ _ _ _ _ _ _ _ _ fun descCtx => ?_
  cases descCtx.descriptionState <;> infer_instance

instance (header : String) : Moves R (setHeader header : Fw (WithDescription γ) PUnit) := by
  unfold setHeader
  infer_instance

instance [Permits K (.own .handleDescriptionPart)] :
    Ends K R S T (displayDescriptionPart : Fw (WithDescription γ) PUnit) := by
  unfold displayDescriptionPart
  refine @Ends.bind _ _ _ _ _ _ _ _ _ _ _ _ fun descCtx => ?_
  cases descCtx.descriptionState <;> infer_instance

instance : Moves R (readTextLength cdata : Fw (WithDescription γ) PUnit) := by
  unfold readTextLength
  infer_instance

instance (f : γ → γ) : Moves R (readText cdata lc f) := by
  unfold readText
  infer_instance

end Description

instance (s : SignAddIdentityProvider.State) : Moves R (SignAddIdentityProvider.setState s) := by
  unfold SignAddIdentityProvider.setState
  infer_instance

instance : Moves R SignAddIdentityProvider.checkIfDescriptionPartIsDone := by
  unfold SignAddIdentityProvider.checkIfDescriptionPartIsDone
  refine @Moves.bind _ _ _ _ _ _ _ _ fun descCtx => ?_
  cases descCtx.descriptionState <;> infer_instance

instance [Inits R] [Loads R cdata] : Ends K R S T
    (SignAddIdentityProvider.handleInitial cdata) := by
  unfold SignAddIdentityProvider.handleInitial
  infer_instance

instance : Ends K R S T (SignAddIdentityProvider.handleDescriptionLength cdata) := by
  unfold SignAddIdentityProvider.handleDescriptionLength
  infer_instance

instance [Permits K (.own .handleDescriptionPart)] : Ends K R S T
    (SignAddIdentityProvider.handleDescription cdata lc) := by
  unfold SignAddIdentityProvider.handleDescription
  infer_instance

instance : Ends K R S T (SignAddIdentityProvider.handleVerifyKey sdk cdata lc) := by
  unfold SignAddIdentityProvider.handleVerifyKey
  infer_instance

instance : Ends K R S T (SignAddIdentityProvider.handleCdiVerifyKey cdata lc) := by
  unfold SignAddIdentityProvider.handleCdiVerifyKey
  infer_instance

instance [Permits K (.own .handleDescriptionPart)] [Inits R] [Loads R cdata] : Ends K R S T
    (handleSignAddIdentityProvider sdk cdata p1 lc b) := by
  unfold handleSignAddIdentityProvider
  infer_instance

instance (s : SignAddAnonymityRevoker.State) : Moves R (SignAddAnonymityRevoker.setState s) := by
  unfold SignAddAnonymityRevoker.setState
  infer_instance

instance : Moves R SignAddAnonymityRevoker.checkIfDescriptionPartIsDone := by
  unfold SignAddAnonymityRevoker.checkIfDescriptionPartIsDone
  refine @Moves.bind _ _ _ _ _ _ _ _ fun descCtx => ?_
  cases descCtx.descriptionState <;> infer_instance

instance [Inits R] [Loads R cdata] : Ends K R S T
    (SignAddAnonymityRevoker.handleInitial cdata) := by
  unfold SignAddAnonymityRevoker.handleInitial
  infer_instance

instance : Ends K R S T (SignAddAnonymityRevoker.handleDescriptionLength cdata) := by
  unfold SignAddAnonymityRevoker.handleDescriptionLength
  infer_instance

instance [Permits K (.own .handleDescriptionPart)] : Ends K R S T
    (SignAddAnonymityRevoker.handleDescription cdata lc) := by
  unfold SignAddAnonymityRevoker.handleDescription
  infer_instance

instance : Ends K R S T (SignAddAnonymityRevoker.handlePublicKey cdata) := by
  unfold SignAddAnonymityRevoker.handlePublicKey
  infer_instance

instance [Permits K (.own .handleDescriptionPart)] [Inits R] [Loads R cdata] : Ends K R S T
    (handleSignAddAnonymityRevoker cdata p1 lc b) := by
  unfold handleSignAddAnonymityRevoker
  infer_instance

/-! ## Keys -/

instance (s : SignHigherLevelKeyUpdate.State) : Moves R (SignHigherLevelKeyUpdate.setState s) := by
  unfold SignHigherLevelKeyUpdate.setState
  infer_instance

instance (text : String) : Moves R (SignHigherLevelKeyUpdate.setType text) := by
  unfold SignHigherLevelKeyUpdate.setType
  infer_instance

instance : Moves R (SignHigherLevelKeyUpdate.readKeyUpdateType p1 kind) := by
  unfold SignHigherLevelKeyUpdate.readKeyUpdateType
  infer_instance

instance [Inits R] [Loads R cdata] : Ends K R S T
    (SignHigherLevelKeyUpdate.handleInitial cdata kind) := by
  unfold SignHigherLevelKeyUpdate.handleInitial
  infer_instance

instance : Ends K R S T (SignHigherLevelKeyUpdate.handleUpdateKeys cdata) := by
  unfold SignHigherLevelKeyUpdate.handleUpdateKeys
  infer_instance

instance : Ends K R S T (SignHigherLevelKeyUpdate.handleThreshold cdata) := by
  unfold SignHigherLevelKeyUpdate.handleThreshold
  infer_instance

instance [Inits R] [Loads R cdata] : Ends K R S T (handleSignHigherLevelKeys cdata p1 kind b) := by
  unfold handleSignHigherLevelKeys
  infer_instance

instance (s : SignUpdateAuthorizations.State) : Moves R (SignUpdateAuthorizations.setState s) := by
  unfold SignUpdateAuthorizations.setState
  infer_instance

instance : Shows K R S SignUpdateAuthorizations.processThreshold := by
  unfold SignUpdateAuthorizations.processThreshold
  infer_instance

instance [Permits K (.own .processKeyIndices)] :
    Shows K R S SignUpdateAuthorizations.processKeyIndices := by
  unfold SignUpdateAuthorizations.processKeyIndices
  infer_instance

instance : Moves R (SignUpdateAuthorizations.setTypeText kind) := by
  unfold SignUpdateAuthorizations.setTypeText
  infer_instance

instance [Inits R] [Loads R cdata] : Ends K R S T
    (SignUpdateAuthorizations.handleInitial cdata p2 kind) := by
  unfold SignUpdateAuthorizations.handleInitial
  infer_instance

instance : Ends K R S T (SignUpdateAuthorizations.handlePublicKey cdata) := by
  unfold SignUpdateAuthorizations.handlePublicKey
  infer_instance

instance : Ends K R S T (SignUpdateAuthorizations.handleAccessStructureInitial cdata) := by
  unfold SignUpdateAuthorizations.handleAccessStructureInitial
  infer_instance

instance [Permits K (.own .processKeyIndices)] : Ends K R S T
    (SignUpdateAuthorizations.handleAccessStructure cdata lc) := by
  unfold SignUpdateAuthorizations.handleAccessStructure
  infer_instance

instance [Permits K (.own .processThreshold)] : Ends K R S T
    (SignUpdateAuthorizations.handleAccessStructureThreshold cdata) := by
  unfold SignUpdateAuthorizations.handleAccessStructureThreshold
  infer_instance

instance [Permits K (.own .processKeyIndices)] [Permits K (.own .processThreshold)] [Inits R]
    [Loads R cdata] : Ends K R S T (handleSignUpdateAuthorizations cdata p1 p2 kind lc b) := by
  unfold handleSignUpdateAuthorizations
  infer_instance

/-! ## Tokens -/

instance (s : SignCreatePlt.State) : Moves R (SignCreatePlt.setState s) := by
  unfold SignCreatePlt.setState
  infer_instance

instance [Inits R] [Loads R cdata] : Ends K R S T (SignCreatePlt.handleInitial cdata) := by
  unfold SignCreatePlt.handleInitial
  infer_instance

instance : Ends K R S T (SignCreatePlt.handlePayload cdata) := by
  unfold SignCreatePlt.handlePayload
  dsimp only
  iterate 5 refine @Ends.bind _ _ _ _ _ _ _ _ _ _ _ _ fun _ => ?_
  infer_instance

instance : Ends K R S T (SignCreatePlt.handleInitParams cdata lc) := by
  unfold SignCreatePlt.handleInitParams
  infer_instance

instance [Inits R] [Loads R cdata] : Ends K R S T (handleSignCreatePlt cdata p1 lc b) := by
  unfold handleSignCreatePlt
  infer_instance

end GovernanceHandlers

/-! ## The application -/

instance governanceHandler_ends (u : GovernanceContext μ ν) (apdu : Apdu) [Inits R] [Loads R apdu.cdata]
    [∀ cb, Permits K (.own cb)] : Ends K R S T (governanceHandler sdk u apdu b) := by
  unfold governanceHandler
  infer_instance

instance governanceOwnCallback_shows (u : GovernanceContext μ ν) (cb : Callback)
    [∀ cb, Permits K (.own cb)] : Shows K R S (governanceOwnCallback sdk u cb) := by
  cases cb <;> unfold governanceOwnCallback <;> infer_instance

theorem governanceApp_framed (u : GovernanceContext μ ν) {R T : Ptr → Shared → Shared → Prop}
    {K : Shared → Shared → Prop} [∀ cdata, Frame (R cdata)]
    [∀ cdata, Waits (R cdata) (R cdata) (T cdata)] [∀ cdata, Loads (R cdata) cdata] [Frame K] :
    Framed (governanceApp sdk u) R T K where
  handler apdu b := governanceHandler_ends sdk b u apdu
  callback := Moves.sharedCallback fun cb => governanceOwnCallback_shows sdk u cb

theorem governanceApp_screened (u : GovernanceContext μ ν) (ins : UInt8) :
    Screened (governanceApp sdk u) ins fun _ => False where
  handler c b t := by
    have hall : ∀ k, Permits (fun k => False → c.ins = ins) k := fun k => ⟨False.elim⟩
    have hends : Ends (fun _ => False → c.ins = ins) Touched (Shown fun _ => False → c.ins = ins)
        (Ended fun _ => False → c.ins = ins) (governanceHandler sdk u c b) := inferInstance
    exact hends.holds t
  shared cb hcb t := sharedCallback_passed t sdk hcb
  own cb hcb t := by
    have hall : ∀ k, Permits (fun _ => ¬ False) k := fun k => ⟨id⟩
    have hown : (governanceApp sdk u).callback cb = governanceOwnCallback sdk u cb := by
      cases cb <;> first | rfl | cases hcb
    rw [hown]
    have hshows : Shows (fun _ => ¬ False) Touched (Shown fun _ => ¬ False)
        (governanceOwnCallback sdk u cb) := inferInstance
    exact hshows.holds t

end ConcordiumLedger
