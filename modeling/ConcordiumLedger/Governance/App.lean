import ConcordiumLedger.Common.GetPublicKey
import ConcordiumLedger.Common.MainHelpers
import ConcordiumLedger.Governance.DescriptionView
import ConcordiumLedger.Governance.SignCreatePlt
import ConcordiumLedger.Governance.SignUpdateKeys
import ConcordiumLedger.Governance.SignUpdateParameters
import ConcordiumLedger.Governance.SignUpdatePoolParameters
import ConcordiumLedger.Governance.SignUpdateProtocol

/-!
# Governance.App

The governance application: its instructions, the union of their contexts and the callbacks
(`main.c`, `globals.h`).

`GovernanceContext μ ν` says how the members of the union lie in a memory `μ`, and how the two
contexts that share a struct with the description lie in a memory `ν`. Results about the
application hold for every layout; `GovernanceContexts` is a memory that keeps the members apart.
-/

namespace ConcordiumLedger

open CMem CProg

/-- The members of the union `instructionContext`, and of the union in
`updateWithDescription_t`. -/
structure GovernanceContext (μ ν : Type) where
  exportPublicKeyContext : Member μ GetPublicKey.Context
  signExchangeRateContext : Member μ SignUpdateExchangeRate.Context
  signUpdateAuthorizations : Member μ SignUpdateAuthorizations.Context
  signUpdateProtocolContext : Member μ SignUpdateProtocol.Context
  signTransactionDistributionFeeContext : Member μ SignUpdateTransactionFeeDistribution.Context
  signUpdateGasRewardsContext : Member μ SignUpdateGasRewards.Context
  signUpdateFoundationAccountContext : Member μ SignUpdateFoundationAccount.Context
  signUpdateMintDistribution : Member μ SignUpdateMintDistribution.Context
  signUpdateBakerStakeThreshold : Member μ SignUpdateBakerStakeThreshold.Context
  signTimeParameters : Member μ SignUpdateTimeParameters.Context
  signCooldownParameters : Member μ SignUpdateCooldownParameters.Context
  signPoolParameters : Member μ SignUpdatePoolParameters.Context
  signUpdateKeysWithRootKeysContext : Member μ SignHigherLevelKeyUpdate.Context
  signUpdateTimeoutParameters : Member μ SignUpdateTimeoutParameters.Context
  signUpdateMinBlockTime : Member μ SignUpdateMinBlockTime.Context
  signUpdateBlockEnergyLimit : Member μ SignUpdateBlockEnergyLimit.Context
  signUpdateFinalizationCommitteeParameters :
    Member μ SignUpdateFinalizationCommitteeParameters.Context
  signUpdateValidatorScoreParameters : Member μ SignUpdateValidatorScoreParameters.Context
  signCreatePltContext : Member μ SignCreatePlt.Context
  withDescription : Member μ (WithDescription ν)
  signAddIdentityProviderContext : Member ν SignAddIdentityProvider.Context
  signAddAnonymityRevokerContext : Member ν SignAddAnonymityRevoker.Context

section Members

variable {μ ν γ : Type}

/-- A context of the inner union, in the struct with the description. -/
def WithDescription.member (w : Member μ (WithDescription ν)) (m : Member ν γ) :
    Member μ (WithDescription γ) where
  get x := ⟨m.get (w.get x).inner, (w.get x).description⟩
  set b x := w.set ⟨m.set b.inner (w.get x).inner, b.description⟩ x
  get_set b x := by rw [Member.get_set, Member.get_set]

def GovernanceContext.signAddIdentityProvider (u : GovernanceContext μ ν) :
    Member μ SignAddIdentityProvider.Blob :=
  WithDescription.member u.withDescription u.signAddIdentityProviderContext

def GovernanceContext.signAddAnonymityRevoker (u : GovernanceContext μ ν) :
    Member μ SignAddAnonymityRevoker.Blob :=
  WithDescription.member u.withDescription u.signAddAnonymityRevokerContext

end Members

def insUpdateExchangeRate : UInt8 := 0x06
def insUpdateProtocol : UInt8 := 0x21
def insUpdateTransactionFeeDist : UInt8 := 0x22
def insUpdateGasRewards : UInt8 := 0x23
def insUpdateFoundationAccount : UInt8 := 0x24
def insUpdateMintDistribution : UInt8 := 0x25
def insUpdateBakerStakeThreshold : UInt8 := 0x27
def insUpdateRootKeys : UInt8 := 0x28
def insUpdateLevel1Keys : UInt8 := 0x29
def insUpdateLevel2KeysRoot : UInt8 := 0x2A
def insUpdateLevel2KeysLevel1 : UInt8 := 0x2B
def insAddAnonymityRevoker : UInt8 := 0x2C
def insAddIdentityProvider : UInt8 := 0x2D
def insUpdateCooldownParameters : UInt8 := 0x40
def insUpdatePoolParameters : UInt8 := 0x41
def insUpdateTimeParameters : UInt8 := 0x42
def insUpdateTimeoutParameters : UInt8 := 0x43
def insUpdateMinBlockTime : UInt8 := 0x44
def insUpdateBlockEnergyLimit : UInt8 := 0x45
def insUpdateFinalizationCommitteeParameters : UInt8 := 0x46
def insUpdateValidatorScoreParameters : UInt8 := 0x47
def insCreatePlt : UInt8 := 0x48

variable {μ ν : Type}

/-- The instruction `0x01` has the same code in both applications. -/
def governanceInsGetPublicKey : UInt8 := 0x01

def governanceHandler (sdk : Sdk) (u : GovernanceContext μ ν) (apdu : Apdu)
    (isInitialCall : Bool) : Fw μ PUnit :=
  let cdata := apdu.cdata
  let p1 := apdu.p1
  let p2 := apdu.p2
  let lc := apdu.lc
  if apdu.ins = governanceInsGetPublicKey then
    Fw.on u.exportPublicKeyContext (handleGetPublicKey sdk cdata p1 p2)
  else if apdu.ins = insUpdateExchangeRate then
    Fw.on u.signExchangeRateContext (handleSignUpdateExchangeRate cdata)
  else if apdu.ins = insUpdateProtocol then
    Fw.on u.signUpdateProtocolContext (handleSignUpdateProtocol cdata p1 lc isInitialCall)
  else if apdu.ins = insUpdateTransactionFeeDist then
    Fw.on u.signTransactionDistributionFeeContext
      (handleSignUpdateTransactionFeeDistribution cdata)
  else if apdu.ins = insUpdateGasRewards then
    Fw.on u.signUpdateGasRewardsContext (handleSignUpdateGasRewards cdata)
  else if apdu.ins = insUpdateFoundationAccount then
    Fw.on u.signUpdateFoundationAccountContext (handleSignUpdateFoundationAccount sdk cdata)
  else if apdu.ins = insUpdateMintDistribution then
    Fw.on u.signUpdateMintDistribution (handleSignUpdateMintDistribution cdata p2)
  else if apdu.ins = insUpdateBakerStakeThreshold then
    Fw.on u.signUpdateBakerStakeThreshold (handleSignUpdateBakerStakeThreshold cdata)
  else if apdu.ins = insUpdateRootKeys then
    Fw.on u.signUpdateKeysWithRootKeysContext
      (handleSignHigherLevelKeys cdata p1 UpdateType.updateRootKeys isInitialCall)
  else if apdu.ins = insUpdateLevel1Keys then
    Fw.on u.signUpdateKeysWithRootKeysContext
      (handleSignHigherLevelKeys cdata p1 UpdateType.updateLevel1Keys isInitialCall)
  else if apdu.ins = insUpdateLevel2KeysRoot then
    Fw.on u.signUpdateAuthorizations
      (handleSignUpdateAuthorizations cdata p1 p2 UpdateType.updateRootKeys lc isInitialCall)
  else if apdu.ins = insUpdateLevel2KeysLevel1 then
    Fw.on u.signUpdateAuthorizations
      (handleSignUpdateAuthorizations cdata p1 p2 UpdateType.updateLevel1Keys lc isInitialCall)
  else if apdu.ins = insAddIdentityProvider then
    Fw.on u.signAddIdentityProvider (handleSignAddIdentityProvider sdk cdata p1 lc isInitialCall)
  else if apdu.ins = insAddAnonymityRevoker then
    Fw.on u.signAddAnonymityRevoker (handleSignAddAnonymityRevoker cdata p1 lc isInitialCall)
  else if apdu.ins = insUpdateTimeParameters then
    Fw.on u.signTimeParameters (handleSignUpdateTimeParameters cdata)
  else if apdu.ins = insUpdateCooldownParameters then
    Fw.on u.signCooldownParameters (handleSignUpdateCooldownParameters cdata)
  else if apdu.ins = insUpdatePoolParameters then
    Fw.on u.signPoolParameters (handleSignUpdatePoolParameters cdata p1 isInitialCall)
  else if apdu.ins = insUpdateTimeoutParameters then
    Fw.on u.signUpdateTimeoutParameters (handleSignTimeoutParameters cdata)
  else if apdu.ins = insUpdateMinBlockTime then
    Fw.on u.signUpdateMinBlockTime (handleSignMinBlockTime cdata)
  else if apdu.ins = insUpdateBlockEnergyLimit then
    Fw.on u.signUpdateBlockEnergyLimit (handleSignUpdateBlockEnergyLimit cdata)
  else if apdu.ins = insUpdateFinalizationCommitteeParameters then
    Fw.on u.signUpdateFinalizationCommitteeParameters
      (handleSignUpdateFinalizationCommitteeParameters cdata)
  else if apdu.ins = insUpdateValidatorScoreParameters then
    Fw.on u.signUpdateValidatorScoreParameters (handleSignUpdateValidatorScoreParameters cdata)
  else if apdu.ins = insCreatePlt then
    Fw.on u.signCreatePltContext (handleSignCreatePlt cdata p1 lc isInitialCall)
  else Fw.throw .invalidInstruction

/-- The callbacks of the instructions. -/
def governanceOwnCallback (sdk : Sdk) (u : GovernanceContext μ ν) : Callback → Fw μ PUnit
  | .sendPublicKey => Fw.on u.exportPublicKeyContext (sendPublicKey sdk true)
  | .processKeyIndices =>
    Fw.on u.signUpdateAuthorizations SignUpdateAuthorizations.processKeyIndices
  | .processThreshold =>
    Fw.on u.signUpdateAuthorizations SignUpdateAuthorizations.processThreshold
  | .handleText => Fw.on u.signUpdateProtocolContext SignUpdateProtocol.handleText
  | .switchToLoading => Fw.on u.signUpdateProtocolContext SignUpdateProtocol.switchToLoading
  | .handleDescriptionPart => Fw.on u.withDescription handleDescriptionPart
  | _ => pure ⟨⟩

def governanceApp (sdk : Sdk) (u : GovernanceContext μ ν) : App μ where
  handler := governanceHandler sdk u
  callback := sharedCallback sdk (governanceOwnCallback sdk u)

/-! ## A layout -/

/-- The contexts of the inner union side by side. -/
structure DescribedContexts where
  signAddIdentityProviderContext : SignAddIdentityProvider.Context
  signAddAnonymityRevokerContext : SignAddAnonymityRevoker.Context
deriving Inhabited

/-- All contexts side by side. -/
structure GovernanceContexts where
  exportPublicKeyContext : GetPublicKey.Context
  signExchangeRateContext : SignUpdateExchangeRate.Context
  signUpdateAuthorizations : SignUpdateAuthorizations.Context
  signUpdateProtocolContext : SignUpdateProtocol.Context
  signTransactionDistributionFeeContext : SignUpdateTransactionFeeDistribution.Context
  signUpdateGasRewardsContext : SignUpdateGasRewards.Context
  signUpdateFoundationAccountContext : SignUpdateFoundationAccount.Context
  signUpdateMintDistribution : SignUpdateMintDistribution.Context
  signUpdateBakerStakeThreshold : SignUpdateBakerStakeThreshold.Context
  signTimeParameters : SignUpdateTimeParameters.Context
  signCooldownParameters : SignUpdateCooldownParameters.Context
  signPoolParameters : SignUpdatePoolParameters.Context
  signUpdateKeysWithRootKeysContext : SignHigherLevelKeyUpdate.Context
  signUpdateTimeoutParameters : SignUpdateTimeoutParameters.Context
  signUpdateMinBlockTime : SignUpdateMinBlockTime.Context
  signUpdateBlockEnergyLimit : SignUpdateBlockEnergyLimit.Context
  signUpdateFinalizationCommitteeParameters : SignUpdateFinalizationCommitteeParameters.Context
  signUpdateValidatorScoreParameters : SignUpdateValidatorScoreParameters.Context
  signCreatePltContext : SignCreatePlt.Context
  withDescription : WithDescription DescribedContexts
deriving Inhabited

def GovernanceContexts.layout : GovernanceContext GovernanceContexts DescribedContexts where
  exportPublicKeyContext :=
    ⟨exportPublicKeyContext, fun a m => { m with exportPublicKeyContext := a }, fun _ _ => rfl⟩
  signExchangeRateContext :=
    ⟨signExchangeRateContext, fun a m => { m with signExchangeRateContext := a }, fun _ _ => rfl⟩
  signUpdateAuthorizations :=
    ⟨signUpdateAuthorizations, fun a m => { m with signUpdateAuthorizations := a },
      fun _ _ => rfl⟩
  signUpdateProtocolContext :=
    ⟨signUpdateProtocolContext, fun a m => { m with signUpdateProtocolContext := a },
      fun _ _ => rfl⟩
  signTransactionDistributionFeeContext :=
    ⟨signTransactionDistributionFeeContext,
      fun a m => { m with signTransactionDistributionFeeContext := a }, fun _ _ => rfl⟩
  signUpdateGasRewardsContext :=
    ⟨signUpdateGasRewardsContext, fun a m => { m with signUpdateGasRewardsContext := a },
      fun _ _ => rfl⟩
  signUpdateFoundationAccountContext :=
    ⟨signUpdateFoundationAccountContext,
      fun a m => { m with signUpdateFoundationAccountContext := a }, fun _ _ => rfl⟩
  signUpdateMintDistribution :=
    ⟨signUpdateMintDistribution, fun a m => { m with signUpdateMintDistribution := a },
      fun _ _ => rfl⟩
  signUpdateBakerStakeThreshold :=
    ⟨signUpdateBakerStakeThreshold, fun a m => { m with signUpdateBakerStakeThreshold := a },
      fun _ _ => rfl⟩
  signTimeParameters :=
    ⟨signTimeParameters, fun a m => { m with signTimeParameters := a }, fun _ _ => rfl⟩
  signCooldownParameters :=
    ⟨signCooldownParameters, fun a m => { m with signCooldownParameters := a }, fun _ _ => rfl⟩
  signPoolParameters :=
    ⟨signPoolParameters, fun a m => { m with signPoolParameters := a }, fun _ _ => rfl⟩
  signUpdateKeysWithRootKeysContext :=
    ⟨signUpdateKeysWithRootKeysContext,
      fun a m => { m with signUpdateKeysWithRootKeysContext := a }, fun _ _ => rfl⟩
  signUpdateTimeoutParameters :=
    ⟨signUpdateTimeoutParameters, fun a m => { m with signUpdateTimeoutParameters := a },
      fun _ _ => rfl⟩
  signUpdateMinBlockTime :=
    ⟨signUpdateMinBlockTime, fun a m => { m with signUpdateMinBlockTime := a }, fun _ _ => rfl⟩
  signUpdateBlockEnergyLimit :=
    ⟨signUpdateBlockEnergyLimit, fun a m => { m with signUpdateBlockEnergyLimit := a },
      fun _ _ => rfl⟩
  signUpdateFinalizationCommitteeParameters :=
    ⟨signUpdateFinalizationCommitteeParameters,
      fun a m => { m with signUpdateFinalizationCommitteeParameters := a }, fun _ _ => rfl⟩
  signUpdateValidatorScoreParameters :=
    ⟨signUpdateValidatorScoreParameters,
      fun a m => { m with signUpdateValidatorScoreParameters := a }, fun _ _ => rfl⟩
  signCreatePltContext :=
    ⟨signCreatePltContext, fun a m => { m with signCreatePltContext := a }, fun _ _ => rfl⟩
  withDescription :=
    ⟨withDescription, fun a m => { m with withDescription := a }, fun _ _ => rfl⟩
  signAddIdentityProviderContext :=
    ⟨DescribedContexts.signAddIdentityProviderContext,
      fun a m => { m with signAddIdentityProviderContext := a }, fun _ _ => rfl⟩
  signAddAnonymityRevokerContext :=
    ⟨DescribedContexts.signAddAnonymityRevokerContext,
      fun a m => { m with signAddAnonymityRevokerContext := a }, fun _ _ => rfl⟩

/-- The governance application after the device has booted, on memory that is all zeroes. -/
def bootedGovernance : Device GovernanceContexts where
  ctx := default
  shared := {
    path := ⟨0, List.replicate 8 0, List.replicate 8 0, []⟩
    hash := []
    currentInstruction := none
    sender := default
    display := uxMenuIdleFlow
    replyOwed := false
    asynchReply := false
    running := true
    log := [.setInstruction none, .uxFlowInit uxMenuIdleFlow] }

theorem bootedGovernance_booted : Booted bootedGovernance := ⟨rfl, rfl, rfl, rfl, rfl, rfl⟩

end ConcordiumLedger
