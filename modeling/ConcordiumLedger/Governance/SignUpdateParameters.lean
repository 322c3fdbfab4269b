import ConcordiumLedger.Governance.UpdateHeader

/-!
# Governance.SignUpdateParameters

The updates of chain parameters that come in a single command (`signUpdateExchangeRate.c`,
`signUpdateFoundationAccount.c`, `signUpdateGasRewards.c`, `signUpdateMintDistribution.c`,
`signUpdateTransactionFeeDistribution.c`, `signUpdateBakerStakeThreshold.c`,
`signUpdateTimeParameters.c`, `signUpdateCooldownParameters.c`, `signUpdateTimeoutParameters.c`,
`signUpdateMinBlockTime.c`, `signUpdateBlockEnergyLimit.c`,
`signUpdateFinalizationCommitteeParameters.c`, `signUpdateValidatorScoreParameters.c`).

A text that ends with a 0 was terminated by the function that wrote it; the texts of `numberToText`
and `hashAndLoadU64Ratio` are not.
-/

namespace ConcordiumLedger

open CMem CProg

namespace SignUpdateExchangeRate

/-- `signExchangeRateContext_t` -/
structure Context where
  ratio : Buffer 44
  type : Buffer 16
deriving DecidableEq, Inhabited

def uxSignExchangeRate (c : Context) : List Step :=
  [ uxSignFlowSharedReview,
    { title := titleOf c.type.bytes, text := c.ratio.bytes } ] ++ uxSignAndDecline

end SignUpdateExchangeRate

open SignUpdateExchangeRate in
def handleSignUpdateExchangeRate (cdata : Ptr) : Fw Context PUnit := do
  let read ← parseKeyDerivationPath cdata
  let cdata := cdata.advance read
  cxSha256Init
  updateHash cdata updateHeaderLength
  let cdata := cdata.advance updateHeaderLength
  let updateType := cdata 0
  updateHash cdata 1
  let cdata := cdata.advance 1
  if updateType = UpdateType.euroPerEnergy then
    Fw.modifyCtx fun c => { c with type := c.type.memmove 0 (literal "Euro per energy") }
  else if updateType = UpdateType.microGtuPerEuro then
    Fw.modifyCtx fun c => { c with type := c.type.memmove 0 (literal "uCCD per Euro") }
  else Fw.throw .invalidTransaction
  let ctx ← Fw.getCtx
  let (_, ratio) ← hashAndLoadU64Ratio cdata ctx.ratio
  Fw.modifyCtx fun c => { c with ratio }
  uxFlowInit fun d => uxSignExchangeRate d.ctx
  waitForButton

namespace SignUpdateFoundationAccount

/-- `signUpdateFoundationAccountContext_t` -/
structure Context where
  foundationAccountAddress : Buffer 57
  updateTypeText : Buffer 32
deriving DecidableEq, Inhabited

def uxSignFoundationAccountAddress (c : Context) : List Step :=
  [ uxSignFlowSharedReview,
    uxUpdateType c.updateTypeText,
    { title := "Foundation acc.", text := c.foundationAccountAddress.bytes } ] ++ uxSignAndDecline

end SignUpdateFoundationAccount

open SignUpdateFoundationAccount in
def handleSignUpdateFoundationAccount (sdk : Sdk) (cdata : Ptr) : Fw Context PUnit := do
  let read ← readUpdateHeader cdata UpdateType.foundationAccount
  let cdata := cdata.advance read
  Fw.modifyCtx fun c => { c with updateTypeText := updateTypeText UpdateType.foundationAccount }
  updateHash cdata 32
  let ctx ← Fw.getCtx
  let address ← Fw.eval (addressText sdk (cdata.slice 32) ctx.foundationAccountAddress)
  Fw.modifyCtx fun c => { c with foundationAccountAddress := address }
  uxFlowInit fun d => uxSignFoundationAccountAddress d.ctx
  waitForButton

namespace SignUpdateGasRewards

/-- `signUpdateGasRewardsContext_t` -/
structure Context where
  updateTypeText : Buffer 32
  gasBaker : Buffer 8
  gasAccountCreation : Buffer 8
  gasChainUpdate : Buffer 8
deriving DecidableEq, Inhabited

def uxSignGasRewards (c : Context) : List Step :=
  [ uxSignFlowSharedReview,
    uxUpdateType c.updateTypeText,
    { title := "Baker", text := c.gasBaker.bytes },
    { title := "Account creation", text := c.gasAccountCreation.bytes },
    { title := "Chain update", text := c.gasChainUpdate.bytes } ] ++ uxSignAndDecline

end SignUpdateGasRewards

open SignUpdateGasRewards in
def handleSignUpdateGasRewards (cdata : Ptr) : Fw Context PUnit := do
  let read ← readUpdateHeader cdata UpdateType.gasRewardsCpv2
  let cdata := cdata.advance read
  Fw.modifyCtx fun c => { c with updateTypeText := updateTypeText UpdateType.gasRewardsCpv2 }
  updateHash cdata 12
  let baker ← Fw.eval (fractionToPercentageDisplay 8 (cdata.u4be 0))
  Fw.modifyCtx fun c => { c with gasBaker := c.gasBaker.memmove 0 baker }
  let creation ← Fw.eval (fractionToPercentageDisplay 8 (cdata.u4be 4))
  Fw.modifyCtx fun c => { c with gasAccountCreation := c.gasAccountCreation.memmove 0 creation }
  let update ← Fw.eval (fractionToPercentageDisplay 8 (cdata.u4be 8))
  Fw.modifyCtx fun c => { c with gasChainUpdate := c.gasChainUpdate.memmove 0 update }
  uxFlowInit fun d => uxSignGasRewards d.ctx
  waitForButton

namespace SignUpdateMintDistribution

/-- `signUpdateMintDistribution_t` -/
structure Context where
  bakerReward : Buffer 8
  finalizationReward : Buffer 8
  updateTypeText : Buffer 32
deriving DecidableEq, Inhabited

def p2V1 : UInt8 := 0x01

def uxSignMintRate (c : Context) : List Step :=
  [ uxSignFlowSharedReview,
    uxUpdateType c.updateTypeText,
    { title := "Baker reward", text := c.bakerReward.bytes },
    { title := "Finalization reward", text := c.finalizationReward.bytes } ] ++ uxSignAndDecline

end SignUpdateMintDistribution

open SignUpdateMintDistribution in
def handleSignUpdateMintDistribution (cdata : Ptr) (p2 : UInt8) : Fw Context PUnit := do
  Fw.throwIf (p2 ≠ p2V1) .invalidParam
  let read ← readUpdateHeader cdata UpdateType.mintDistributionV1
  let cdata := cdata.advance read
  Fw.modifyCtx fun c => { c with updateTypeText := updateTypeText UpdateType.mintDistributionV1 }
  let baker ← Fw.eval (fractionToPercentageDisplay 8 (cdata.u4be 0))
  Fw.modifyCtx fun c => { c with bakerReward := c.bakerReward.memmove 0 baker }
  updateHash cdata 4
  let cdata := cdata.advance 4
  let finalization ← Fw.eval (fractionToPercentageDisplay 8 (cdata.u4be 0))
  Fw.modifyCtx fun c =>
    { c with finalizationReward := c.finalizationReward.memmove 0 finalization }
  updateHash cdata 4
  uxFlowInit fun d => uxSignMintRate d.ctx
  waitForButton

namespace SignUpdateTransactionFeeDistribution

/-- `signTransactionDistributionFeeContext_t` -/
structure Context where
  baker : Buffer 8
  gasAccount : Buffer 8
  updateTypeText : Buffer 32
deriving DecidableEq, Inhabited

def uxSignTransactionDist (c : Context) : List Step :=
  [ uxSignFlowSharedReview,
    uxUpdateType c.updateTypeText,
    { title := "Baker fee", text := c.baker.bytes },
    { title := "GAS account fee", text := c.gasAccount.bytes } ] ++ uxSignAndDecline

end SignUpdateTransactionFeeDistribution

open SignUpdateTransactionFeeDistribution in
def handleSignUpdateTransactionFeeDistribution (cdata : Ptr) : Fw Context PUnit := do
  let read ← readUpdateHeader cdata UpdateType.transactionFeeDistribution
  let cdata := cdata.advance read
  Fw.modifyCtx fun c =>
    { c with updateTypeText := updateTypeText UpdateType.transactionFeeDistribution }
  let baker ← Fw.eval (fractionToPercentageDisplay 8 (cdata.u4be 0))
  Fw.modifyCtx fun c => { c with baker := c.baker.memmove 0 baker }
  updateHash cdata 4
  let cdata := cdata.advance 4
  let gasAccount ← Fw.eval (fractionToPercentageDisplay 8 (cdata.u4be 0))
  Fw.modifyCtx fun c => { c with gasAccount := c.gasAccount.memmove 0 gasAccount }
  updateHash cdata 4
  uxFlowInit fun d => uxSignTransactionDist d.ctx
  waitForButton

namespace SignUpdateBakerStakeThreshold

/-- `signUpdateBakerStakeThresholdContext_t`. The text of an amount may be longer than the 26 bytes
of `stakeThreshold` and run on into `updateTypeText`, so the two are one array here. -/
structure Context where
  texts : Buffer 58
deriving DecidableEq, Inhabited

def offUpdateTypeText : Nat := 26

/-- The string at `stakeThreshold` does not end with that array. -/
def Context.stakeThreshold (c : Context) : List UInt8 := c.texts.bytes

def Context.updateTypeText (c : Context) : Buffer 32 := c.texts.part offUpdateTypeText 32

def uxSignBakerStakeThreshold (c : Context) : List Step :=
  [ uxSignFlowSharedReview,
    uxUpdateType c.updateTypeText,
    { title := "Stake threshold", text := c.stakeThreshold } ] ++ uxSignAndDecline

end SignUpdateBakerStakeThreshold

open SignUpdateBakerStakeThreshold in
def handleSignUpdateBakerStakeThreshold (cdata : Ptr) : Fw Context PUnit := do
  let read ← readUpdateHeader cdata UpdateType.bakerStakeThreshold
  let cdata := cdata.advance read
  Fw.modifyCtx fun c => { c with
    texts := c.texts.memmove offUpdateTypeText (updateTypeText UpdateType.bakerStakeThreshold).bytes }
  let text ← Fw.eval (amountToGtuDisplay 26 (cdata.u8be 0))
  Fw.modifyCtx fun c => { c with texts := c.texts.memmove 0 text }
  updateHash cdata 8
  uxFlowInit fun d => uxSignBakerStakeThreshold d.ctx
  waitForButton

namespace SignUpdateTimeParameters

/-- `signUpdateTimeParametersContext_t` -/
structure Context where
  mintRate : Buffer 35
  rewardPeriodLength : Buffer 21
  updateTypeText : Buffer 32
deriving DecidableEq, Inhabited

def uxSignTimeParameters (c : Context) : List Step :=
  [ uxSignFlowSharedReview,
    uxUpdateType c.updateTypeText,
    { title := "Reward Period Length", text := c.rewardPeriodLength.bytes },
    { title := "Mint rate", text := c.mintRate.bytes } ] ++ uxSignAndDecline

/-- The mint rate as `mantissa*10^(-exponent)`. -/
def mintRateText (mantissa : UInt32) (exponent : UInt8) : Except Error (List UInt8) := do
  let number ← numberToText 35 mantissa.toUInt64
  let text := number ++ ascii "*10^(-"
  let number ← numberToText (subSize 35 text.length) exponent.toUInt64
  return text ++ number ++ literal ")"

end SignUpdateTimeParameters

open SignUpdateTimeParameters in
def handleSignUpdateTimeParameters (cdata : Ptr) : Fw Context PUnit := do
  let read ← readUpdateHeader cdata UpdateType.timeParameters
  let cdata := cdata.advance read
  Fw.modifyCtx fun c => { c with updateTypeText := updateTypeText UpdateType.timeParameters }
  updateHash cdata 8
  let rewardPeriodLength ← Fw.eval (numberToText 21 (cdata.u8be 0))
  Fw.modifyCtx fun c =>
    { c with rewardPeriodLength := c.rewardPeriodLength.memmove 0 rewardPeriodLength }
  let cdata := cdata.advance 8
  updateHash cdata 5
  let mintRate ← Fw.eval (mintRateText (cdata.u4be 0) (cdata 4))
  Fw.modifyCtx fun c => { c with mintRate := c.mintRate.memmove 0 mintRate }
  uxFlowInit fun d => uxSignTimeParameters d.ctx
  waitForButton

namespace SignUpdateCooldownParameters

/-- `signUpdateCooldownParametersContext_t` -/
structure Context where
  poolOwnerCooldown : Buffer 21
  delegatorCooldown : Buffer 21
  updateTypeText : Buffer 32
deriving DecidableEq, Inhabited

def uxSignCooldownParameters (c : Context) : List Step :=
  [ uxSignFlowSharedReview,
    uxUpdateType c.updateTypeText,
    { title := "Pool owner cooldown", text := c.poolOwnerCooldown.bytes },
    { title := "Delegator cooldown", text := c.delegatorCooldown.bytes } ] ++ uxSignAndDecline

end SignUpdateCooldownParameters

open SignUpdateCooldownParameters in
def handleSignUpdateCooldownParameters (cdata : Ptr) : Fw Context PUnit := do
  let read ← readUpdateHeader cdata UpdateType.cooldownParameters
  let cdata := cdata.advance read
  Fw.modifyCtx fun c => { c with updateTypeText := updateTypeText UpdateType.cooldownParameters }
  updateHash cdata 8
  let poolOwner ← Fw.eval (numberToText 21 (cdata.u8be 0))
  Fw.modifyCtx fun c => { c with poolOwnerCooldown := c.poolOwnerCooldown.memmove 0 poolOwner }
  let cdata := cdata.advance 8
  updateHash cdata 8
  let delegator ← Fw.eval (numberToText 21 (cdata.u8be 0))
  Fw.modifyCtx fun c => { c with delegatorCooldown := c.delegatorCooldown.memmove 0 delegator }
  uxFlowInit fun d => uxSignCooldownParameters d.ctx
  waitForButton

namespace SignUpdateTimeoutParameters

/-- `signUpdateTimeoutParametersContext_t` -/
structure Context where
  timeoutBase : Buffer 21
  increaseTimeoutRatio : Buffer 44
  decreaseTimeoutRatio : Buffer 44
  updateTypeText : Buffer 32
deriving DecidableEq, Inhabited

def uxSignUpdateTimeoutParameters (c : Context) : List Step :=
  [ uxSignFlowSharedReview,
    uxUpdateType c.updateTypeText,
    { title := "Timeout base", text := c.timeoutBase.bytes },
    { title := "Increase ratio", text := c.increaseTimeoutRatio.bytes },
    { title := "Decrease ratio", text := c.decreaseTimeoutRatio.bytes } ] ++ uxSignAndDecline

end SignUpdateTimeoutParameters

open SignUpdateTimeoutParameters in
def handleSignTimeoutParameters (cdata : Ptr) : Fw Context PUnit := do
  let read ← readUpdateHeader cdata UpdateType.timeoutParameters
  let cdata := cdata.advance read
  Fw.modifyCtx fun c => { c with updateTypeText := updateTypeText UpdateType.timeoutParameters }
  updateHash cdata 8
  let base ← Fw.eval (numberToText 21 (cdata.u8be 0))
  let cdata := cdata.advance 8
  Fw.modifyCtx fun c => { c with timeoutBase := c.timeoutBase.memmove 0 base }
  let ctx ← Fw.getCtx
  let (read, increase) ← hashAndLoadU64Ratio cdata ctx.increaseTimeoutRatio
  Fw.modifyCtx fun c => { c with increaseTimeoutRatio := increase }
  let cdata := cdata.advance read
  let (_, decrease) ← hashAndLoadU64Ratio cdata ctx.decreaseTimeoutRatio
  Fw.modifyCtx fun c => { c with decreaseTimeoutRatio := decrease }
  uxFlowInit fun d => uxSignUpdateTimeoutParameters d.ctx
  waitForButton

/-- A text and its unit, terminated. -/
def numberToTextWithUnit (dstLength : Nat) (number : UInt64) (unit : String) :
    Except Error (List UInt8) := do
  let text ← numberToText dstLength number
  if dstLength - text.length < unit.length + 2 then .error .bufferOverflow
  else .ok (text ++ [32] ++ literal unit)

namespace SignUpdateMinBlockTime

/-- `signUpdateMinBlockTimeContext_t` -/
structure Context where
  minBlockTime : Buffer 25
  updateTypeText : Buffer 32
deriving DecidableEq, Inhabited

def uxSignUpdateMinBlockTime (c : Context) : List Step :=
  [ uxSignFlowSharedReview,
    uxUpdateType c.updateTypeText,
    { title := "Min block time", text := c.minBlockTime.bytes } ] ++ uxSignAndDecline

end SignUpdateMinBlockTime

open SignUpdateMinBlockTime in
def handleSignMinBlockTime (cdata : Ptr) : Fw Context PUnit := do
  let read ← readUpdateHeader cdata UpdateType.minBlockTime
  let cdata := cdata.advance read
  Fw.modifyCtx fun c => { c with updateTypeText := updateTypeText UpdateType.minBlockTime }
  updateHash cdata 8
  let text ← Fw.eval (numberToTextWithUnit 25 (cdata.u8be 0) "ms")
  Fw.modifyCtx fun c => { c with minBlockTime := c.minBlockTime.memmove 0 text }
  uxFlowInit fun d => uxSignUpdateMinBlockTime d.ctx
  waitForButton

namespace SignUpdateBlockEnergyLimit

/-- `signUpdateBlockEnergyLimitContext_t` -/
structure Context where
  blockEnergyLimit : Buffer 22
  updateTypeText : Buffer 32
deriving DecidableEq, Inhabited

def uxSignUpdateBlockEnergyLimit (c : Context) : List Step :=
  [ uxSignFlowSharedReview,
    uxUpdateType c.updateTypeText,
    { title := "Block energy limit", text := c.blockEnergyLimit.bytes } ] ++ uxSignAndDecline

end SignUpdateBlockEnergyLimit

open SignUpdateBlockEnergyLimit in
def handleSignUpdateBlockEnergyLimit (cdata : Ptr) : Fw Context PUnit := do
  let read ← readUpdateHeader cdata UpdateType.blockEnergyLimit
  let cdata := cdata.advance read
  Fw.modifyCtx fun c => { c with updateTypeText := updateTypeText UpdateType.blockEnergyLimit }
  updateHash cdata 8
  let text ← Fw.eval (numberToText 22 (cdata.u8be 0))
  Fw.modifyCtx fun c => { c with blockEnergyLimit := c.blockEnergyLimit.memmove 0 text }
  uxFlowInit fun d => uxSignUpdateBlockEnergyLimit d.ctx
  waitForButton

namespace SignUpdateFinalizationCommitteeParameters

/-- `signUpdateFinalizationCommitteeParametersContext_t` -/
structure Context where
  minFinalizers : Buffer 11
  maxFinalizers : Buffer 11
  relativeStakeThreshold : Buffer 8
  updateTypeText : Buffer 32
deriving DecidableEq, Inhabited

def uxSignUpdateFinalizationCommitteeParameters (c : Context) : List Step :=
  [ uxSignFlowSharedReview,
    uxUpdateType c.updateTypeText,
    { title := "Min finalizers", text := c.minFinalizers.bytes },
    { title := "Max finalizers", text := c.maxFinalizers.bytes },
    { title := "Stake threshold", text := c.relativeStakeThreshold.bytes } ] ++ uxSignAndDecline

end SignUpdateFinalizationCommitteeParameters

open SignUpdateFinalizationCommitteeParameters in
def handleSignUpdateFinalizationCommitteeParameters (cdata : Ptr) : Fw Context PUnit := do
  let read ← readUpdateHeader cdata UpdateType.finalizationCommitteeParameters
  let cdata := cdata.advance read
  Fw.modifyCtx fun c =>
    { c with updateTypeText := updateTypeText UpdateType.finalizationCommitteeParameters }
  updateHash cdata 12
  let minText ← Fw.eval (bin2dec 11 (cdata.u4be 0).toUInt64)
  Fw.modifyCtx fun c => { c with minFinalizers := c.minFinalizers.memmove 0 minText }
  let maxText ← Fw.eval (bin2dec 11 (cdata.u4be 4).toUInt64)
  Fw.modifyCtx fun c => { c with maxFinalizers := c.maxFinalizers.memmove 0 maxText }
  let threshold ← Fw.eval (fractionToPercentageDisplay 8 (cdata.u4be 8))
  Fw.modifyCtx fun c =>
    { c with relativeStakeThreshold := c.relativeStakeThreshold.memmove 0 threshold }
  uxFlowInit fun d => uxSignUpdateFinalizationCommitteeParameters d.ctx
  waitForButton

namespace SignUpdateValidatorScoreParameters

/-- `signUpdateValidatorScoreParametersContext_t` -/
structure Context where
  maxMissedRounds : Buffer 21
  updateTypeText : Buffer 32
deriving DecidableEq, Inhabited

def uxSignValidatorScoreParameters (c : Context) : List Step :=
  [ uxSignFlowSharedReview,
    uxUpdateType c.updateTypeText,
    { title := "Max missed rounds", text := c.maxMissedRounds.bytes } ] ++ uxSignAndDecline

end SignUpdateValidatorScoreParameters

open SignUpdateValidatorScoreParameters in
def handleSignUpdateValidatorScoreParameters (cdata : Ptr) : Fw Context PUnit := do
  let read ← readUpdateHeader cdata UpdateType.validatorScoreParameters
  let cdata := cdata.advance read
  Fw.modifyCtx fun c =>
    { c with updateTypeText := updateTypeText UpdateType.validatorScoreParameters }
  updateHash cdata 8
  let text ← Fw.eval (numberToText 21 (cdata.u8be 0))
  Fw.modifyCtx fun c => { c with maxMissedRounds := c.maxMissedRounds.memmove 0 text }
  uxFlowInit fun d => uxSignValidatorScoreParameters d.ctx
  waitForButton

end ConcordiumLedger
