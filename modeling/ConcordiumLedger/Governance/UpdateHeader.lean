import ConcordiumLedger.Common.Util

/-!
# Governance.UpdateHeader

What the update instructions of the governance application share: the update types and their texts
(`updateType_e` of `globals.h`, `getUpdateTypeText` of `util.c`), and how most of them start.
-/

namespace ConcordiumLedger

open CMem CProg

variable {γ : Type}

namespace UpdateType

def protocol : UInt8 := 1
def euroPerEnergy : UInt8 := 3
def microGtuPerEuro : UInt8 := 4
def foundationAccount : UInt8 := 5
def transactionFeeDistribution : UInt8 := 7
def bakerStakeThreshold : UInt8 := 9
def updateRootKeys : UInt8 := 10
def updateLevel1Keys : UInt8 := 11
def addAnonymityRevoker : UInt8 := 12
def addIdentityProvider : UInt8 := 13
def cooldownParameters : UInt8 := 14
def poolParameters : UInt8 := 15
def timeParameters : UInt8 := 16
def mintDistributionV1 : UInt8 := 17
def timeoutParameters : UInt8 := 18
def minBlockTime : UInt8 := 19
def blockEnergyLimit : UInt8 := 20
def gasRewardsCpv2 : UInt8 := 21
def finalizationCommitteeParameters : UInt8 := 22
def validatorScoreParameters : UInt8 := 23
def createPlt : UInt8 := 24

end UpdateType

def getUpdateTypeText (updateType : UInt8) : String :=
  match updateType.toNat with
  | 0 => "Authorization"
  | 1 => "Protocol"
  | 3 => "Euro per energy"
  | 4 => "uCCD per Euro"
  | 5 => "Foundation account"
  | 6 => "Mint distribution v0"
  | 7 => "Tx fee distribution"
  | 8 => "GAS rewards"
  | 9 => "Baker stake threshold"
  | 10 => "Root keys"
  | 11 => "Level 1 keys"
  | 12 => "Add anonymity revoker"
  | 13 => "Add identity provider"
  | 14 => "Cooldown params"
  | 15 => "Pool params"
  | 16 => "Time params"
  | 17 => "Mint distribution"
  | 18 => "Timeout params"
  | 19 => "Min block time"
  | 20 => "Block energy limit"
  | 21 => "GAS rewards"
  | 22 => "Fin. comm. params"
  | 23 => "Valid. score params"
  | 24 => "Create PLT"
  | _ => "Unknown update"

/-- `strncpy(ctx->updateTypeText, getUpdateTypeText(updateType), 32)`: zeroes fill the array after
the text. Some handlers then also set the last byte to 0, which it is: every text is shorter. -/
def updateTypeText (updateType : UInt8) : Buffer 32 :=
  (Buffer.zero 32).memmove 0 (ascii (getUpdateTypeText updateType))

def uxUpdateType (text : Buffer 32) : Step := { title := "Update type", text := text.bytes }

/-- A title that lies in an array. -/
def titleOf (bytes : List UInt8) : String :=
  .ofList (((cString bytes).getD bytes).map fun b => Char.ofNat b.toNat)

/-- The start of an update: the key path, a new hash, the update header and type. Returns the
number of bytes read. -/
def readUpdateHeader (cdata : Ptr) (updateType : UInt8) : Fw γ Nat := do
  let keyPathLength ← parseKeyDerivationPath cdata
  cxSha256Init
  let headerLength ← hashUpdateHeaderAndType (cdata.advance keyPathLength) updateType
  return keyPathLength + headerLength

/-- The end of a flow. -/
def uxSignAndDecline : List Step := [uxSignFlowSharedSign, uxSignFlowSharedDecline]

end ConcordiumLedger
