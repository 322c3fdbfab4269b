import ConcordiumLedger.Common.GetPublicKey
import ConcordiumLedger.Common.MainHelpers
import ConcordiumLedger.Main.ExportPrivateKey
import ConcordiumLedger.Main.SignConfigureBaker
import ConcordiumLedger.Main.SignConfigureDelegation
import ConcordiumLedger.Main.SignCredentialDeployment
import ConcordiumLedger.Main.SignEncryptedAmountTransfer
import ConcordiumLedger.Main.SignPublicInformationForIp
import ConcordiumLedger.Main.SignRegisterData
import ConcordiumLedger.Main.SignTransfer
import ConcordiumLedger.Main.SignTransferToEncrypted
import ConcordiumLedger.Main.SignTransferWithSchedule

/-!
# Main.App

The main application: its instructions, the union of their contexts and the callbacks (`main.c`,
`globals.h`).

`InstructionContext μ` says how the members of the union lie in a memory `μ`. Results about the
application hold for every layout; `Contexts` is a memory that keeps the members apart, on which
runs can be computed.
-/

namespace ConcordiumLedger

open CMem CProg

/-- The members of the union `instructionContext`. The four inner contexts that share their struct
with a CBOR context are members with it. -/
structure InstructionContext (μ : Type) where
  exportPrivateKeyContext : Member μ ExportPrivateKey.Context
  exportPublicKeyContext : Member μ GetPublicKey.Context
  verifyAddressContext : Member μ VerifyAddress.Context
  signPublicInformationForIp : Member μ SignPublicInformationForIp.Context
  signCredentialDeploymentContext : Member μ SignCredentialDeployment.Context
  signTransferToEncrypted : Member μ SignTransferToEncrypted.Context
  signTransferToPublic : Member μ SignTransferToPublic.Context
  signConfigureBaker : Member μ SignConfigureBaker.Context
  signConfigureDelegation : Member μ SignConfigureDelegation.Context
  signTransferContext : Member μ SignTransfer.Blob
  signEncryptedAmountToTransfer : Member μ SignEncryptedAmountTransfer.Blob
  signTransferWithScheduleContext : Member μ SignTransferWithSchedule.Blob
  signRegisterData : Member μ SignRegisterData.Blob

def insVerifyAddress : UInt8 := 0x00
def insGetPublicKey : UInt8 := 0x01
def insSignTransfer : UInt8 := 0x02
def insSignTransferWithSchedule : UInt8 := 0x03
def insCredentialDeployment : UInt8 := 0x04
def insExportPrivateKey : UInt8 := 0x05
def insEncryptedAmountTransfer : UInt8 := 0x10
def insTransferToEncrypted : UInt8 := 0x11
def insTransferToPublic : UInt8 := 0x12
def insConfigureDelegation : UInt8 := 0x17
def insConfigureBaker : UInt8 := 0x18
def insPublicInfoForIp : UInt8 := 0x20
def insSignUpdateCredential : UInt8 := 0x31
def insSignTransferWithMemo : UInt8 := 0x32
def insEncryptedAmountTransferWithMemo : UInt8 := 0x33
def insSignTransferWithScheduleAndMemo : UInt8 := 0x34
def insRegisterData : UInt8 := 0x35

variable {μ : Type}

def mainHandler (sdk : Sdk) (u : InstructionContext μ) (apdu : Apdu) (isInitialCall : Bool) :
    Fw μ PUnit :=
  let cdata := apdu.cdata
  let p1 := apdu.p1
  let p2 := apdu.p2
  let lc := apdu.lc
  if apdu.ins = insGetPublicKey then
    Fw.on u.exportPublicKeyContext (handleGetPublicKey sdk cdata p1 p2)
  else if apdu.ins = insVerifyAddress then
    Fw.on u.verifyAddressContext (handleVerifyAddress sdk cdata)
  else if apdu.ins = insSignTransfer then
    Fw.on u.signTransferContext (handleSignTransfer sdk cdata)
  else if apdu.ins = insSignTransferWithMemo then
    Fw.on u.signTransferContext (handleSignTransferWithMemo sdk cdata p1 lc isInitialCall)
  else if apdu.ins = insSignTransferWithSchedule then
    Fw.on u.signTransferWithScheduleContext
      (handleSignTransferWithSchedule sdk cdata p1 isInitialCall)
  else if apdu.ins = insSignTransferWithScheduleAndMemo then
    Fw.on u.signTransferWithScheduleContext
      (handleSignTransferWithScheduleAndMemo sdk cdata p1 lc isInitialCall)
  else if apdu.ins = insCredentialDeployment then
    Fw.on u.signCredentialDeploymentContext
      (handleSignCredentialDeployment sdk cdata p1 p2 isInitialCall)
  else if apdu.ins = insExportPrivateKey then
    Fw.on u.exportPrivateKeyContext (handleExportPrivateKey cdata p1 p2)
  else if apdu.ins = insTransferToEncrypted then
    Fw.on u.signTransferToEncrypted (handleSignTransferToEncrypted sdk cdata)
  else if apdu.ins = insEncryptedAmountTransfer then
    Fw.on u.signEncryptedAmountToTransfer
      (handleSignEncryptedAmountTransfer sdk cdata p1 lc isInitialCall)
  else if apdu.ins = insEncryptedAmountTransferWithMemo then
    Fw.on u.signEncryptedAmountToTransfer
      (handleSignEncryptedAmountTransferWithMemo sdk cdata p1 lc isInitialCall)
  else if apdu.ins = insTransferToPublic then
    Fw.on u.signTransferToPublic (handleSignTransferToPublic sdk cdata p1 lc isInitialCall)
  else if apdu.ins = insRegisterData then
    Fw.on u.signRegisterData (handleSignRegisterData sdk cdata p1 lc isInitialCall)
  else if apdu.ins = insPublicInfoForIp then
    Fw.on u.signPublicInformationForIp (handleSignPublicInformationForIp cdata p1 isInitialCall)
  else if apdu.ins = insConfigureBaker then
    Fw.on u.signConfigureBaker (handleSignConfigureBaker sdk cdata p1 lc isInitialCall)
  else if apdu.ins = insConfigureDelegation then
    Fw.on u.signConfigureDelegation (handleSignConfigureDelegation sdk cdata lc)
  else if apdu.ins = insSignUpdateCredential then
    Fw.on u.signCredentialDeploymentContext
      (handleSignUpdateCredential sdk cdata p1 p2 isInitialCall)
  else Fw.throw .invalidInstruction

/-- The callbacks of the instructions. -/
def mainOwnCallback (sdk : Sdk) (u : InstructionContext μ) : Callback → Fw μ PUnit
  | .sendPublicKey => Fw.on u.exportPublicKeyContext (sendPublicKey sdk true)
  | .exportPrivateKey => Fw.on u.exportPrivateKeyContext (exportPrivateKey sdk)
  | .processNextScheduledAmount =>
    Fw.on u.signTransferWithScheduleContext processNextScheduledAmount
  | .processNextVerificationKey =>
    Fw.on u.signCredentialDeploymentContext processNextVerificationKey
  | .handleData => Fw.on u.signRegisterData handleData
  | _ => pure ⟨⟩

def mainApp (sdk : Sdk) (u : InstructionContext μ) : App μ where
  handler := mainHandler sdk u
  callback := sharedCallback sdk (mainOwnCallback sdk u)

/-! ## A layout -/

/-- All contexts side by side. -/
structure Contexts where
  exportPrivateKeyContext : ExportPrivateKey.Context
  exportPublicKeyContext : GetPublicKey.Context
  verifyAddressContext : VerifyAddress.Context
  signPublicInformationForIp : SignPublicInformationForIp.Context
  signCredentialDeploymentContext : SignCredentialDeployment.Context
  signTransferToEncrypted : SignTransferToEncrypted.Context
  signTransferToPublic : SignTransferToPublic.Context
  signConfigureBaker : SignConfigureBaker.Context
  signConfigureDelegation : SignConfigureDelegation.Context
  signTransferContext : SignTransfer.Blob
  signEncryptedAmountToTransfer : SignEncryptedAmountTransfer.Blob
  signTransferWithScheduleContext : SignTransferWithSchedule.Blob
  signRegisterData : SignRegisterData.Blob
deriving Inhabited

def Contexts.layout : InstructionContext Contexts where
  exportPrivateKeyContext :=
    ⟨exportPrivateKeyContext, fun a m => { m with exportPrivateKeyContext := a }, fun _ _ => rfl⟩
  exportPublicKeyContext :=
    ⟨exportPublicKeyContext, fun a m => { m with exportPublicKeyContext := a }, fun _ _ => rfl⟩
  verifyAddressContext :=
    ⟨verifyAddressContext, fun a m => { m with verifyAddressContext := a }, fun _ _ => rfl⟩
  signPublicInformationForIp :=
    ⟨signPublicInformationForIp, fun a m => { m with signPublicInformationForIp := a },
      fun _ _ => rfl⟩
  signCredentialDeploymentContext :=
    ⟨signCredentialDeploymentContext, fun a m => { m with signCredentialDeploymentContext := a },
      fun _ _ => rfl⟩
  signTransferToEncrypted :=
    ⟨signTransferToEncrypted, fun a m => { m with signTransferToEncrypted := a }, fun _ _ => rfl⟩
  signTransferToPublic :=
    ⟨signTransferToPublic, fun a m => { m with signTransferToPublic := a }, fun _ _ => rfl⟩
  signConfigureBaker :=
    ⟨signConfigureBaker, fun a m => { m with signConfigureBaker := a }, fun _ _ => rfl⟩
  signConfigureDelegation :=
    ⟨signConfigureDelegation, fun a m => { m with signConfigureDelegation := a }, fun _ _ => rfl⟩
  signTransferContext :=
    ⟨signTransferContext, fun a m => { m with signTransferContext := a }, fun _ _ => rfl⟩
  signEncryptedAmountToTransfer :=
    ⟨signEncryptedAmountToTransfer, fun a m => { m with signEncryptedAmountToTransfer := a },
      fun _ _ => rfl⟩
  signTransferWithScheduleContext :=
    ⟨signTransferWithScheduleContext, fun a m => { m with signTransferWithScheduleContext := a },
      fun _ _ => rfl⟩
  signRegisterData :=
    ⟨signRegisterData, fun a m => { m with signRegisterData := a }, fun _ _ => rfl⟩

/-- The main application after the device has booted, on memory that is all zeroes. -/
def bootedDevice : Device Contexts where
  ctx := default
  shared := {
    path := ⟨0, List.replicate 8 0, List.replicate 8 0, []⟩
    hash := []
    currentInstruction := none
    sender := default
    display := uxMenuIdleFlow
    replyOwed := false
    asynchReply := false
    running := true
    log := [.setInstruction none, .uxFlowInit uxMenuIdleFlow] }

theorem bootedDevice_booted : Booted bootedDevice := ⟨rfl, rfl, rfl, rfl, rfl, rfl⟩

end ConcordiumLedger
