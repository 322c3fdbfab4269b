import ConcordiumLedger.Common.Util

/-!
# Main.SignCredentialDeployment

Credential deployment and the update of credentials (`signCredentialDeployment.c`). One handler
reads a credential for both instructions; the update wraps it in a protocol of its own, selected
by `p2`.
-/

namespace ConcordiumLedger

open CMem CProg

namespace SignCredentialDeployment

/-- `protocolState_t` -/
inductive State where
  | initial
  | verificationKeysLength
  | verificationKey
  | signatureThreshold
  | arIdentity
  | credentialDates
  | attributeTag
  | attributeValue
  | lengthOfProofs
  | proofs
  | newOrExisting
  /-- The value 0, and any other that the union may hold. -/
  | stale
deriving DecidableEq, Inhabited

inductive UpdateCredentialState where
  | initial
  | credentialIndex
  | credential
  | idCount
  | id
  | threshold
  /-- Any other value: the union may hold bytes of another instruction. -/
  | stale
deriving DecidableEq, Inhabited

/-- `signCredentialDeploymentContext_t`, without the members that are not used. -/
structure Context where
  numberOfVerificationKeys : UInt8
  credentialDeploymentCount : UInt8
  credentialIdCount : UInt8
  credentialId : Buffer 102
  threshold : Buffer 4
  updateCredentialState : UpdateCredentialState
  accountVerificationKey : Buffer 68
  signatureThreshold : Buffer 4
  anonymityRevocationThreshold : Buffer 13
  anonymityRevocationListLength : UInt16
  attributeListLength : UInt16
  attributeValueLength : UInt8
  proofLength : UInt32
  accountAddress : Buffer 57
  state : State
  showIntro : Bool
deriving DecidableEq, Inhabited

/-- `UPDATE_CREDENTIALS` -/
def updateCredentials : UInt8 := 20

/-- `MAX_CDATA_LENGTH` -/
def maxCdataLength : Nat := 255

def p1InitialPacket : UInt8 := 0x00
def p1VerificationKeyLength : UInt8 := 0x0A
def p1VerificationKey : UInt8 := 0x01
def p1SignatureThreshold : UInt8 := 0x02
def p1ArIdentity : UInt8 := 0x03
def p1CredentialDates : UInt8 := 0x04
def p1AttributeTag : UInt8 := 0x05
def p1AttributeValue : UInt8 := 0x06
def p1LengthOfProofs : UInt8 := 0x07
def p1Proofs : UInt8 := 0x08
def p1NewOrExisting : UInt8 := 0x09

def p2CredentialInitial : UInt8 := 0x00
def p2CredentialCredentialIndex : UInt8 := 0x01
def p2CredentialCredential : UInt8 := 0x02
def p2CredentialIdCount : UInt8 := 0x03
def p2CredentialId : UInt8 := 0x04
def p2Threshold : UInt8 := 0x05

/-! ## Screens -/

def uxReviewDetails : Step :=
  { title := "Review", text := literal "details", callback := .sendSuccessNoIdle }

def uxUpdateCredentialsInitialFlow (s : Shared) : List Step :=
  [ uxSignFlowSharedReview,
    uxSignFlowAccountSenderView s,
    { title := "Continue", text := literal "with transaction", callback := .sendSuccessNoIdle } ]

/-- `ux_credential_deployment_verification_key_flow_0_step` -/
def uxPublicKey (c : Context) : Step :=
  { title := "Public key", text := c.accountVerificationKey.bytes }

/-- The review step in front of a flow, when nothing was displayed before it. -/
def withIntro (showIntro : Bool) (flow : List Step) : List Step :=
  if showIntro then uxReviewDetails :: flow else flow

/-- `ux_credential_deployment_verification_key_flow` -/
def uxVerificationKeyFlow (c : Context) : List Step :=
  [ uxPublicKey c,
    { title := "Continue", text := literal "with transaction",
      callback := .processNextVerificationKey } ]

/-- The last key and the two thresholds. -/
def keyAndThresholds (c : Context) : List Step :=
  [ uxPublicKey c,
    { title := "Signature threshold", text := c.signatureThreshold.bytes },
    { title := "AR threshold", text := c.anonymityRevocationThreshold.bytes,
      callback := .sendSuccessNoIdle } ]

def signDetails : List Step :=
  [ { title := "Sign", text := literal "details", callback := .buildAndSignTransactionHash },
    { title := "Decline to", text := literal "sign details", callback := .sendUserRejection } ]

def uxSignCredentialDeploymentExisting (c : Context) : List Step :=
  keyAndThresholds c ++ { title := "Address", text := c.accountAddress.bytes } :: signDetails

def uxSignCredentialDeploymentNew (c : Context) : List Step := keyAndThresholds c ++ signDetails

def uxSignCredentialUpdateId (c : Context) : List Step :=
  [ { title := "Rem. credential", text := c.credentialId.bytes, callback := .sendSuccessNoIdle } ]

def uxSignCredentialUpdateThreshold (c : Context) : List Step :=
  [ { title := "Cred. sig. threshold", text := c.threshold.bytes },
    uxSignFlowSharedSign,
    uxSignFlowSharedDecline ]

/-! ## A credential -/

def setState (state : State) : Fw Context PUnit := Fw.modifyCtx fun c => { c with state }

def setUpdateState (updateCredentialState : UpdateCredentialState) : Fw Context PUnit :=
  Fw.modifyCtx fun c => { c with updateCredentialState }

def parseVerificationKey (buffer : Ptr) : Fw Context PUnit := do
  updateHash buffer 1
  let buffer := buffer.advance 1
  updateHash buffer 1
  let buffer := buffer.advance 1
  updateHash buffer 32
  let ctx ← Fw.getCtx
  let hex ← Fw.eval (toPaginatedHex (buffer.slice 32) ctx.accountVerificationKey)
  Fw.modifyCtx fun c => { c with
    accountVerificationKey := hex
    numberOfVerificationKeys := c.numberOfVerificationKeys - 1 }

def handleVerificationKey (dataBuffer : Ptr) : Fw Context PUnit := do
  let ctx ← Fw.getCtx
  Fw.throwIf (¬ (ctx.numberOfVerificationKeys > 0 ∧ ctx.state = .verificationKey)) .invalidState
  parseVerificationKey dataBuffer
  let ctx ← Fw.getCtx
  if ctx.numberOfVerificationKeys > 0 then do
    uxFlowInit fun d => withIntro d.ctx.showIntro (uxVerificationKeyFlow d.ctx)
    Fw.modifyCtx fun c => { c with showIntro := false }
  else do
    setState .signatureThreshold
    sendSuccessNoIdle

/-- `x out of y`, in an array of 13 bytes. -/
def arThresholdText (threshold : UInt8) (listLength : UInt16) (dst : Buffer 13) :
    Except Error (Buffer 13) := do
  let number ← numberToText 13 threshold.toUInt64
  let dst := dst.memmove 0 (number ++ ascii " out of ")
  let total ← bin2dec (subSize 13 (number.length + 8)) listLength.toUInt64
  return dst.memmove (number.length + 8) total

def handleSignatureThreshold (dataBuffer : Ptr) : Fw Context PUnit := do
  let ctx ← Fw.getCtx
  Fw.throwIf (ctx.numberOfVerificationKeys ≠ 0) .invalidState
  let text ← Fw.eval (bin2dec 4 (dataBuffer 0).toUInt64)
  Fw.modifyCtx fun c => { c with signatureThreshold := c.signatureThreshold.memmove 0 text }
  updateHash dataBuffer 1
  let dataBuffer := dataBuffer.advance 1
  updateHash dataBuffer 48
  let dataBuffer := dataBuffer.advance 48
  updateHash dataBuffer 4
  let dataBuffer := dataBuffer.advance 4
  let threshold := dataBuffer 0
  updateHash dataBuffer 1
  let dataBuffer := dataBuffer.advance 1
  Fw.modifyCtx fun c => { c with anonymityRevocationListLength := dataBuffer.u2be 0 }
  updateHash dataBuffer 2
  let text ← Fw.eval
    (arThresholdText threshold (dataBuffer.u2be 0) ctx.anonymityRevocationThreshold)
  Fw.modifyCtx fun c => { c with anonymityRevocationThreshold := text }
  setState .arIdentity
  sendSuccessNoIdle

def handleArIdentity (dataBuffer : Ptr) : Fw Context PUnit := do
  let ctx ← Fw.getCtx
  Fw.throwIf (ctx.anonymityRevocationListLength = 0) .invalidState
  updateHash dataBuffer 4
  updateHash (dataBuffer.advance 4) 96
  Fw.when (ctx.anonymityRevocationListLength = 1) (setState .credentialDates)
  Fw.modifyCtx fun c => { c with
    anonymityRevocationListLength := c.anonymityRevocationListLength - 1 }
  sendSuccessNoIdle

def handleCredentialDates (dataBuffer : Ptr) : Fw Context PUnit := do
  updateHash dataBuffer 6
  let dataBuffer := dataBuffer.advance 6
  Fw.modifyCtx fun c => { c with attributeListLength := dataBuffer.u2be 0 }
  updateHash dataBuffer 2
  setState (if dataBuffer.u2be 0 = 0 then .lengthOfProofs else .attributeTag)
  sendSuccessNoIdle

def handleAttributeTag (dataBuffer : Ptr) : Fw Context PUnit := do
  let ctx ← Fw.getCtx
  Fw.throwIf (ctx.attributeListLength ≤ 0) .invalidState
  updateHash dataBuffer 1
  let dataBuffer := dataBuffer.advance 1
  Fw.modifyCtx fun c => { c with attributeValueLength := dataBuffer 0 }
  updateHash dataBuffer 1
  setState .attributeValue
  sendSuccessNoIdle

def handleAttributeValue (dataBuffer : Ptr) : Fw Context PUnit := do
  let ctx ← Fw.getCtx
  updateHash dataBuffer ctx.attributeValueLength.toNat
  Fw.modifyCtx fun c => { c with attributeListLength := c.attributeListLength - 1 }
  setState (if ctx.attributeListLength - 1 = 0 then .lengthOfProofs else .attributeTag)
  sendSuccessNoIdle

def handleLengthOfProofs (dataBuffer : Ptr) (p2 : UInt8) : Fw Context PUnit := do
  Fw.modifyCtx fun c => { c with proofLength := dataBuffer.u4be 0 }
  Fw.when (p2 = p2CredentialCredential) (updateHash dataBuffer 4)
  setState .proofs
  sendSuccessNoIdle

/-- The states after the last proof bytes. -/
def Context.finishCredential (c : Context) (p2 : UInt8) : Context :=
  if p2 = p2CredentialCredential ∧ c.updateCredentialState = .credential ∧
      c.credentialDeploymentCount > 0 then
    if c.credentialDeploymentCount - 1 = 0 then
      { c with
        credentialDeploymentCount := c.credentialDeploymentCount - 1
        updateCredentialState := .idCount
        state := .stale }
    else
      { c with
        credentialDeploymentCount := c.credentialDeploymentCount - 1
        updateCredentialState := .credentialIndex
        state := .verificationKeysLength }
  else { c with state := .newOrExisting }

def handleProofs (dataBuffer : Ptr) (p2 : UInt8) : Fw Context PUnit := do
  let ctx ← Fw.getCtx
  if ctx.proofLength.toNat > maxCdataLength then do
    updateHash dataBuffer maxCdataLength
    Fw.modifyCtx fun c => { c with proofLength := c.proofLength - 255 }
    sendSuccessNoIdle
  else do
    updateHash dataBuffer ctx.proofLength.toNat
    Fw.modifyCtx fun c => c.finishCredential p2
    sendSuccessNoIdle

def handleNewOrExisting (sdk : Sdk) (dataBuffer : Ptr) : Fw Context PUnit := do
  updateHash dataBuffer 1
  let newOrExisting := dataBuffer 0
  let dataBuffer := dataBuffer.advance 1
  if newOrExisting = 0 then do
    updateHash dataBuffer 8
    uxFlowInit fun d => withIntro d.ctx.showIntro (uxSignCredentialDeploymentNew d.ctx)
  else if newOrExisting = 1 then do
    let ctx ← Fw.getCtx
    let text ← Fw.eval (addressText sdk (dataBuffer.slice 32) ctx.accountAddress)
    Fw.modifyCtx fun c => { c with accountAddress := text }
    updateHash dataBuffer 32
    uxFlowInit fun d => withIntro d.ctx.showIntro (uxSignCredentialDeploymentExisting d.ctx)
  else Fw.throw .invalidTransaction

end SignCredentialDeployment

open SignCredentialDeployment

/-- Both branches of the source ask the computer for more. -/
def processNextVerificationKey : Fw Context PUnit := do
  let ctx ← Fw.getCtx
  Fw.when (ctx.numberOfVerificationKeys = 0) (setState .signatureThreshold)
  sendSuccessNoIdle

/-- `IO_ASYNCH_REPLY` is set after every packet, also after those that were replied to. -/
def handleSignCredentialDeployment (sdk : Sdk) (dataBuffer : Ptr) (p1 p2 : UInt8)
    (isInitialCall : Bool) : Fw Context PUnit := do
  Fw.when isInitialCall (setState .initial)
  let ctx ← Fw.getCtx
  (if p1 = p1InitialPacket ∧ ctx.state = .initial then do
    let _ ← parseKeyDerivationPath dataBuffer
    cxSha256Init
    Fw.modifyCtx fun c => { c with state := .verificationKeysLength, showIntro := true }
    sendSuccessNoIdle
  else if p1 = p1VerificationKeyLength ∧ ctx.state = .verificationKeysLength then do
    Fw.modifyCtx fun c => { c with numberOfVerificationKeys := dataBuffer 0 }
    updateHash dataBuffer 1
    setState .verificationKey
    sendSuccessNoIdle
  else if p1 = p1VerificationKey then handleVerificationKey dataBuffer
  else if p1 = p1SignatureThreshold ∧ ctx.state = .signatureThreshold then
    handleSignatureThreshold dataBuffer
  else if p1 = p1ArIdentity ∧ ctx.state = .arIdentity then handleArIdentity dataBuffer
  else if p1 = p1CredentialDates ∧ ctx.state = .credentialDates then
    handleCredentialDates dataBuffer
  else if p1 = p1AttributeTag ∧ ctx.state = .attributeTag then handleAttributeTag dataBuffer
  else if p1 = p1AttributeValue ∧ ctx.state = .attributeValue then handleAttributeValue dataBuffer
  else if p1 = p1LengthOfProofs ∧ ctx.state = .lengthOfProofs then
    handleLengthOfProofs dataBuffer p2
  else if p1 = p1Proofs ∧ ctx.state = .proofs then handleProofs dataBuffer p2
  else if p1 = p1NewOrExisting ∧ ctx.state = .newOrExisting then
    handleNewOrExisting sdk dataBuffer
  else Fw.throw .invalidState : Fw Context PUnit)
  waitForButton

namespace SignCredentialDeployment

def handleUpdateInitial (sdk : Sdk) (dataBuffer : Ptr) : Fw Context PUnit := do
  let read ← parseKeyDerivationPath dataBuffer
  let dataBuffer := dataBuffer.advance read
  cxSha256Init
  let read ← hashAccountTransactionHeaderAndKind sdk dataBuffer updateCredentials
  let dataBuffer := dataBuffer.advance read
  Fw.modifyCtx fun c => { c with credentialDeploymentCount := dataBuffer 0 }
  updateHash dataBuffer 1
  setUpdateState (if dataBuffer 0 = 0 then .idCount else .credentialIndex)
  uxFlowInit fun d => uxUpdateCredentialsInitialFlow d.shared
  waitForButton

def handleCredentialIdCount (dataBuffer : Ptr) : Fw Context PUnit := do
  Fw.modifyCtx fun c => { c with credentialIdCount := dataBuffer 0 }
  updateHash dataBuffer 1
  setUpdateState (if dataBuffer 0 = 0 then .threshold else .id)
  sendSuccessNoIdle

def handleCredentialId (dataBuffer : Ptr) : Fw Context PUnit := do
  updateHash dataBuffer 48
  let ctx ← Fw.getCtx
  let hex ← Fw.eval (toPaginatedHex (dataBuffer.slice 48) ctx.credentialId)
  Fw.modifyCtx fun c => { c with
    credentialId := hex
    credentialIdCount := c.credentialIdCount - 1 }
  Fw.when (ctx.credentialIdCount - 1 = 0) (setUpdateState .threshold)
  uxFlowInit fun d => uxSignCredentialUpdateId d.ctx
  waitForButton

def handleUpdateThreshold (dataBuffer : Ptr) : Fw Context PUnit := do
  let text ← Fw.eval (bin2dec 4 (dataBuffer 0).toUInt64)
  Fw.modifyCtx fun c => { c with threshold := c.threshold.memmove 0 text }
  updateHash dataBuffer 1
  uxFlowInit fun d => uxSignCredentialUpdateThreshold d.ctx
  waitForButton

end SignCredentialDeployment

def handleSignUpdateCredential (sdk : Sdk) (dataBuffer : Ptr) (p1 p2 : UInt8)
    (isInitialCall : Bool) : Fw Context PUnit := do
  Fw.when isInitialCall (Fw.modifyCtx fun c => { c with
    updateCredentialState := .initial
    state := .verificationKeysLength })
  let ctx ← Fw.getCtx
  if p2 = p2CredentialInitial ∧ ctx.updateCredentialState = .initial then
    handleUpdateInitial sdk dataBuffer
  else if p2 = p2CredentialCredentialIndex ∧ ctx.updateCredentialState = .credentialIndex ∧
      ctx.credentialDeploymentCount > 0 then do
    updateHash dataBuffer 1
    setUpdateState .credential
    sendSuccessNoIdle
  else if p2 = p2CredentialCredential ∧ ctx.updateCredentialState = .credential ∧
      ctx.credentialDeploymentCount > 0 then
    handleSignCredentialDeployment sdk dataBuffer p1 p2 false
  else if p2 = p2CredentialIdCount ∧ ctx.updateCredentialState = .idCount then
    handleCredentialIdCount dataBuffer
  else if p2 = p2CredentialId ∧ ctx.updateCredentialState = .id then
    handleCredentialId dataBuffer
  else if p2 = p2Threshold ∧ ctx.updateCredentialState = .threshold then
    handleUpdateThreshold dataBuffer
  else Fw.throw .invalidState

end ConcordiumLedger
