import ConcordiumLedger.Governance.UpdateHeader

/-!
# Governance.DescriptionView

The two updates that carry a description, a name, a URL and a text (`descriptionView.c`): adding
an identity provider (`signAddIdentityProvider.c`) and adding an anonymity revoker
(`signAddAnonymityRevoker.c`).
-/

namespace ConcordiumLedger

open CMem CProg

/-! ## The description -/

namespace DescriptionView

/-- `descriptionState_t` -/
inductive DescriptionState where
  | name
  | url
  | description
  /-- Any other value: the union may hold bytes of another instruction. -/
  | stale
deriving DecidableEq, Inhabited

/-- `descriptionContext_t` -/
structure Context where
  textLength : UInt32
  header : Buffer 12
  text : Buffer 255
  descriptionState : DescriptionState
deriving DecidableEq, Inhabited

def uxSignDescription (c : Context) : List Step :=
  [ { title := titleOf c.header.bytes, text := c.text.bytes,
      callback := .handleDescriptionPart } ]

end DescriptionView

/-- `updateWithDescription_t`: the context of an update in a struct with the description. -/
structure WithDescription (γ : Type) where
  inner : γ
  description : DescriptionView.Context
deriving DecidableEq, Inhabited

namespace WithDescription

variable {γ : Type}

def getInner : Fw (WithDescription γ) γ := Prog.gets fun d => d.ctx.inner

def modifyInner (f : γ → γ) : Fw (WithDescription γ) PUnit :=
  Fw.modifyCtx fun c => { c with inner := f c.inner }

def getDescription : Fw (WithDescription γ) DescriptionView.Context :=
  Prog.gets fun d => d.ctx.description

def modifyDescription (f : DescriptionView.Context → DescriptionView.Context) :
    Fw (WithDescription γ) PUnit :=
  Fw.modifyCtx fun c => { c with description := f c.description }

end WithDescription

section Description

open DescriptionView WithDescription

variable {γ : Type}

def setDescriptionState (descriptionState : DescriptionState) : Fw (WithDescription γ) PUnit :=
  modifyDescription fun c => { c with descriptionState }

def handleDescriptionPart : Fw (WithDescription γ) PUnit := do
  let descCtx ← getDescription
  Fw.when (descCtx.textLength = 0) (match descCtx.descriptionState with
    | .name => setDescriptionState .url
    | .url => setDescriptionState .description
    | .description => setDescriptionState .description
    | .stale => Fw.throw .invalidState)
  sendSuccessNoIdle

def setHeader (header : String) : Fw (WithDescription γ) PUnit :=
  modifyDescription fun c => { c with header := c.header.memmove 0 (literal header) }

def displayDescriptionPart : Fw (WithDescription γ) PUnit := do
  let descCtx ← getDescription
  match descCtx.descriptionState with
  | .name => setHeader "Name"
  | .url => setHeader "URL"
  | .description => setHeader "Description"
  | .stale => Fw.throw .invalidState
  uxFlowInit fun d => uxSignDescription d.ctx.description
  waitForButton

/-- The length of a part, as both updates read it. -/
def readTextLength (cdata : Ptr) : Fw (WithDescription γ) PUnit := do
  modifyDescription fun c => { c with textLength := cdata.u4be 0 }
  updateHash cdata 4

/-- Bytes of a part, as both updates read them. `countPayload` takes their number off the length
of the payload. -/
def readText (cdata : Ptr) (dataLength : UInt8) (countPayload : γ → γ) :
    Fw (WithDescription γ) PUnit := do
  let len := dataLength.toNat
  let descCtx ← getDescription
  Fw.throwIf (descCtx.textLength < dataLength.toUInt32) .invalidState
  updateHash cdata len
  modifyDescription fun c => { c with text := c.text.memmove 0 (cdata.slice len) }
  modifyInner countPayload
  modifyDescription fun c => { c with textLength := c.textLength - dataLength.toUInt32 }
  Fw.when (dataLength < 255)
    (modifyDescription fun c => { c with text := c.text.memmove len [0] })

end Description

/-! ## Identity providers -/

namespace SignAddIdentityProvider

inductive State where
  | initial
  | descriptionLength
  | description
  | verifyKey
  | cdiVerifyKey
  /-- Any other value: the union may hold bytes of another instruction. -/
  | stale
deriving DecidableEq, Inhabited

/-- `signAddIdentityProviderContext_t` -/
structure Context where
  payloadLength : UInt32
  /-- The bytes that were added to `ctx->hash`. -/
  hash : List UInt8
  verifyKeyHash : Buffer 68
  verifyKeyLength : UInt32
  ipIdentity : Buffer 5
  cdiVerifyKey : Buffer 68
  updateTypeText : Buffer 32
  state : State
deriving DecidableEq, Inhabited

abbrev Blob := WithDescription Context

def p1Initial : UInt8 := 0x00
def p1DescriptionLength : UInt8 := 0x01
def p1Description : UInt8 := 0x02
def p1VerifyKey : UInt8 := 0x03
def p1CdiVerifyKey : UInt8 := 0x04

def cdiVerifyKeyLength : Nat := 32

def uxSignAddIdentityProviderStart (c : Context) : List Step :=
  [ uxSignFlowSharedReview,
    uxUpdateType c.updateTypeText,
    { title := "Identity provider", text := c.ipIdentity.bytes, callback := .sendSuccessNoIdle } ]

def uxSignAddIdentityProviderVerifyKey (c : Context) : List Step :=
  [ { title := "Verify Key Hash", text := c.verifyKeyHash.bytes,
      callback := .sendSuccessNoIdle } ]

def uxSignAddIdentityProviderFinish (c : Context) : List Step :=
  { title := "CDI Verify key", text := c.cdiVerifyKey.bytes } :: uxSignAndDecline

open WithDescription

def setState (state : State) : Fw Blob PUnit := modifyInner fun c => { c with state }

def checkIfDescriptionPartIsDone : Fw Blob PUnit := do
  let descCtx ← getDescription
  Fw.when (descCtx.textLength = 0) (match descCtx.descriptionState with
    | .description => modifyInner fun c => { c with
        state := .verifyKey
        verifyKeyLength := c.payloadLength - .ofNat cdiVerifyKeyLength }
    | _ => setState .descriptionLength)

def handleInitial (cdata : Ptr) : Fw Blob PUnit := do
  let keyPathLength ← parseKeyDerivationPath cdata
  cxSha256Init
  modifyInner fun c => { c with hash := [] }
  let headerLength ←
    hashUpdateHeaderAndType (cdata.advance keyPathLength) UpdateType.addIdentityProvider
  let cdata := cdata.advance (keyPathLength + headerLength)
  modifyInner fun c => { c with updateTypeText := updateTypeText UpdateType.addIdentityProvider }
  updateHash cdata 4
  modifyInner fun c => { c with payloadLength := cdata.u4be 0 }
  let cdata := cdata.advance 4
  updateHash cdata 4
  let text ← Fw.eval (bin2dec 5 (cdata.u4be 0).toUInt64)
  modifyInner fun c => { c with
    ipIdentity := c.ipIdentity.memmove 0 text
    payloadLength := c.payloadLength - 4 }
  setState .descriptionLength
  setDescriptionState .name
  uxFlowInit fun d => uxSignAddIdentityProviderStart d.ctx.inner
  waitForButton

def handleDescriptionLength (cdata : Ptr) : Fw Blob PUnit := do
  readTextLength cdata
  modifyInner fun c => { c with payloadLength := c.payloadLength - 4 }
  setState .description
  checkIfDescriptionPartIsDone
  handleDescriptionPart

def handleDescription (cdata : Ptr) (dataLength : UInt8) : Fw Blob PUnit := do
  readText cdata dataLength fun c =>
    { c with payloadLength := c.payloadLength - dataLength.toUInt32 }
  checkIfDescriptionPartIsDone
  displayDescriptionPart

/-- `ctx->verifyKeyLength < 0` compares an unsigned value and never holds. -/
def handleVerifyKey (sdk : Sdk) (cdata : Ptr) (dataLength : UInt8) : Fw Blob PUnit := do
  updateHash cdata dataLength.toNat
  modifyInner fun c => { c with
    hash := c.hash ++ cdata.slice dataLength.toNat
    verifyKeyLength := c.verifyKeyLength - dataLength.toUInt32
    payloadLength := c.payloadLength - dataLength.toUInt32 }
  let ctx ← getInner
  if ctx.verifyKeyLength = 0 then do
    let hex ← Fw.eval (toPaginatedHex (sdk.sha256 ctx.hash) ctx.verifyKeyHash)
    modifyInner fun c => { c with verifyKeyHash := hex }
    setState .cdiVerifyKey
    uxFlowInit fun d => uxSignAddIdentityProviderVerifyKey d.ctx.inner
    waitForButton
  else sendSuccessNoIdle

def handleCdiVerifyKey (cdata : Ptr) (dataLength : UInt8) : Fw Blob PUnit := do
  updateHash cdata cdiVerifyKeyLength
  let ctx ← getInner
  let hex ← Fw.eval (toPaginatedHex (cdata.slice cdiVerifyKeyLength) ctx.cdiVerifyKey)
  modifyInner fun c => { c with
    cdiVerifyKey := hex
    payloadLength := c.payloadLength - .ofNat cdiVerifyKeyLength }
  let ctx ← getInner
  if dataLength.toNat ≠ cdiVerifyKeyLength ∨ ctx.payloadLength ≠ 0 then Fw.throw .invalidState
  else do
    uxFlowInit fun d => uxSignAddIdentityProviderFinish d.ctx.inner
    waitForButton

end SignAddIdentityProvider

open SignAddIdentityProvider in
def handleSignAddIdentityProvider (sdk : Sdk) (cdata : Ptr) (p1 dataLength : UInt8)
    (isInitialCall : Bool) : Fw Blob PUnit := do
  Fw.when isInitialCall (setState .initial)
  let ctx ← WithDescription.getInner
  if p1 = p1Initial ∧ ctx.state = .initial then handleInitial cdata
  else if p1 = p1DescriptionLength ∧ ctx.state = .descriptionLength then
    handleDescriptionLength cdata
  else if p1 = p1Description ∧ ctx.state = .description then handleDescription cdata dataLength
  else if p1 = p1VerifyKey ∧ ctx.state = .verifyKey then handleVerifyKey sdk cdata dataLength
  else if p1 = p1CdiVerifyKey ∧ ctx.state = .cdiVerifyKey then
    handleCdiVerifyKey cdata dataLength
  else Fw.throw .invalidState

/-! ## Anonymity revokers -/

namespace SignAddAnonymityRevoker

inductive State where
  | initial
  | descriptionLength
  | description
  | publicKey
  /-- Any other value: the union may hold bytes of another instruction. -/
  | stale
deriving DecidableEq, Inhabited

/-- `signAddAnonymityRevokerContext_t` -/
structure Context where
  payloadLength : UInt32
  publicKey : Buffer 205
  arIdentity : Buffer 5
  updateTypeText : Buffer 32
  state : State
deriving DecidableEq, Inhabited

abbrev Blob := WithDescription Context

def p1Initial : UInt8 := 0x00
def p1DescriptionLength : UInt8 := 0x01
def p1Description : UInt8 := 0x02
def p1PublicKey : UInt8 := 0x03

/-- The identity may fill its array; `updateTypeText` follows it in the struct. -/
def uxSignAddAnonymityRevokerStart (c : Context) : List Step :=
  [ uxSignFlowSharedReview,
    uxUpdateType c.updateTypeText,
    { title := "AR Identity", text := c.arIdentity.bytes ++ c.updateTypeText.bytes,
      callback := .sendSuccessNoIdle } ]

def uxSignAddAnonymityRevokerFinish (c : Context) : List Step :=
  { title := "Public key", text := c.publicKey.bytes } :: uxSignAndDecline

open WithDescription

def setState (state : State) : Fw Blob PUnit := modifyInner fun c => { c with state }

def checkIfDescriptionPartIsDone : Fw Blob PUnit := do
  let descCtx ← getDescription
  Fw.when (descCtx.textLength = 0) (match descCtx.descriptionState with
    | .description => setState .publicKey
    | _ => setState .descriptionLength)

def handleInitial (cdata : Ptr) : Fw Blob PUnit := do
  let read ← readUpdateHeader cdata UpdateType.addAnonymityRevoker
  let cdata := cdata.advance read
  modifyInner fun c => { c with updateTypeText := updateTypeText UpdateType.addAnonymityRevoker }
  updateHash cdata 4
  modifyInner fun c => { c with payloadLength := cdata.u4be 0 }
  let cdata := cdata.advance 4
  updateHash cdata 4
  let text ← Fw.eval (numberToText 5 (cdata.u4be 0).toUInt64)
  modifyInner fun c => { c with arIdentity := c.arIdentity.memmove 0 text }
  setState .descriptionLength
  setDescriptionState .name
  uxFlowInit fun d => uxSignAddAnonymityRevokerStart d.ctx.inner
  waitForButton

def handleDescriptionLength (cdata : Ptr) : Fw Blob PUnit := do
  readTextLength cdata
  modifyInner fun c => { c with payloadLength := c.payloadLength - 4 }
  setState .description
  checkIfDescriptionPartIsDone
  handleDescriptionPart

def handleDescription (cdata : Ptr) (dataLength : UInt8) : Fw Blob PUnit := do
  readText cdata dataLength fun c =>
    { c with payloadLength := c.payloadLength - dataLength.toUInt32 }
  checkIfDescriptionPartIsDone
  displayDescriptionPart

def handlePublicKey (cdata : Ptr) : Fw Blob PUnit := do
  updateHash cdata 96
  let ctx ← getInner
  let hex ← Fw.eval (toPaginatedHex (cdata.slice 96) ctx.publicKey)
  modifyInner fun c => { c with publicKey := hex }
  uxFlowInit fun d => uxSignAddAnonymityRevokerFinish d.ctx.inner
  waitForButton

end SignAddAnonymityRevoker

open SignAddAnonymityRevoker in
def handleSignAddAnonymityRevoker (cdata : Ptr) (p1 dataLength : UInt8) (isInitialCall : Bool) :
    Fw Blob PUnit := do
  Fw.when isInitialCall (setState .initial)
  let ctx ← WithDescription.getInner
  if p1 = p1Initial ∧ ctx.state = .initial then handleInitial cdata
  else if p1 = p1DescriptionLength ∧ ctx.state = .descriptionLength then
    handleDescriptionLength cdata
  else if p1 = p1Description ∧ ctx.state = .description then handleDescription cdata dataLength
  else if p1 = p1PublicKey ∧ ctx.state = .publicKey then handlePublicKey cdata
  else Fw.throw .invalidState

end ConcordiumLedger
