import ConcordiumLedger.Governance.UpdateHeader

/-!
# Governance.SignUpdateKeys

The updates of the governance keys: the root and level 1 keys (`signHigherLevelKeyUpdate.c`) and
the level 2 keys with their authorizations (`signUpdateAuthorizations.c`).

Some texts are copied with a length above that of the literal, so what follows the literal in
flash memory is copied after its NUL; these bytes are left out.
-/

namespace ConcordiumLedger

open CMem CProg

/-! ## Root and level 1 keys -/

namespace SignHigherLevelKeyUpdate

inductive State where
  | initial
  | key
  | threshold
  /-- Any other value: the union may hold bytes of another instruction. -/
  | stale
deriving DecidableEq, Inhabited

/-- `signUpdateKeysWithRootKeysContext_t` -/
structure Context where
  type : Buffer 25
  numberOfUpdateKeys : UInt16
  updateVerificationKey : Buffer 68
  threshold : Buffer 6
  state : State
deriving DecidableEq, Inhabited

/-- `rootUpdatePrefix_e` -/
def rootUpdateRoot : UInt8 := 0
def rootUpdateLevel1 : UInt8 := 1
def rootUpdateLevel2V0 : UInt8 := 2
def rootUpdateLevel2V1 : UInt8 := 3
def rootUpdateLevel2V2 : UInt8 := 4

/-- `level1UpdatePrefix_e` -/
def level1UpdateLevel1 : UInt8 := 0
def level1UpdateLevel2V0 : UInt8 := 1
def level1UpdateLevel2V1 : UInt8 := 2
def level1UpdateLevel2V2 : UInt8 := 3

def p1Initial : UInt8 := 0x00
def p1UpdateKeys : UInt8 := 0x01
def p1Threshold : UInt8 := 0x02

def uxSignRootKeysReview (c : Context) : List Step :=
  [ uxSignFlowSharedReview,
    { title := "Update", text := c.type.bytes, callback := .sendSuccessNoIdle } ]

def uxSignRootKeysUpdateKey (c : Context) : List Step :=
  [ { title := "Update key", text := c.updateVerificationKey.bytes,
      callback := .sendSuccessNoIdle } ]

def uxSignRootKeysUpdateThreshold (c : Context) : List Step :=
  { title := "Threshold", text := c.threshold.bytes } :: uxSignAndDecline

def setState (state : State) : Fw Context PUnit := Fw.modifyCtx fun c => { c with state }

def setType (text : String) : Fw Context PUnit :=
  Fw.modifyCtx fun c => { c with type := c.type.memmove 0 (literal text) }

/-- With the update type of level 1 keys, the value of `ROOT_UPDATE_LEVEL_1` is accepted and no
text is written. -/
def readKeyUpdateType (keyUpdateType updateType : UInt8) : Fw Context PUnit :=
  if updateType = UpdateType.updateRootKeys then
    if keyUpdateType = rootUpdateRoot then setType "Root w. root keys"
    else if keyUpdateType = rootUpdateLevel1 then setType "Level 1 w. root keys"
    else Fw.throw .invalidTransaction
  else if updateType = UpdateType.updateLevel1Keys then
    if keyUpdateType = rootUpdateLevel1 then pure ⟨⟩
    else if keyUpdateType = level1UpdateLevel1 then setType "Level 1 w. level 1 keys"
    else Fw.throw .invalidTransaction
  else pure ⟨⟩

def handleInitial (cdata : Ptr) (updateType : UInt8) : Fw Context PUnit := do
  let read ← readUpdateHeader cdata updateType
  let cdata := cdata.advance read
  readKeyUpdateType (cdata 0) updateType
  updateHash cdata 1
  let cdata := cdata.advance 1
  Fw.modifyCtx fun c => { c with numberOfUpdateKeys := cdata.u2be 0 }
  updateHash cdata 2
  setState .key
  uxFlowInit fun d => uxSignRootKeysReview d.ctx
  waitForButton

def handleUpdateKeys (cdata : Ptr) : Fw Context PUnit := do
  let ctx ← Fw.getCtx
  Fw.throwIf (ctx.numberOfUpdateKeys ≤ 0) .invalidTransaction
  updateHash cdata 1
  let cdata := cdata.advance 1
  let hex ← Fw.eval (toPaginatedHex (cdata.slice 32) ctx.updateVerificationKey)
  Fw.modifyCtx fun c => { c with updateVerificationKey := hex }
  updateHash cdata 32
  Fw.modifyCtx fun c => { c with numberOfUpdateKeys := c.numberOfUpdateKeys - 1 }
  Fw.when (ctx.numberOfUpdateKeys - 1 = 0) (setState .threshold)
  uxFlowInit fun d => uxSignRootKeysUpdateKey d.ctx
  waitForButton

def handleThreshold (cdata : Ptr) : Fw Context PUnit := do
  let text ← Fw.eval (bin2dec 6 (cdata.u2be 0).toUInt64)
  Fw.modifyCtx fun c => { c with threshold := c.threshold.memmove 0 text }
  updateHash cdata 2
  uxFlowInit fun d => uxSignRootKeysUpdateThreshold d.ctx
  waitForButton

end SignHigherLevelKeyUpdate

open SignHigherLevelKeyUpdate in
def handleSignHigherLevelKeys (cdata : Ptr) (p1 updateType : UInt8) (isInitialCall : Bool) :
    Fw Context PUnit := do
  Fw.when isInitialCall (setState .initial)
  let ctx ← Fw.getCtx
  if p1 = p1Initial ∧ ctx.state = .initial then handleInitial cdata updateType
  else if p1 = p1UpdateKeys ∧ ctx.state = .key then handleUpdateKeys cdata
  else if p1 = p1Threshold ∧ ctx.state = .threshold then handleThreshold cdata
  else Fw.throw .invalidState

/-! ## Level 2 keys -/

namespace SignUpdateAuthorizations

inductive State where
  | initial
  | publicKey
  | accessStructureSize
  | accessStructureIndex
  | accessStructureThreshold
  /-- Any other value: the union may hold bytes of another instruction. -/
  | stale
deriving DecidableEq, Inhabited

/-- `authsVersion_e` -/
inductive AuthsVersion where
  | v0
  | v1
  | v2
deriving DecidableEq, Inhabited

def AuthsVersion.toUInt8 : AuthsVersion → UInt8
  | .v0 => 0
  | .v1 => 1
  | .v2 => 2

/-- `AUTHORIZATION_END_V0`, `AUTHORIZATION_END_V1` and `AUTHORIZATION_END_V2` -/
def AuthsVersion.endMarker : AuthsVersion → UInt8
  | .v0 => 12
  | .v1 => 14
  | .v2 => 15

/-- `signUpdateAuthorizations_t`, with the static variable `authsVersion` beside it. -/
structure Context where
  publicKeyListLength : UInt16
  publicKey : Buffer 68
  accessStructureSize : UInt16
  title : Buffer 29
  displayKeyIndex : Buffer 6
  type : Buffer 24
  processedCount : UInt8
  buffer : Buffer 255
  bufferPointer : Nat
  state : State
  authorizationType : UInt8
  authsVersion : AuthsVersion
deriving DecidableEq, Inhabited

def p1Initial : UInt8 := 0x00
def p1PublicKey : UInt8 := 0x01
def p1AccessStructureInitial : UInt8 := 0x02
def p1AccessStructure : UInt8 := 0x03
def p1AccessStructureThreshold : UInt8 := 0x04

def uxSignUpdateAuthorizationsReview (c : Context) : List Step :=
  [ uxSignFlowSharedReview,
    { title := "Update", text := c.type.bytes, callback := .sendSuccessNoIdle } ]

def uxUpdateAuthorizations (c : Context) : List Step :=
  [ { title := titleOf c.title.bytes, text := c.displayKeyIndex.bytes,
      callback := .processKeyIndices } ]

def uxUpdateAuthorizationsThreshold (c : Context) : List Step :=
  [ { title := titleOf c.title.bytes, text := c.displayKeyIndex.bytes,
      callback := .processThreshold } ]

def uxUpdateAuthorizationsPublicKey (c : Context) : List Step :=
  [ { title := "Public key", text := c.publicKey.bytes, callback := .sendSuccessNoIdle } ]

def getAuthorizationName (type : UInt8) : Except Error String :=
  match type.toNat with
  | 0 => .ok "Emergency"
  | 1 => .ok "Protocol"
  | 2 => .ok "Consensus"
  | 3 => .ok "Euro per energy"
  | 4 => .ok "uCCD per Euro"
  | 5 => .ok "Foundation account"
  | 6 => .ok "Mint distribution"
  | 7 => .ok "Tx fee distribution"
  | 8 => .ok "GAS rewards"
  | 9 => .ok "Pool parameters"
  | 10 => .ok "Add anon. revoker"
  | 11 => .ok "Add ID provider"
  | 12 => .ok "Cooldown parameters"
  | 13 => .ok "Time parameters"
  | 14 => .ok "Create PLT"
  | _ => .error .invalidState

def setState (state : State) : Fw Context PUnit := Fw.modifyCtx fun c => { c with state }

/-- Called when the threshold is confirmed. -/
def processThreshold : Fw Context PUnit := do
  Fw.modifyCtx fun c => { c with authorizationType := c.authorizationType + 1 }
  let ctx ← Fw.getCtx
  if ctx.authorizationType = ctx.authsVersion.endMarker then uxFlowInit fun _ => uxSignFlowShared
  else do
    setState .accessStructureSize
    sendSuccessNoIdle

def processKeyIndices : Fw Context PUnit := do
  let ctx ← Fw.getCtx
  if ctx.accessStructureSize = 0 then do
    Fw.throwIf (ctx.processedCount ≠ 0) .invalidTransaction
    setState .accessStructureThreshold
    sendSuccessNoIdle
  else if ctx.processedCount = 0 then sendSuccessNoIdle
  else do
    let keyIndex := ctx.buffer.ptr.u2be ctx.bufferPointer
    let text ← Fw.eval (bin2dec 6 keyIndex.toUInt64)
    Fw.modifyCtx fun c => { c with displayKeyIndex := c.displayKeyIndex.memmove 0 text }
    let name ← Fw.eval (getAuthorizationName ctx.authorizationType)
    Fw.modifyCtx fun c => { c with
      title := c.title.memmove 0 (literal name)
      bufferPointer := c.bufferPointer + 2
      accessStructureSize := c.accessStructureSize - 1
      processedCount := c.processedCount - 1 }
    uxFlowInit fun d => uxUpdateAuthorizations d.ctx

def setTypeText (updateType : UInt8) : Fw Context PUnit :=
  if updateType = UpdateType.updateRootKeys then
    Fw.modifyCtx fun c => { c with type := c.type.memmove 0 (literal "Level 2 w. root keys") }
  else if updateType = UpdateType.updateLevel1Keys then
    Fw.modifyCtx fun c => { c with type := c.type.memmove 0 (literal "Level 2 w. level 1 keys") }
  else Fw.throw .invalidTransaction

open SignHigherLevelKeyUpdate in
/-- The version that a kind of key update announces. -/
def readAuthsVersion (updateType keyUpdateType : UInt8) : Except Error AuthsVersion :=
  if updateType = UpdateType.updateRootKeys then
    if keyUpdateType = rootUpdateLevel2V0 then .ok .v0
    else if keyUpdateType = rootUpdateLevel2V1 then .ok .v1
    else if keyUpdateType = rootUpdateLevel2V2 then .ok .v2
    else .error .invalidTransaction
  else if updateType = UpdateType.updateLevel1Keys then
    if keyUpdateType = level1UpdateLevel2V0 then .ok .v0
    else if keyUpdateType = level1UpdateLevel2V1 then .ok .v1
    else if keyUpdateType = level1UpdateLevel2V2 then .ok .v2
    else .error .invalidTransaction
  else .error .invalidTransaction

def handleInitial (cdata : Ptr) (p2 updateType : UInt8) : Fw Context PUnit := do
  let read ← readUpdateHeader cdata updateType
  let cdata := cdata.advance read
  let keyUpdateType := cdata 0
  updateHash cdata 1
  let cdata := cdata.advance 1
  let authsVersion ← Fw.eval (readAuthsVersion updateType keyUpdateType)
  Fw.modifyCtx fun c => { c with authsVersion }
  Fw.throwIf (authsVersion.toUInt8 ≠ p2) .invalidParam
  Fw.modifyCtx fun c => { c with publicKeyListLength := cdata.u2be 0 }
  updateHash cdata 2
  setTypeText updateType
  setState .publicKey
  Fw.modifyCtx fun c => { c with authorizationType := 0 }
  uxFlowInit fun d => uxSignUpdateAuthorizationsReview d.ctx
  waitForButton

def handlePublicKey (cdata : Ptr) : Fw Context PUnit := do
  updateHash cdata 1
  let cdata := cdata.advance 1
  let ctx ← Fw.getCtx
  let hex ← Fw.eval (toPaginatedHex (cdata.slice 32) ctx.publicKey)
  Fw.modifyCtx fun c => { c with publicKey := hex }
  updateHash cdata 32
  Fw.modifyCtx fun c => { c with publicKeyListLength := c.publicKeyListLength - 1 }
  Fw.when (ctx.publicKeyListLength - 1 = 0) (setState .accessStructureSize)
  uxFlowInit fun d => uxUpdateAuthorizationsPublicKey d.ctx
  waitForButton

def handleAccessStructureInitial (cdata : Ptr) : Fw Context PUnit := do
  let ctx ← Fw.getCtx
  let lastAuthType := ctx.authsVersion.endMarker - 1
  Fw.throwIf (ctx.authorizationType > lastAuthType) .invalidTransaction
  updateHash cdata 2
  Fw.modifyCtx fun c => { c with accessStructureSize := cdata.u2be 0 }
  setState .accessStructureIndex
  sendSuccessNoIdle

def handleAccessStructure (cdata : Ptr) (dataLength : UInt8) : Fw Context PUnit := do
  Fw.modifyCtx fun c => { c with bufferPointer := 0 }
  Fw.throwIf (dataLength % 2 = 1) .invalidTransaction
  Fw.modifyCtx fun c => { c with processedCount := dataLength / 2 }
  updateHash cdata dataLength.toNat
  Fw.modifyCtx fun c => { c with buffer := c.buffer.memmove 0 (cdata.slice dataLength.toNat) }
  processKeyIndices
  waitForButton

def handleAccessStructureThreshold (cdata : Ptr) : Fw Context PUnit := do
  updateHash cdata 2
  let text ← Fw.eval (bin2dec 6 (cdata.u2be 0).toUInt64)
  Fw.modifyCtx fun c => { c with
    displayKeyIndex := c.displayKeyIndex.memmove 0 text
    title := c.title.memmove 0 (literal "Threshold") }
  uxFlowInit fun d => uxUpdateAuthorizationsThreshold d.ctx
  waitForButton

end SignUpdateAuthorizations

open SignUpdateAuthorizations in
def handleSignUpdateAuthorizations (cdata : Ptr) (p1 p2 updateType dataLength : UInt8)
    (isInitialCall : Bool) : Fw Context PUnit := do
  Fw.throwIf (p2 ≠ AuthsVersion.toUInt8 .v0 ∧ p2 ≠ AuthsVersion.toUInt8 .v1 ∧
    p2 ≠ AuthsVersion.toUInt8 .v2) .invalidParam
  Fw.when isInitialCall (setState .initial)
  let ctx ← Fw.getCtx
  if p1 = p1Initial ∧ ctx.state = .initial then handleInitial cdata p2 updateType
  else if p1 = p1PublicKey ∧ ctx.state = .publicKey ∧ ctx.publicKeyListLength > 0 then
    handlePublicKey cdata
  else if p1 = p1AccessStructureInitial ∧ ctx.state = .accessStructureSize then
    handleAccessStructureInitial cdata
  else if p1 = p1AccessStructure ∧ ctx.state = .accessStructureIndex then
    handleAccessStructure cdata dataLength
  else if p1 = p1AccessStructureThreshold ∧ ctx.state = .accessStructureThreshold then
    handleAccessStructureThreshold cdata
  else Fw.throw .invalidState

end ConcordiumLedger
