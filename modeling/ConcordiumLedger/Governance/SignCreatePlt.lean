import ConcordiumLedger.Governance.UpdateHeader

/-!
# Governance.SignCreatePlt

The creation of a protocol-level token (`signCreatePlt.c`). Its initialization parameters may have
any length; the first 512 bytes of them are displayed.
-/

namespace ConcordiumLedger

open CMem CProg

namespace SignCreatePlt

inductive State where
  | initial
  | payload
  | initParams
  /-- Any other value: the union may hold bytes of another instruction. -/
  | stale
deriving DecidableEq, Inhabited

/-- `signCreatePltContext_t` -/
structure Context where
  initializationParamsLength : UInt32
  remainingInitializationParamsBytes : UInt32
  updateTypeText : Buffer 32
  tokenId : Buffer 129
  tokenModule : Buffer 69
  decimals : Buffer 4
  initParams : Buffer 512
  initParamsHex : Buffer 1089
  state : State
deriving DecidableEq, Inhabited

def p1Initial : UInt8 := 0x00
def p1Payload : UInt8 := 0x01
def p1InitParams : UInt8 := 0x02

def uxSignCreatePltStart (c : Context) : List Step :=
  [ uxSignFlowSharedReview,
    uxUpdateType c.updateTypeText,
    { title := "Token ID", text := c.tokenId.bytes },
    { title := "Token Module", text := c.tokenModule.bytes },
    { title := "Decimals", text := c.decimals.bytes },
    { title := "Init Params", text := c.initParamsHex.bytes } ] ++ uxSignAndDecline

def setState (state : State) : Fw Context PUnit := Fw.modifyCtx fun c => { c with state }

def handleInitial (cdata : Ptr) : Fw Context PUnit := do
  let _ ← readUpdateHeader cdata UpdateType.createPlt
  Fw.modifyCtx fun c => { c with updateTypeText := updateTypeText UpdateType.createPlt }
  setState .payload
  sendSuccessNoIdle

def handlePayload (cdata : Ptr) : Fw Context PUnit := do
  let tokenIdLength := cdata 0
  Fw.throwIf (tokenIdLength > 128 ∨ tokenIdLength = 0) .invalidTransaction
  updateHash cdata 1
  let cdata := cdata.advance 1
  let len := tokenIdLength.toNat
  Fw.modifyCtx fun c => { c with
    tokenId := (c.tokenId.memmove 0 (cdata.slice len)).memmove len [0] }
  updateHash cdata len
  let cdata := cdata.advance len
  let ctx ← Fw.getCtx
  let hex ← Fw.eval (toPaginatedHex (cdata.slice 32) ctx.tokenModule)
  Fw.modifyCtx fun c => { c with tokenModule := hex }
  updateHash cdata 32
  let cdata := cdata.advance 32
  let text ← Fw.eval (bin2dec 4 (cdata 0).toUInt64)
  Fw.modifyCtx fun c => { c with decimals := c.decimals.memmove 0 text }
  updateHash cdata 1
  let cdata := cdata.advance 1
  Fw.modifyCtx fun c => { c with initializationParamsLength := cdata.u4be 0 }
  updateHash cdata 4
  Fw.throwIf (cdata.u4be 0 = 0) .invalidTransaction
  Fw.modifyCtx fun c => { c with
    remainingInitializationParamsBytes := c.initializationParamsLength }
  setState .initParams
  sendSuccessNoIdle

/-- `sizeof(ctx->initParams)` -/
def initParamsSize : UInt32 := 512

/-- How much of a chunk is stored. -/
def bytesToStore (currentOffset dataLength : UInt32) : UInt32 :=
  if currentOffset + dataLength > initParamsSize then initParamsSize - currentOffset
  else dataLength

/-- The offset and the length of the copy to `initParams` that a chunk leads to. -/
def initParamsStore (c : Context) (dataLength : UInt8) : Option (Nat × Nat) :=
  let currentOffset := c.initializationParamsLength - c.remainingInitializationParamsBytes
  let bytes := bytesToStore currentOffset dataLength.toUInt32
  if bytes > 0 ∧ currentOffset < initParamsSize then some (currentOffset.toNat, bytes.toNat)
  else none

/-- `initParams` after that copy. -/
def stored (c : Context) (cdata : Ptr) (dataLength : UInt8) : Buffer 512 :=
  match initParamsStore c dataLength with
  | some (offset, length) => c.initParams.memmove offset (cdata.slice length)
  | none => c.initParams

/-- How many bytes are shown. -/
def displayLength (c : Context) : UInt32 :=
  if c.initializationParamsLength > initParamsSize then initParamsSize
  else c.initializationParamsLength

def handleInitParams (cdata : Ptr) (dataLength : UInt8) : Fw Context PUnit := do
  let ctx ← Fw.getCtx
  Fw.throwIf (ctx.remainingInitializationParamsBytes < dataLength.toUInt32) .invalidState
  updateHash cdata dataLength.toNat
  Fw.modifyCtx fun c => { c with initParams := stored c cdata dataLength }
  Fw.modifyCtx fun c => { c with
    remainingInitializationParamsBytes :=
      c.remainingInitializationParamsBytes - dataLength.toUInt32 }
  let ctx ← Fw.getCtx
  if ctx.remainingInitializationParamsBytes = 0 then do
    let hex ← Fw.eval
      (toPaginatedHex (ctx.initParams.bytes.take (displayLength ctx).toNat) ctx.initParamsHex)
    Fw.modifyCtx fun c => { c with initParamsHex := hex }
    uxFlowInit fun d => uxSignCreatePltStart d.ctx
    waitForButton
  else sendSuccessNoIdle

end SignCreatePlt

open SignCreatePlt in
def handleSignCreatePlt (cdata : Ptr) (p1 dataLength : UInt8) (isInitialCall : Bool) :
    Fw Context PUnit := do
  Fw.when isInitialCall (setState .initial)
  let ctx ← Fw.getCtx
  if p1 = p1Initial ∧ ctx.state = .initial then handleInitial cdata
  else if p1 = p1Payload ∧ ctx.state = .payload then handlePayload cdata
  else if p1 = p1InitParams ∧ ctx.state = .initParams then handleInitParams cdata dataLength
  else Fw.throw .invalidState

end ConcordiumLedger
