import ConcordiumLedger.Governance.UpdateHeader

/-!
# Governance.SignUpdateProtocol

The update of the protocol (`signUpdateProtocol.c`): a message, a specification URL and hash, and
auxiliary data of any length.
-/

namespace ConcordiumLedger

open CMem CProg

namespace SignUpdateProtocol

inductive State where
  | initial
  | textLength
  | text
  | specificationHash
  | auxiliaryData
  /-- Any other value: the union may hold bytes of another instruction. -/
  | stale
deriving DecidableEq, Inhabited

/-- `textState_t`, which `handleText` counts up. The counter is not followed beyond
`TEXT_STATE_END`. -/
inductive TextState where
  | message
  | specificationUrl
  | textStateEnd
  | beyond
deriving DecidableEq, Inhabited

/-- `ctx->textState += 1` -/
def TextState.next : TextState → TextState
  | .message => .specificationUrl
  | .specificationUrl => .textStateEnd
  | .textStateEnd | .beyond => .beyond

/-- `signUpdateProtocolContext_t` -/
structure Context where
  payloadLength : UInt64
  textLength : UInt64
  buffer : Buffer 255
  textState : TextState
  state : State
  specificationHash : Buffer 68
  updateTypeText : Buffer 32
deriving DecidableEq, Inhabited

def p1Initial : UInt8 := 0x00
def p1TextLength : UInt8 := 0x01
def p1Text : UInt8 := 0x02
def p1SpecificationHash : UInt8 := 0x03
def p1AuxiliaryData : UInt8 := 0x04

def uxSignProtocolUpdate (c : Context) : List Step :=
  [ uxSignFlowSharedReview,
    uxUpdateType c.updateTypeText,
    { title := "Message", text := c.buffer.bytes, callback := .handleText } ]

def uxSignProtocolUpdateUrl (c : Context) : List Step :=
  [{ title := "Spec. URL", text := c.buffer.bytes, callback := .handleText }]

def uxSignProtocolUpdateSpecificationHash (c : Context) : List Step :=
  [ { title := "Spec. hash", text := c.specificationHash.bytes,
      callback := .switchToLoading } ]

def uxSignProtocolUpdateLoading : List Step :=
  [{ title := "Loading data,", text := literal "please wait" }]

def setState (state : State) : Fw Context PUnit := Fw.modifyCtx fun c => { c with state }

def switchToLoading : Fw Context PUnit := do
  uxFlowInit fun _ => uxSignProtocolUpdateLoading
  sendSuccessNoIdle

def handleText : Fw Context PUnit := do
  let ctx ← Fw.getCtx
  Fw.when (ctx.textLength = 0) (Fw.modifyCtx fun c => { c with textState := c.textState.next })
  sendSuccessNoIdle

def handleInitial (cdata : Ptr) : Fw Context PUnit := do
  let read ← readUpdateHeader cdata UpdateType.protocol
  let cdata := cdata.advance read
  Fw.modifyCtx fun c => { c with
    updateTypeText := updateTypeText UpdateType.protocol
    payloadLength := cdata.u8be 0 }
  updateHash cdata 8
  Fw.modifyCtx fun c => { c with textState := .message }
  setState .textLength
  sendSuccessNoIdle

def handleTextLength (cdata : Ptr) : Fw Context PUnit := do
  Fw.modifyCtx fun c => { c with textLength := cdata.u8be 0 }
  updateHash cdata 8
  Fw.modifyCtx fun c => { c with payloadLength := c.payloadLength - 8 }
  setState .text
  sendSuccessNoIdle

/-- Displays the received text whether or not more of it is to come, and then goes on to the next
part. -/
def handleTextPart (cdata : Ptr) (dataLength : UInt8) : Fw Context PUnit := do
  let ctx ← Fw.getCtx
  Fw.throwIf (ctx.textLength ≤ 0) .invalidState
  let len := dataLength.toNat
  Fw.modifyCtx fun c => { c with buffer := c.buffer.memmove 0 (cdata.slice len) }
  updateHash cdata len
  Fw.modifyCtx fun c => { c with
    textLength := c.textLength - dataLength.toUInt64
    payloadLength := c.payloadLength - dataLength.toUInt64 }
  Fw.when (dataLength < 255) (Fw.modifyCtx fun c => { c with buffer := c.buffer.memmove len [0] })
  match ctx.textState with
  | .message => do
    setState .textLength
    uxFlowInit fun d => uxSignProtocolUpdate d.ctx
  | .specificationUrl => do
    setState .specificationHash
    uxFlowInit fun d => uxSignProtocolUpdateUrl d.ctx
  | _ => Fw.throw .invalidState
  waitForButton

def handleSpecificationHash (cdata : Ptr) : Fw Context PUnit := do
  updateHash cdata 32
  let ctx ← Fw.getCtx
  let hex ← Fw.eval (toPaginatedHex (cdata.slice 32) ctx.specificationHash)
  Fw.modifyCtx fun c => { c with specificationHash := hex, payloadLength := c.payloadLength - 32 }
  setState .auxiliaryData
  uxFlowInit fun d => uxSignProtocolUpdateSpecificationHash d.ctx
  waitForButton

/-- The last branch of the source is not reached: an unsigned value is 0 or above. -/
def handleAuxiliaryData (cdata : Ptr) (dataLength : UInt8) : Fw Context PUnit := do
  updateHash cdata dataLength.toNat
  Fw.modifyCtx fun c => { c with payloadLength := c.payloadLength - dataLength.toUInt64 }
  let ctx ← Fw.getCtx
  if ctx.payloadLength = 0 then do
    uxFlowInit fun _ => uxSignFlowShared
    waitForButton
  else if ctx.payloadLength > 0 then sendSuccessNoIdle
  else Fw.throw .invalidState

end SignUpdateProtocol

open SignUpdateProtocol in
def handleSignUpdateProtocol (cdata : Ptr) (p1 dataLength : UInt8) (isInitialCall : Bool) :
    Fw Context PUnit := do
  Fw.when isInitialCall (setState .initial)
  let ctx ← Fw.getCtx
  if p1 = p1Initial ∧ ctx.state = .initial then handleInitial cdata
  else if p1 = p1TextLength ∧ ctx.state = .textLength then handleTextLength cdata
  else if p1 = p1Text ∧ ctx.state = .text then handleTextPart cdata dataLength
  else if p1 = p1SpecificationHash ∧ ctx.state = .specificationHash then
    handleSpecificationHash cdata
  else if p1 = p1AuxiliaryData ∧ ctx.state = .auxiliaryData then
    handleAuxiliaryData cdata dataLength
  else Fw.throw .invalidState

end ConcordiumLedger
