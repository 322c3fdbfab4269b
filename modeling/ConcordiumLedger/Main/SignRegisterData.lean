import ConcordiumLedger.Main.DisplayCbor

/-!
# Main.SignRegisterData

Registration of data (`signRegisterData.c`), shown as a CBOR item. Here the declared length is
compared with what each command brings.
-/

namespace ConcordiumLedger

open CMem CProg

namespace SignRegisterData

inductive State where
  | initial
  | payloadStart
  | payload
  /-- Any other value: the union may hold bytes of another instruction. -/
  | stale
deriving DecidableEq, Inhabited

/-- `signRegisterData_t`. Its member `display` is not used. -/
structure Context where
  dataLength : UInt16
  state : State
deriving DecidableEq, Inhabited

abbrev Blob := WithDataBlob Context

/-- `REGISTER_DATA` -/
def registerData : UInt8 := 21

def p1Initial : UInt8 := 0x00
def p1Data : UInt8 := 0x01

def uxRegisterDataInitial (s : Shared) : List Step :=
  [ uxSignFlowSharedReview,
    uxSignFlowAccountSenderView s,
    { title := "Continue", text := literal "with transaction", callback := .sendSuccessNoIdle } ]

def uxRegisterDataPayload (c : CborContext) : List Step :=
  [ { title := "Data", text := c.display.bytes, callback := .handleData } ]

def setState (state : State) : Fw Blob PUnit :=
  Fw.modifyCtx fun c => { c with inner.state := state }

/-- The part of the `switch` that reads the data of a command. -/
def readData (cdata : Ptr) (dataLength : UInt8) : Fw Blob PUnit := do
  let ctx ← Fw.getCtx
  match ctx.inner.state with
  | .payloadStart => do
    setState .payload
    Fw.onCbor (readCborInitial cdata dataLength)
  | .payload => do
    Fw.throwIf (ctx.inner.dataLength ≠ 0) .invalidState
    Fw.onCbor (readCborContent cdata dataLength)
  | _ => Fw.throw .invalidState

end SignRegisterData

open SignRegisterData in
def handleData : Fw Blob PUnit := do
  let ctx ← Fw.getCtx
  if ctx.inner.dataLength > 0 then sendSuccessNoIdle
  else uxFlowInit fun _ => uxSignFlowShared

open SignRegisterData in
def handleSignRegisterData (sdk : Sdk) (cdata : Ptr) (p1 dataLength : UInt8)
    (isInitialCall : Bool) : Fw Blob PUnit := do
  Fw.when isInitialCall (setState .initial)
  let ctx ← Fw.getCtx
  if p1 = p1Initial ∧ ctx.inner.state = .initial then do
    let read ← parseKeyDerivationPath cdata
    let cdata := cdata.advance read
    cxSha256Init
    let read ← hashAccountTransactionHeaderAndKind sdk cdata registerData
    let cdata := cdata.advance read
    Fw.modifyCtx fun c => { c with inner.dataLength := cdata.u2be 0 }
    Fw.throwIf ((cdata.u2be 0).toUInt32 > maxMemoSize) .invalidParam
    Fw.modifyCtx fun c => { c with cborContext.cborLength := (cdata.u2be 0).toUInt32 }
    updateHash cdata 2
    setState .payloadStart
    uxFlowInit fun d => uxRegisterDataInitial d.shared
    waitForButton
  else if p1 = p1Data then do
    Fw.throwIf (ctx.inner.dataLength < dataLength.toUInt16) .invalidTransaction
    Fw.modifyCtx fun c => { c with inner.dataLength := c.inner.dataLength - dataLength.toUInt16 }
    updateHash cdata dataLength.toNat
    readData cdata dataLength
    let ctx ← Fw.getCtx
    if ctx.inner.dataLength = 0 then do
      uxFlowInit fun d => uxRegisterDataPayload d.ctx.cborContext
      waitForButton
    else sendSuccessNoIdle
  else Fw.throw .invalidState

end ConcordiumLedger
