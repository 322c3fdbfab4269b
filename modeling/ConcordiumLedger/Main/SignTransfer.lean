import ConcordiumLedger.Main.DisplayCbor

/-!
# Main.SignTransfer

The simple transfer and the simple transfer with memo (`signTransfer.c`).
-/

namespace ConcordiumLedger

open CMem CProg

namespace SignTransfer

inductive State where
  | initial
  | memoInitial
  | memo
  | amount
  /-- Any other value: the union may hold bytes of another instruction. -/
  | stale
deriving DecidableEq, Inhabited

/-- `signTransferContext_t` -/
structure Context where
  displayStr : Buffer 57
  displayAmount : Buffer 30
  state : State
deriving DecidableEq, Inhabited

abbrev Blob := WithDataBlob Context

/-- `TRANSFER` -/
def transfer : UInt8 := 3

/-- `TRANSFER_WITH_MEMO` -/
def transferWithMemo : UInt8 := 22

def p1InitialWithMemo : UInt8 := 0x01
def p1Memo : UInt8 := 0x02
def p1Amount : UInt8 := 0x03

def startTransferDisplay (displayMemo : Bool) : Fw Blob PUnit :=
  uxFlowInit fun d =>
    [ uxSignFlowSharedReview,
      uxSignFlowAccountSenderView d.shared,
      { title := "Amount", text := d.ctx.inner.displayAmount.bytes },
      { title := "Recipient", text := d.ctx.inner.displayStr.bytes } ] ++
    (if displayMemo then [uxDisplayMemoStepNocb d.ctx.cborContext] else []) ++
    [ uxSignFlowSharedSign, uxSignFlowSharedDecline ]

def setState (state : State) : Fw Blob PUnit :=
  Fw.modifyCtx fun c => { c with inner.state := state }

/-- The header and the recipient; returns the rest of the command. -/
def header (sdk : Sdk) (cdata : Ptr) (kind : UInt8) : Fw Blob Ptr := do
  let ctx ← Fw.getCtx
  let (read, recipient) ← handleHeaderAndToAddress sdk cdata kind ctx.inner.displayStr
  Fw.modifyCtx fun c => { c with inner.displayStr := recipient }
  return cdata.advance read

/-- The amount, which is displayed and hashed. -/
def amount (cdata : Ptr) : Fw Blob PUnit := do
  let text ← Fw.eval (amountToGtuDisplay 30 (cdata.u8be 0))
  Fw.modifyCtx fun c => { c with inner.displayAmount := c.inner.displayAmount.memmove 0 text }
  updateHash cdata 8

def finishMemo : Fw Blob PUnit := do
  setState .amount
  sendSuccessNoIdle

end SignTransfer

open SignTransfer in
def handleSignTransfer (sdk : Sdk) (cdata : Ptr) : Fw Blob PUnit := do
  let cdata ← header sdk cdata transfer
  amount cdata
  startTransferDisplay false
  waitForButton

open SignTransfer in
def handleSignTransferWithMemo (sdk : Sdk) (cdata : Ptr) (p1 dataLength : UInt8)
    (isInitialCall : Bool) : Fw Blob PUnit := do
  Fw.when isInitialCall (setState .initial)
  let ctx ← Fw.getCtx
  if p1 = p1InitialWithMemo ∧ ctx.inner.state = .initial then do
    let cdata ← header sdk cdata transferWithMemo
    memoLength cdata
    setState .memoInitial
    sendSuccessNoIdle
  else if p1 = p1Memo ∧ ctx.inner.state = .memoInitial then
    memoInitial cdata dataLength finishMemo (do setState .memo; sendSuccessNoIdle)
  else if p1 = p1Memo ∧ ctx.inner.state = .memo then
    memoContent cdata dataLength finishMemo
  else if p1 = p1Amount ∧ ctx.inner.state = .amount then do
    amount cdata
    startTransferDisplay true
    waitForButton
  else Fw.throw .invalidState

end ConcordiumLedger
