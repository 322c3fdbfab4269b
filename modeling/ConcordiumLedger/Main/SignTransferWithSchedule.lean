import ConcordiumLedger.Common.Time
import ConcordiumLedger.Main.DisplayCbor

/-!
# Main.SignTransferWithSchedule

The scheduled transfer, with and without memo (`signTransferWithSchedule.c`). The pairs of release
time and amount arrive in packets of up to 15; each pair is hashed when it is displayed, the first
of a packet by the command and the others by the callback `processNextScheduledAmount`.
-/

namespace ConcordiumLedger

open CMem CProg

namespace SignTransferWithSchedule

inductive State where
  | initial
  | transferPairs
  | memoStart
  | memo
  /-- Any other value: the union may hold bytes of another instruction. -/
  | stale
deriving DecidableEq, Inhabited

/-- `signTransferWithScheduleContext_t`. Its member `transactionType` is not used. -/
structure Context where
  state : State
  displayStr : Buffer 57
  remainingNumberOfScheduledAmounts : UInt8
  scheduledAmountsInCurrentPacket : UInt8
  displayAmount : Buffer 30
  displayTimestamp : Buffer 25
  time : Tm
  buffer : Buffer 255
  pos : UInt8
deriving DecidableEq, Inhabited

abbrev Blob := WithDataBlob Context

/-- `TRANSFER_WITH_SCHEDULE` -/
def transferWithSchedule : UInt8 := 19

/-- `TRANSFER_WITH_SCHEDULE_WITH_MEMO` -/
def transferWithScheduleWithMemo : UInt8 := 24

def p1InitialPacket : UInt8 := 0x00
def p1ScheduledTransferPairs : UInt8 := 0x01
def p1InitialWithMemo : UInt8 := 0x02
def p1Memo : UInt8 := 0x03

def setState (state : State) : Fw Blob PUnit :=
  Fw.modifyCtx fun c => { c with inner.state := state }

def startInitialScheduledTransferDisplay (displayMemo : Bool) : Fw Blob PUnit :=
  uxFlowInit fun d =>
    [ uxSignFlowSharedReview,
      uxSignFlowAccountSenderView d.shared,
      { title := "Recipient", text := d.ctx.inner.displayStr.bytes } ] ++
    (if displayMemo then [uxDisplayMemoStepNocb d.ctx.cborContext] else []) ++
    [ { title := "Continue", text := literal "with transaction", callback := .sendSuccessNoIdle } ]

/-- The release time and the amount of a pair. -/
def pairSteps (c : Context) : List Step :=
  [ { title := "Release time (UTC)", text := c.displayTimestamp.bytes },
    { title := "Amount", text := c.displayAmount.bytes } ]

def uxSignScheduledTransferPairFlow (c : Context) : List Step :=
  pairSteps c ++
    [ { title := "Show", text := literal "next release", callback := .processNextScheduledAmount } ]

def uxSignScheduledTransferPairFlowSign (c : Context) : List Step :=
  pairSteps c ++ [ uxSignFlowSharedSign, uxSignFlowSharedDecline ]

/-- The release time of the pair at `pos`: hashes it and sets its text. -/
def releaseTime : Fw Blob PUnit := do
  let ctx ← Fw.getCtx
  let timestamp := ctx.inner.buffer.ptr.u8be ctx.inner.pos.toNat / 1000
  updateHash (ctx.inner.buffer.ptr.advance ctx.inner.pos.toNat) 8
  Fw.modifyCtx fun c => { c with inner.pos := c.inner.pos + 8 }
  match secondsToTm timestamp.toNat with
  | none => Fw.throw .invalidParam
  | some time => do
    Fw.modifyCtx fun c => { c with inner.time := time }
    Fw.throwIf (time.year > 9999) .invalidParam
    let text ← Fw.eval (timeToDisplayText time 25)
    Fw.modifyCtx fun c => { c with
      inner.displayTimestamp := c.inner.displayTimestamp.memmove 0 text }

/-- The amount of the pair, at `pos`: hashes it and sets its text. -/
def releaseAmount : Fw Blob PUnit := do
  let ctx ← Fw.getCtx
  updateHash (ctx.inner.buffer.ptr.advance ctx.inner.pos.toNat) 8
  Fw.modifyCtx fun c => { c with inner.pos := c.inner.pos + 8 }
  let text ← Fw.eval (amountToGtuDisplay 30 (ctx.inner.buffer.ptr.u8be ctx.inner.pos.toNat))
  Fw.modifyCtx fun c => { c with inner.displayAmount := c.inner.displayAmount.memmove 0 text }

/-- The header, the recipient and, after them, the number of releases. Returns the rest of the
command. -/
def header (sdk : Sdk) (cdata : Ptr) (kind : UInt8) : Fw Blob Ptr := do
  let ctx ← Fw.getCtx
  let (read, recipient) ← handleHeaderAndToAddress sdk cdata kind ctx.inner.displayStr
  let cdata := cdata.advance read
  Fw.modifyCtx fun c => { c with
    inner.displayStr := recipient
    inner.remainingNumberOfScheduledAmounts := cdata 0 }
  return cdata

end SignTransferWithSchedule

open SignTransferWithSchedule in
def processNextScheduledAmount : Fw Blob PUnit := do
  let ctx ← Fw.getCtx
  if ctx.inner.scheduledAmountsInCurrentPacket = 0 then sendSuccessNoIdle
  else do
    releaseTime
    releaseAmount
    Fw.modifyCtx fun c => { c with
      inner.scheduledAmountsInCurrentPacket := c.inner.scheduledAmountsInCurrentPacket - 1 }
    let ctx ← Fw.getCtx
    if ctx.inner.remainingNumberOfScheduledAmounts = 0 ∧
        ctx.inner.scheduledAmountsInCurrentPacket = 0 then
      uxFlowInit fun d => uxSignScheduledTransferPairFlowSign d.ctx.inner
    else uxFlowInit fun d => uxSignScheduledTransferPairFlow d.ctx.inner

namespace SignTransferWithSchedule

/-- The pairs of a packet are counted off and the position in it is reset. -/
def Context.startPacket (c : Context) : Context :=
  if c.remainingNumberOfScheduledAmounts ≤ 15 then
    { c with
      scheduledAmountsInCurrentPacket := c.remainingNumberOfScheduledAmounts
      remainingNumberOfScheduledAmounts := 0
      pos := 0 }
  else
    { c with
      scheduledAmountsInCurrentPacket := 15
      remainingNumberOfScheduledAmounts := c.remainingNumberOfScheduledAmounts - 15
      pos := 0 }

def handleTransferPairs (cdata : Ptr) : Fw Blob PUnit := do
  Fw.modifyCtx fun c => { c with inner := c.inner.startPacket }
  Fw.modifyCtx fun c => { c with
    inner.buffer := c.inner.buffer.memmove 0
      (cdata.slice (c.inner.scheduledAmountsInCurrentPacket.toNat * 16)) }
  processNextScheduledAmount
  waitForButton

def finishMemoScheduled : Fw Blob PUnit := do
  let ctx ← Fw.getCtx
  Fw.modifyShared (Shared.updateHash [ctx.inner.remainingNumberOfScheduledAmounts])
  setState .transferPairs
  startInitialScheduledTransferDisplay true
  waitForButton

end SignTransferWithSchedule

open SignTransferWithSchedule in
def handleSignTransferWithScheduleAndMemo (sdk : Sdk) (cdata : Ptr) (p1 dataLength : UInt8)
    (isInitialCall : Bool) : Fw Blob PUnit := do
  Fw.when isInitialCall (setState .initial)
  let ctx ← Fw.getCtx
  if p1 = p1InitialWithMemo ∧ ctx.inner.state = .initial then do
    let cdata ← header sdk cdata transferWithScheduleWithMemo
    memoLength (cdata.advance 1)
    setState .memoStart
    sendSuccessNoIdle
  else if p1 = p1Memo ∧ ctx.inner.state = .memoStart then
    memoInitial cdata dataLength finishMemoScheduled (do setState .memo; sendSuccessNoIdle)
  else if p1 = p1Memo ∧ ctx.inner.state = .memo then
    memoContent cdata dataLength finishMemoScheduled
  else if p1 = p1ScheduledTransferPairs ∧ ctx.inner.state = .transferPairs then
    handleTransferPairs cdata
  else Fw.throw .invalidParam

open SignTransferWithSchedule in
def handleSignTransferWithSchedule (sdk : Sdk) (cdata : Ptr) (p1 : UInt8) (isInitialCall : Bool) :
    Fw Blob PUnit := do
  Fw.when isInitialCall (setState .initial)
  let ctx ← Fw.getCtx
  if p1 = p1InitialPacket ∧ ctx.inner.state = .initial then do
    let cdata ← header sdk cdata transferWithSchedule
    updateHash cdata 1
    setState .transferPairs
    startInitialScheduledTransferDisplay false
    waitForButton
  else if p1 = p1ScheduledTransferPairs ∧ ctx.inner.state = .transferPairs then
    handleTransferPairs cdata
  else Fw.throw .invalidParam

end ConcordiumLedger
