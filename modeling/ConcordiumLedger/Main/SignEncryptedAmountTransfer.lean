import ConcordiumLedger.Main.DisplayCbor

/-!
# Main.SignEncryptedAmountTransfer

The encrypted transfer, with and without memo (`signEncryptedAmountTransfer.c`). The amounts are
encrypted and only hashed; the proofs end the transaction.
-/

namespace ConcordiumLedger

open CMem CProg

namespace SignEncryptedAmountTransfer

inductive State where
  | initial
  | remainingAmount
  | transferAmount
  | proofs
  | memoStart
  | memo
  /-- Any other value: the union may hold bytes of another instruction. -/
  | stale
deriving DecidableEq, Inhabited

/-- `signEncryptedAmountToTransfer_t`. Its member `transactionType` is not used. -/
structure Context where
  /-- The member `to`. -/
  toAddress : Buffer 57
  proofSize : UInt16
  state : State
deriving DecidableEq, Inhabited

abbrev Blob := WithDataBlob Context

/-- `ENCRYPTED_AMOUNT_TRANSFER` -/
def encryptedAmountTransfer : UInt8 := 16

/-- `ENCRYPTED_AMOUNT_TRANSFER_WITH_MEMO` -/
def encryptedAmountTransferWithMemo : UInt8 := 23

def p1Initial : UInt8 := 0x00
def p1RemainingAmount : UInt8 := 0x01
def p1TransferAmountAggIndexProofSize : UInt8 := 0x02
def p1Proof : UInt8 := 0x03
def p1InitialWithMemo : UInt8 := 0x04
def p1Memo : UInt8 := 0x05

def setState (state : State) : Fw Blob PUnit :=
  Fw.modifyCtx fun c => { c with inner.state := state }

def startEncryptedTransferDisplay (displayMemo : Bool) : Fw Blob PUnit :=
  uxFlowInit fun d =>
    [ uxSignFlowSharedReview,
      { title := "Shielded", text := literal "transfer" },
      uxSignFlowAccountSenderView d.shared,
      { title := "Recipient", text := d.ctx.inner.toAddress.bytes } ] ++
    (if displayMemo then [uxDisplayMemoStepNocb d.ctx.cborContext] else []) ++
    [ uxSignFlowSharedSign, uxSignFlowSharedDecline ]

/-- The header and the recipient; returns the rest of the command. -/
def header (sdk : Sdk) (cdata : Ptr) (kind : UInt8) : Fw Blob Ptr := do
  let ctx ← Fw.getCtx
  let (read, recipient) ← handleHeaderAndToAddress sdk cdata kind ctx.inner.toAddress
  Fw.modifyCtx fun c => { c with inner.toAddress := recipient }
  return cdata.advance read

def handleRemainingAmount (cdata : Ptr) : Fw Blob PUnit := do
  updateHash cdata 192
  setState .transferAmount
  sendSuccessNoIdle

/-- The proof size is read but not hashed. -/
def handleTransferAmountAggIndexProofSize (cdata : Ptr) : Fw Blob PUnit := do
  updateHash cdata 200
  Fw.modifyCtx fun c => { c with inner.proofSize := (cdata.advance 200).u2be 0 }
  setState .proofs
  sendSuccessNoIdle

/-- `ctx->proofSize < 0` compares an unsigned value and never holds. -/
def handleProofs (cdata : Ptr) (dataLength : UInt8) (displayMemo : Bool) : Fw Blob PUnit := do
  updateHash cdata dataLength.toNat
  Fw.modifyCtx fun c => { c with inner.proofSize := c.inner.proofSize - dataLength.toUInt16 }
  let ctx ← Fw.getCtx
  if ctx.inner.proofSize = 0 then do
    startEncryptedTransferDisplay displayMemo
    waitForButton
  else sendSuccessNoIdle

def finishMemoEncrypted : Fw Blob PUnit := do
  setState .remainingAmount
  sendSuccessNoIdle

end SignEncryptedAmountTransfer

open SignEncryptedAmountTransfer in
def handleSignEncryptedAmountTransferWithMemo (sdk : Sdk) (cdata : Ptr) (p1 dataLength : UInt8)
    (isInitialCall : Bool) : Fw Blob PUnit := do
  Fw.when isInitialCall (setState .initial)
  let ctx ← Fw.getCtx
  if p1 = p1InitialWithMemo ∧ ctx.inner.state = .initial then do
    let cdata ← header sdk cdata encryptedAmountTransferWithMemo
    memoLength cdata
    setState .memoStart
    sendSuccessNoIdle
  else if p1 = p1Memo ∧ ctx.inner.state = .memoStart then
    memoInitial cdata dataLength finishMemoEncrypted (do setState .memo; sendSuccessNoIdle)
  else if p1 = p1Memo ∧ ctx.inner.state = .memo then
    memoContent cdata dataLength finishMemoEncrypted
  else if p1 = p1RemainingAmount ∧ ctx.inner.state = .remainingAmount then
    handleRemainingAmount cdata
  else if p1 = p1TransferAmountAggIndexProofSize ∧ ctx.inner.state = .transferAmount then
    handleTransferAmountAggIndexProofSize cdata
  else if p1 = p1Proof ∧ ctx.inner.state = .proofs then handleProofs cdata dataLength true
  else Fw.throw .invalidState

open SignEncryptedAmountTransfer in
def handleSignEncryptedAmountTransfer (sdk : Sdk) (cdata : Ptr) (p1 dataLength : UInt8)
    (isInitialCall : Bool) : Fw Blob PUnit := do
  Fw.when isInitialCall (setState .initial)
  let ctx ← Fw.getCtx
  if p1 = p1Initial ∧ ctx.inner.state = .initial then do
    let _ ← header sdk cdata encryptedAmountTransfer
    setState .remainingAmount
    sendSuccessNoIdle
  else if p1 = p1RemainingAmount ∧ ctx.inner.state = .remainingAmount then
    handleRemainingAmount cdata
  else if p1 = p1TransferAmountAggIndexProofSize ∧ ctx.inner.state = .transferAmount then
    handleTransferAmountAggIndexProofSize cdata
  else if p1 = p1Proof ∧ ctx.inner.state = .proofs then handleProofs cdata dataLength false
  else Fw.throw .invalidState

end ConcordiumLedger
