import ConcordiumLedger.Common.Util

/-!
# Main.SignTransferToEncrypted

Moving an amount between the public and the encrypted balance: the transfer to encrypted
(`signTransferToEncrypted.c`) and the transfer to public (`signTransferToPublic.c`).
-/

namespace ConcordiumLedger

open CMem CProg

namespace SignTransferToEncrypted

/-- `signTransferToEncrypted_t` -/
structure Context where
  amount : Buffer 30
deriving DecidableEq, Inhabited

/-- `TRANSFER_TO_ENCRYPTED` -/
def transferToEncrypted : UInt8 := 17

def uxSignTransferToEncrypted (d : Device Context) : List Step :=
  [ uxSignFlowSharedReview,
    uxSignFlowAccountSenderView d.shared,
    { title := "Shield amount", text := d.ctx.amount.bytes },
    uxSignFlowSharedSign,
    uxSignFlowSharedDecline ]

end SignTransferToEncrypted

open SignTransferToEncrypted in
def handleSignTransferToEncrypted (sdk : Sdk) (cdata : Ptr) : Fw Context PUnit := do
  let read ← parseKeyDerivationPath cdata
  let cdata := cdata.advance read
  cxSha256Init
  let read ← hashAccountTransactionHeaderAndKind sdk cdata transferToEncrypted
  let cdata := cdata.advance read
  let text ← Fw.eval (amountToGtuDisplay 30 (cdata.u8be 0))
  Fw.modifyCtx fun c => { c with amount := c.amount.memmove 0 text }
  updateHash cdata 8
  uxFlowInit uxSignTransferToEncrypted
  waitForButton

namespace SignTransferToPublic

inductive State where
  | initial
  | remainingAmount
  | proof
  /-- Any other value: the union may hold bytes of another instruction. -/
  | stale
deriving DecidableEq, Inhabited

/-- `signTransferToPublic_t` -/
structure Context where
  amount : Buffer 30
  proofSize : UInt16
  state : State
deriving DecidableEq, Inhabited

/-- `TRANSFER_TO_PUBLIC` -/
def transferToPublic : UInt8 := 18

def p1Initial : UInt8 := 0x00
def p1RemainingAmount : UInt8 := 0x01
def p1Proof : UInt8 := 0x02

def uxSignTransferToPublic (d : Device Context) : List Step :=
  [ uxSignFlowSharedReview,
    uxSignFlowAccountSenderView d.shared,
    { title := "Unshield amount", text := d.ctx.amount.bytes },
    uxSignFlowSharedSign,
    uxSignFlowSharedDecline ]

def setState (state : State) : Fw Context PUnit := Fw.modifyCtx fun c => { c with state }

end SignTransferToPublic

open SignTransferToPublic in
/-- `ctx->proofSize < 0` compares an unsigned value and never holds. -/
def handleSignTransferToPublic (sdk : Sdk) (cdata : Ptr) (p1 dataLength : UInt8)
    (isInitialCall : Bool) : Fw Context PUnit := do
  Fw.when isInitialCall (setState .initial)
  let ctx ← Fw.getCtx
  if p1 = p1Initial ∧ ctx.state = .initial then do
    let read ← parseKeyDerivationPath cdata
    cxSha256Init
    let _ ← hashAccountTransactionHeaderAndKind sdk (cdata.advance read) transferToPublic
    setState .remainingAmount
    sendSuccessNoIdle
  else if p1 = p1RemainingAmount ∧ ctx.state = .remainingAmount then do
    updateHash cdata 192
    let cdata := cdata.advance 192
    let text ← Fw.eval (amountToGtuDisplay 30 (cdata.u8be 0))
    Fw.modifyCtx fun c => { c with amount := c.amount.memmove 0 text }
    updateHash cdata 8
    let cdata := cdata.advance 8
    updateHash cdata 8
    let cdata := cdata.advance 8
    Fw.modifyCtx fun c => { c with proofSize := cdata.u2be 0 }
    setState .proof
    sendSuccessNoIdle
  else if p1 = p1Proof ∧ ctx.state = .proof then do
    updateHash cdata dataLength.toNat
    Fw.modifyCtx fun c => { c with proofSize := c.proofSize - dataLength.toUInt16 }
    let ctx ← Fw.getCtx
    if ctx.proofSize = 0 then do
      uxFlowInit uxSignTransferToPublic
      waitForButton
    else sendSuccessNoIdle
  else Fw.throw .invalidState

end ConcordiumLedger
