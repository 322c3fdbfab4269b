import ConcordiumLedger.Common.Base58check
import ConcordiumLedger.Common.Globals

/-!
# Common.Util

The functions that the instructions share (`util.c`, `sign.c`, `menu.c`, `accountSenderView.c`).

* the key path and the hash: `parseKeyDerivationPath`, `cxSha256Init`, `updateHash` and what is
  built from them,
* the display and the replies: `uxFlowInit`, `sendSuccess`, `sendUserRejection`, `uiIdle`,
* the steps that most signing flows share, and `buildAndSignTransactionHash`.

`updateHash` does not fail: the hash context and the input are never null.
-/

namespace ConcordiumLedger

open CMem CProg

variable {γ : Type}

/-- `HARDENED_OFFSET` -/
def hardenedOffset : UInt32 := 0x80000000

/-! ## Key path and hash -/

/-- Overwrites the start of an array of nodes. -/
def setNodes (nodes old : List UInt32) : List UInt32 := nodes ++ old.drop nodes.length

def parseKeyDerivationPath (cdata : Ptr) : Fw γ Nat := do
  Fw.modifyShared fun s =>
    { s.act .parseKeyDerivationPath with path.pathLength := cdata 0 }
  Fw.throwIf (cdata 0 > 8) .invalidPath
  let nodes := (List.range (cdata 0).toNat).map fun i => cdata.u4be (1 + i * 4)
  Fw.modifyShared fun s =>
    { s with
      path.rawKeyDerivationPath := setNodes nodes s.path.rawKeyDerivationPath
      path.keyDerivationPath :=
        setNodes (nodes.map (· ||| hardenedOffset)) s.path.keyDerivationPath }
  return 1 + 4 * (cdata 0).toNat

def cxSha256Init : Fw γ PUnit := Fw.modifyShared Shared.sha256Init

/-- `updateHash(&tx_state->hash, cdata, len)` -/
def updateHash (cdata : Ptr) (len : Nat) : Fw γ PUnit :=
  Fw.modifyShared (Shared.updateHash (cdata.slice len))

/-- `ACCOUNT_TRANSACTION_HEADER_LENGTH` -/
def accountTransactionHeaderLength : Nat := 60

/-- `UPDATE_HEADER_LENGTH` -/
def updateHeaderLength : Nat := 28

def hashHeaderAndType (cdata : Ptr) (headerLength : Nat) (validType : UInt8) : Fw γ Nat := do
  updateHash cdata headerLength
  let cdata := cdata.advance headerLength
  Fw.throwIf (cdata 0 ≠ validType) .invalidTransaction
  updateHash cdata 1
  return headerLength + 1

/-- Writes the base58 text of an address to an array of 57 bytes and terminates it. -/
def addressText (sdk : Sdk) (address : List UInt8) (dst : Buffer 57) :
    Except Error (Buffer 57) := do
  match ← base58checkEncode sdk.sha256 address 57 with
  | none => .error .invalidTransaction
  | some text => .ok ((dst.memmove 0 text).memmove 55 [0])

def hashAccountTransactionHeaderAndKind (sdk : Sdk) (cdata : Ptr) (validTransactionKind : UInt8) :
    Fw γ Nat := do
  let s ← Fw.getShared
  let sender ← Fw.eval (addressText sdk (cdata.slice 32) s.sender)
  Fw.modifyShared fun s => { s with sender }
  hashHeaderAndType cdata accountTransactionHeaderLength validTransactionKind

def hashUpdateHeaderAndType (cdata : Ptr) (validUpdateType : UInt8) : Fw γ Nat :=
  hashHeaderAndType cdata updateHeaderLength validUpdateType

/-- Returns the number of bytes read with the recipient's text. -/
def handleHeaderAndToAddress (sdk : Sdk) (cdata : Ptr) (kind : UInt8) (recipientDst : Buffer 57) :
    Fw γ (Nat × Buffer 57) := do
  let keyPathLength ← parseKeyDerivationPath cdata
  let cdata := cdata.advance keyPathLength
  cxSha256Init
  let headerLength ← hashAccountTransactionHeaderAndKind sdk cdata kind
  let cdata := cdata.advance headerLength
  updateHash cdata 32
  let recipient ← Fw.eval (addressText sdk (cdata.slice 32) recipientDst)
  return (keyPathLength + headerLength + 32, recipient)

/-- The text of `hashAndLoadU64Ratio`, written to the start of `dst`. -/
def u64RatioText {n : Nat} (numerator denominator : UInt64) (dst : Buffer n) :
    Except Error (Buffer n) := do
  let num ← numberToText n numerator
  let dst := dst.memmove 0 (num ++ ascii " / ")
  let den ← numberToText (subSize n (num.length + 3)) denominator
  return dst.memmove (num.length + 3) den

/-- The text is not terminated. Returns the number of bytes read with the text. -/
def hashAndLoadU64Ratio {n : Nat} (cdata : Ptr) (dst : Buffer n) : Fw γ (Nat × Buffer n) := do
  updateHash cdata 16
  let dst ← Fw.eval (u64RatioText (cdata.u8be 0) (cdata.u8be 8) dst)
  return (16, dst)

def getIdentityAccountDisplay (dstLength : Nat) (identityIndex accountIndex : UInt32) :
    Except Error (List UInt8) := do
  let identity ← numberToText dstLength identityIndex.toUInt64
  let account ← bin2dec (subSize dstLength (identity.length + 1)) accountIndex.toUInt64
  return identity ++ [47] ++ account

/-! ## Display and replies -/

/-- `ux_flow_init` of a flow whose texts may lie in the context. -/
def uxFlowInit (flow : Device γ → List Step) : Fw γ PUnit :=
  Prog.modify fun d => { d with shared := d.shared.uxFlowInit (flow d) }

/-- `*flags |= IO_ASYNCH_REPLY` -/
def waitForButton : Fw γ PUnit := Fw.modifyShared fun s => { s with asynchReply := true }

/-- `ux_menu_idle_flow`. The version is left out. -/
def uxMenuIdleFlow : List Step :=
  [ { title := "Concordium", text := literal "is ready" },
    { title := "Quit", callback := .osSchedExit },
    { title := "Version" } ]

def uiIdle : Fw γ PUnit := do
  Fw.modifyShared (Shared.setInstruction none)
  uxFlowInit fun _ => uxMenuIdleFlow

def sendUserRejection : Fw γ PUnit := do
  Fw.modifyShared (Shared.reply [] Error.rejectedByUser.code)
  uiIdle

def sendSuccess (data : List UInt8) : Fw γ PUnit := do
  Fw.modifyShared (Shared.reply data success)
  uiIdle

def sendSuccessResultNoIdle (data : List UInt8) : Fw γ PUnit :=
  Fw.modifyShared (Shared.reply data success)

def sendSuccessNoIdle : Fw γ PUnit := sendSuccessResultNoIdle []

/-! ## Shared steps and signing -/

def uxSignFlowSharedReview : Step := { title := "Review", text := literal "transaction" }

def uxSignFlowSharedSign : Step :=
  { title := "Sign", text := literal "transaction", callback := .buildAndSignTransactionHash }

def uxSignFlowSharedDecline : Step :=
  { title := "Decline to", text := literal "sign transaction", callback := .sendUserRejection }

def uxSignFlowShared : List Step := [uxSignFlowSharedSign, uxSignFlowSharedDecline]

def uxSignFlowAccountSenderView (s : Shared) : Step :=
  { title := "Sender", text := s.sender.bytes }

/-- The bytes since the last `cx_sha256_init` are what the finished hash is of. -/
def buildAndSignTransactionHash (sdk : Sdk) : Fw γ PUnit := do
  let s ← Fw.getShared
  let signedHash ← Fw.ensureNoError (sdk.sign s.path.nodes (sdk.sha256 s.hash))
  Fw.modifyShared (Shared.act (.signed s.path.nodes s.hash))
  sendSuccess signedHash

end ConcordiumLedger
