import ConcordiumLedger.Common.Base58check
import ConcordiumLedger.Common.BlsKeygen

/-!
# Main.ExportPrivateKey

Export of the keys that may leave the device (`exportPrivateKey.c`) and the check of an address
on the display (`verifyAddress.c`). Neither touches the hash or the key path that signing uses.
-/

namespace ConcordiumLedger

open CMem CProg

/-- `CONCORDIUM_PURPOSE`, `CONCORDIUM_COIN_TYPE`, `ACCOUNT_SUBTREE` and `NORMAL_ACCOUNTS`, then the
identity, all hardened. -/
def identityPath (identity : UInt32) : List UInt32 :=
  [1105, 0, 0, 0, identity].map (· ||| hardenedOffset)

namespace ExportPrivateKey

/-- `exportPrivateKeyContext_t`. Its member `pathLength` is not used. -/
structure Context where
  displayHeader : Buffer 20
  display : Buffer 15
  exportBoth : Bool
  exportSeed : Bool
  path : Vector UInt32 6
deriving DecidableEq, Inhabited

def p1PrfKey : UInt8 := 0x00
def p1PrfKeyRecovery : UInt8 := 0x01
def p1Both : UInt8 := 0x02
def p2Seed : UInt8 := 0x01
def p2Key : UInt8 := 0x02

def idCredSec : UInt32 := 0
def prfKey : UInt32 := 1

/-- The title of the first step is an array as well. -/
def uxExportPrivateKey (c : Context) : List Step :=
  [ { title := "", text := c.displayHeader.bytes ++ c.display.bytes },
    { title := "Accept", callback := .exportPrivateKey },
    { title := "Decline", callback := .sendUserRejection } ]

/-- All nodes but the last are those of the identity. -/
def withIdentity (identity : UInt32) (path : Vector UInt32 6) : Vector UInt32 6 :=
  ⟨(identityPath identity ++ [path[5]]).toArray, by simp [identityPath]⟩

def headerText (p1 : UInt8) : List UInt8 :=
  if p1 = p1Both then literal "Create credential"
  else if p1 = p1PrfKeyRecovery then literal "Recover credentials"
  else literal "Decrypt"

end ExportPrivateKey

/-- `getBlsPrivateKey` -/
def getBlsPrivateKey {γ : Type} (sdk : Sdk) (path : List UInt32) : Fw γ (List UInt8) := do
  let seed ← Fw.ensureNoError (sdk.privateKey path)
  Fw.eval (sdk.blsKey seed)

open ExportPrivateKey in
/-- One of the keys under the path of the context. -/
def exportedKey (sdk : Sdk) (node : UInt32) : Fw Context (List UInt8) := do
  Fw.modifyCtx fun c => { c with path := c.path.set 5 (node ||| hardenedOffset) }
  let ctx ← Fw.getCtx
  if ctx.exportSeed then Fw.ensureNoError (sdk.privateKey ctx.path.toList)
  else getBlsPrivateKey sdk ctx.path.toList

open ExportPrivateKey in
/-- `exportPrivateKeySeed` and `exportPrivateKeyBls`, which differ in how a key is derived. -/
def exportPrivateKey (sdk : Sdk) : Fw Context PUnit := do
  let prf ← exportedKey sdk prfKey
  let ctx ← Fw.getCtx
  if ctx.exportBoth then do
    let cred ← exportedKey sdk idCredSec
    sendSuccess (prf ++ cred)
  else sendSuccess prf

open ExportPrivateKey in
def handleExportPrivateKey (dataBuffer : Ptr) (p1 p2 : UInt8) : Fw Context PUnit := do
  Fw.throwIf ((p1 ≠ p1Both ∧ p1 ≠ p1PrfKey ∧ p1 ≠ p1PrfKeyRecovery) ∨ (p2 ≠ p2Key ∧ p2 ≠ p2Seed))
    .invalidParam
  let identity := dataBuffer.u4be 0
  Fw.modifyCtx fun c => { c with
    path := withIdentity identity c.path
    exportBoth := p1 = p1Both
    exportSeed := p2 = p2Seed
    display := c.display.memmove 0 (ascii "ID #") }
  let text ← Fw.eval (bin2dec (15 - 4) identity.toUInt64)
  Fw.modifyCtx fun c => { c with
    display := c.display.memmove 4 text
    displayHeader := c.displayHeader.memmove 0 (headerText p1) }
  uxFlowInit fun d => uxExportPrivateKey d.ctx
  waitForButton

namespace VerifyAddress

/-- `verifyAddressContext_t` -/
structure Context where
  display : Buffer 14
  address : Buffer 57
deriving DecidableEq, Inhabited

def uxVerifyAddress (c : Context) : List Step :=
  [ { title := "Verify Address", text := c.display.bytes },
    { title := "Address", text := c.address.bytes },
    { title := "Approve", callback := .sendSuccess },
    { title := "Reject", callback := .sendUserRejection } ]

/-- The text of an address; when the encoding fails the array is only terminated. -/
def addressDisplay (sdk : Sdk) (address : List UInt8) (dst : Buffer 57) :
    Except Error (Buffer 57) := do
  match ← base58checkEncode sdk.sha256 address 57 with
  | none => .ok (dst.memmove 55 [0])
  | some text => .ok ((dst.memmove 0 text).memmove 55 [0])

end VerifyAddress

open VerifyAddress in
def handleVerifyAddress (sdk : Sdk) (cdata : Ptr) : Fw Context PUnit := do
  let identity := cdata.u4be 0
  let credCounter := cdata.u4be 4
  let text ← Fw.eval (getIdentityAccountDisplay 14 identity credCounter)
  Fw.modifyCtx fun c => { c with display := c.display.memmove 0 text }
  let prf ← getBlsPrivateKey sdk (identityPath identity ++ [1 ||| hardenedOffset])
  match sdk.getCredId prf credCounter with
  | none => Fw.throw .invalidState
  | some credId => do
    let ctx ← Fw.getCtx
    let address ← Fw.eval (addressDisplay sdk (sdk.sha256 credId) ctx.address)
    Fw.modifyCtx fun c => { c with address }
    uxFlowInit fun d => uxVerifyAddress d.ctx
    waitForButton

end ConcordiumLedger
