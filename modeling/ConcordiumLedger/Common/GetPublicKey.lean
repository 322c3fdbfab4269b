import ConcordiumLedger.Common.Util

/-!
# Common.GetPublicKey

Export of a public key (`getPublicKey.c`). It parses a key path but hashes nothing, and its flows
have no Sign step: with `p2 = 1` the public key itself is signed. That signature is not one of a
transaction, and the log has it in the reply only.
-/

namespace ConcordiumLedger

open CMem CProg

namespace GetPublicKey

/-- `exportPublicKeyContext_t` -/
structure Context where
  display : Buffer 14
  publicKey : Buffer 68
  signPublicKey : Bool
deriving DecidableEq, Inhabited

def uxGeneratePublicFlow (c : Context) : List Step :=
  [ { title := "Public key", text := c.display.bytes, callback := .sendPublicKey },
    { title := "Decline", callback := .sendUserRejection } ]

def uxSignComparePublicKey (c : Context) : List Step :=
  [ { title := "Compare", text := c.publicKey.bytes },
    { title := "Accept", callback := .uiIdle },
    { title := "Decline", callback := .uiIdle } ]

/-- The text for a governance path, by its purpose. -/
def governanceText (purpose : UInt32) : Except Error (List UInt8) :=
  if purpose = 0 then .ok (literal "Gov. root")
  else if purpose = 1 then .ok (literal "Gov. level 1")
  else if purpose = 2 then .ok (literal "Gov. level 2")
  else .error .invalidPath

/-- The text that says which key is exported. -/
def displayText (path : KeyDerivationPath) : Except Error (List UInt8) :=
  let node (i : Nat) : UInt32 := path.rawKeyDerivationPath.getD i 0
  if path.pathLength = 5 then
    if node 2 ≠ 1 then .error .invalidPath else governanceText (node 3)
  else getIdentityAccountDisplay 14 (node 4) (node 6)

end GetPublicKey

open GetPublicKey

/-- The key, and its signature by the key itself if that was asked for. -/
def publicKeyResponse (sdk : Sdk) : Fw Context (List UInt8 × List UInt8) := do
  let s ← Fw.getShared
  let publicKey ← Fw.ensureNoError (sdk.publicKey s.path.nodes)
  let ctx ← Fw.getCtx
  if ctx.signPublicKey then do
    let signedPublicKey ← Fw.ensureNoError (sdk.sign s.path.nodes publicKey)
    return (publicKey, publicKey ++ signedPublicKey)
  else return (publicKey, publicKey)

def sendPublicKey (sdk : Sdk) (compare : Bool) : Fw Context PUnit := do
  let (publicKey, response) ← publicKeyResponse sdk
  if compare then do
    sendSuccessResultNoIdle response
    let ctx ← Fw.getCtx
    let hex ← Fw.eval (toPaginatedHex publicKey ctx.publicKey)
    Fw.modifyCtx fun c => { c with publicKey := hex }
    Fw.modifyShared (Shared.setInstruction none)
    uxFlowInit fun d => uxSignComparePublicKey d.ctx
  else sendSuccess response

def handleGetPublicKey (sdk : Sdk) (cdata : Ptr) (p1 p2 : UInt8) : Fw Context PUnit := do
  let _ ← parseKeyDerivationPath cdata
  Fw.modifyCtx fun c => { c with signPublicKey := p2 = 0x01 }
  if p1 = 0x01 then sendPublicKey sdk false
  else do
    let s ← Fw.getShared
    let text ← Fw.eval (displayText s.path)
    Fw.modifyCtx fun c => { c with display := c.display.memmove 0 text }
    uxFlowInit fun d => uxGeneratePublicFlow d.ctx
    waitForButton

end ConcordiumLedger
