import ConcordiumLedger.Common.Util

/-!
# Main.SignPublicInformationForIp

The public information for an identity provider (`signPublicInformationForIp.c`): a list of keys
and the signature threshold.
-/

namespace ConcordiumLedger

open CMem CProg

namespace SignPublicInformationForIp

inductive State where
  | initial
  | verificationKey
  | threshold
  /-- Any other value: the union may hold bytes of another instruction. -/
  | stale
deriving DecidableEq, Inhabited

/-- `signPublicInformationForIp_t` -/
structure Context where
  showIntro : Bool
  publicKeysLength : UInt8
  publicKey : Buffer 68
  threshold : Buffer 4
  state : State
deriving DecidableEq, Inhabited

def p1Initial : UInt8 := 0x00
def p1VerificationKey : UInt8 := 0x01
def p1Threshold : UInt8 := 0x02

def uxDisplayPublicKey (c : Context) : Step := { title := "Public key", text := c.publicKey.bytes }

def uxContinue : Step :=
  { title := "Continue", text := literal "reviewing info", callback := .sendSuccessNoIdle }

def uxReview : Step :=
  { title := "Review identity", text := literal "provider info", callback := .sendSuccessNoIdle }

/-- `ux_review_public_info_for_ip` with the intro, `ux_sign_public_info_for_ip_public_key`
without. -/
def uxPublicKeyFlow (c : Context) : List Step :=
  (if c.showIntro then [uxReview] else []) ++ [uxDisplayPublicKey c, uxContinue]

/-- `ux_sign_public_info_for_ip_complete` with the intro, `ux_sign_public_info_for_ip_final`
without. -/
def uxFinalFlow (c : Context) : List Step :=
  (if c.showIntro then [uxReview] else []) ++
  [ uxDisplayPublicKey c,
    { title := "Signature threshold", text := c.threshold.bytes },
    { title := "Sign identity", text := literal "provider info",
      callback := .buildAndSignTransactionHash },
    { title := "Decline to", text := literal "sign info", callback := .sendUserRejection } ]

def setState (state : State) : Fw Context PUnit := Fw.modifyCtx fun c => { c with state }

def handleInitial (cdata : Ptr) : Fw Context PUnit := do
  let read ← parseKeyDerivationPath cdata
  let cdata := cdata.advance read
  cxSha256Init
  updateHash cdata 48
  let cdata := cdata.advance 48
  updateHash cdata 48
  let cdata := cdata.advance 48
  Fw.modifyCtx fun c => { c with publicKeysLength := cdata 0 }
  updateHash cdata 1
  Fw.modifyCtx fun c => { c with showIntro := true }
  setState .verificationKey
  sendSuccessNoIdle

/-- The last key is not displayed here but in the final flow. -/
def handleVerificationKey (cdata : Ptr) : Fw Context PUnit := do
  let ctx ← Fw.getCtx
  Fw.throwIf (ctx.publicKeysLength ≤ 0) .invalidState
  updateHash cdata 1
  let cdata := cdata.advance 1
  updateHash cdata 1
  let cdata := cdata.advance 1
  updateHash cdata 32
  let hex ← Fw.eval (toPaginatedHex (cdata.slice 32) ctx.publicKey)
  Fw.modifyCtx fun c => { c with publicKey := hex, publicKeysLength := c.publicKeysLength - 1 }
  if ctx.publicKeysLength - 1 > 0 then do
    uxFlowInit fun d => uxPublicKeyFlow d.ctx
    Fw.modifyCtx fun c => { c with showIntro := false }
    waitForButton
  else do
    setState .threshold
    sendSuccessNoIdle

def handleThreshold (cdata : Ptr) : Fw Context PUnit := do
  updateHash cdata 1
  let text ← Fw.eval (bin2dec 4 (cdata 0).toUInt64)
  Fw.modifyCtx fun c => { c with threshold := c.threshold.memmove 0 text }
  uxFlowInit fun d => uxFinalFlow d.ctx
  waitForButton

end SignPublicInformationForIp

open SignPublicInformationForIp in
def handleSignPublicInformationForIp (cdata : Ptr) (p1 : UInt8) (isInitialCall : Bool) :
    Fw Context PUnit := do
  Fw.when isInitialCall (setState .initial)
  let ctx ← Fw.getCtx
  if p1 = p1Initial ∧ ctx.state = .initial then handleInitial cdata
  else if p1 = p1VerificationKey ∧ ctx.state = .verificationKey then handleVerificationKey cdata
  else if p1 = p1Threshold ∧ ctx.state = .threshold then handleThreshold cdata
  else Fw.throw .invalidState

end ConcordiumLedger
