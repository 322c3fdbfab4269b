import ConcordiumLedger.Common.Util

/-!
# Main.SignConfigureDelegation

Configuration of a delegation (`signConfigureDelegation.c`), in a single command.
-/

namespace ConcordiumLedger

open CMem CProg

namespace SignConfigureDelegation

/-- `signConfigureDelegationContext_t` -/
structure Context where
  stopDelegation : Bool
  displayCapital : Buffer 30
  displayRestake : Buffer 4
  displayDelegationTarget : Buffer 30
  hasCapital : Bool
  hasRestakeEarnings : Bool
  hasDelegationTarget : Bool
deriving DecidableEq, Inhabited

/-- `CONFIGURE_DELEGATION` -/
def configureDelegation : UInt8 := 26

def startDisplay : Fw Context PUnit :=
  uxFlowInit fun d =>
    let c := d.ctx
    [uxSignFlowSharedReview, uxSignFlowAccountSenderView d.shared] ++
    (if c.hasCapital then
      [if c.stopDelegation then { title := "Stop", text := literal "delegation" }
       else { title := "Amount to delegate", text := c.displayCapital.bytes }]
     else []) ++
    (if c.hasRestakeEarnings then
      [{ title := "Restake earnings", text := c.displayRestake.bytes }] else []) ++
    (if c.hasDelegationTarget then
      [{ title := "Delegation target", text := c.displayDelegationTarget.bytes }] else []) ++
    [uxSignFlowSharedSign, uxSignFlowSharedDecline]

/-- The capital, if there is one; returns how much was read. -/
def readCapital (cdata : Ptr) : Fw Context Nat := do
  let ctx ← Fw.getCtx
  if ctx.hasCapital then do
    (if cdata.u8be 0 = 0 then Fw.modifyCtx fun c => { c with stopDelegation := true }
    else do
      Fw.modifyCtx fun c => { c with stopDelegation := false }
      let text ← Fw.eval (amountToGtuDisplay 30 (cdata.u8be 0))
      Fw.modifyCtx fun c => { c with displayCapital := c.displayCapital.memmove 0 text } :
      Fw Context PUnit)
    updateHash cdata 8
    return 8
  else return 0

def readRestake (cdata : Ptr) : Fw Context Nat := do
  let ctx ← Fw.getCtx
  if ctx.hasRestakeEarnings then do
    updateHash cdata 1
    Fw.throwIf (cdata 0 ≠ 0 ∧ cdata 0 ≠ 1) .invalidTransaction
    Fw.modifyCtx fun c => { c with
      displayRestake := c.displayRestake.memmove 0
        (if cdata 0 = 0 then literal "No" else literal "Yes") }
    return 1
  else return 0

def readDelegationTarget (cdata : Ptr) : Fw Context Nat := do
  let ctx ← Fw.getCtx
  if ctx.hasDelegationTarget then do
    updateHash cdata 1
    if cdata 0 = 0 then do
      Fw.modifyCtx fun c => { c with
        displayDelegationTarget :=
          c.displayDelegationTarget.memmove 0 (literal "Passive Delegation") }
      return 1
    else if cdata 0 = 1 then do
      let cdata := cdata.advance 1
      let text ← Fw.eval (bin2dec 21 (cdata.u8be 0))
      Fw.modifyCtx fun c => { c with
        displayDelegationTarget :=
          c.displayDelegationTarget.memmove 0 (ascii "Baker ID " ++ text) }
      updateHash cdata 8
      return 9
    else Fw.throw .invalidTransaction
  else return 0

end SignConfigureDelegation

open SignConfigureDelegation in
def handleSignConfigureDelegation (sdk : Sdk) (cdata : Ptr) (dataLength : UInt8) :
    Fw Context PUnit := do
  let keyDerivationPathLength ← parseKeyDerivationPath cdata
  let cdata := cdata.advance keyDerivationPathLength
  cxSha256Init
  let headerLength ← hashAccountTransactionHeaderAndKind sdk cdata configureDelegation
  let cdata := cdata.advance headerLength
  updateHash cdata 2
  let bitmap := cdata.u2be 0
  let cdata := cdata.advance 2
  let hasCapital := decide (bitmap &&& 1 ≠ 0)
  let hasRestakeEarnings := decide (bitmap >>> 1 &&& 1 ≠ 0)
  let hasDelegationTarget := decide (bitmap >>> 2 &&& 1 ≠ 0)
  Fw.modifyCtx fun c => { c with hasCapital, hasRestakeEarnings, hasDelegationTarget }
  Fw.throwIf (hasCapital = false ∧ hasRestakeEarnings = false ∧ hasDelegationTarget = false)
    .invalidTransaction
  let capital ← readCapital cdata
  let cdata := cdata.advance capital
  let restake ← readRestake cdata
  let cdata := cdata.advance restake
  let target ← readDelegationTarget cdata
  -- `expectedDataLength` is an 8-bit number
  Fw.throwIf (dataLength ≠
    .ofNat (keyDerivationPathLength + headerLength + 2 + capital + restake + target))
    .invalidTransaction
  startDisplay
  waitForButton

end ConcordiumLedger
