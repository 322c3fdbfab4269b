import ConcordiumLedger.Common.Util

/-!
# Main.SignConfigureBaker

Configuration of a baker (`signConfigureBaker.c`). A bitmap announces which optional fields follow;
the fields arrive in up to six kinds of packets and are shown on up to three dynamically built
screens.

The three blobs with display texts share their memory. The union is an array of bytes here, in which
each member has its offset, so that a text may be found behind what another blob has left there.
-/

namespace ConcordiumLedger

open CMem CProg

namespace SignConfigureBaker

inductive State where
  | first
  | aggregationKey
  | urlLength
  | url
  | commissionRates
  | finished
  /-- Any other value: nothing sets the state before the initial packet is read. -/
  | stale
deriving DecidableEq, Inhabited

/-- `configureBakerCapitalRestakeOpenForDelegationBlob_t` -/
structure CapitalRestakeDelegation where
  stopBaking : Bool
  displayCapital : Buffer 30
  displayRestake : Buffer 4
  displayOpenForDelegation : Buffer 15
deriving DecidableEq, Inhabited

/-- `configureBakerUrl_t` -/
structure Url where
  urlLength : UInt16
  urlDisplay : Buffer 256
deriving DecidableEq, Inhabited

/-- `configureBakerCommisionRates_t` -/
structure CommissionRates where
  transactionFeeCommissionRate : Buffer 8
  bakingRewardCommissionRate : Buffer 8
  finalizationRewardCommissionRate : Buffer 8
deriving DecidableEq, Inhabited

/-- The optional fields that the bitmap announces. -/
structure Fields where
  hasCapital : Bool
  hasRestakeEarnings : Bool
  hasOpenForDelegation : Bool
  hasKeys : Bool
  hasMetadataUrl : Bool
  hasTransactionFeeCommission : Bool
  hasBakingRewardCommission : Bool
  hasFinalizationRewardCommission : Bool
deriving DecidableEq, Inhabited

/-- `signConfigureBaker_t` -/
structure Context where
  fields : Fields
  firstDisplay : Bool
  /-- The union of the three blobs. -/
  blob : Buffer 258
  state : State
deriving DecidableEq, Inhabited

/-! ## The union -/

/-- Where the members of the blobs begin. -/
def offStopBaking : Nat := 0
def offDisplayCapital : Nat := 1
def offDisplayRestake : Nat := 31
def offDisplayOpenForDelegation : Nat := 35
def offUrlLength : Nat := 0
def offUrlDisplay : Nat := 2
def offTransactionFeeCommissionRate : Nat := 0
def offBakingRewardCommissionRate : Nat := 8
def offFinalizationRewardCommissionRate : Nat := 16

namespace Context

def capitalRestakeDelegation (c : Context) : CapitalRestakeDelegation where
  stopBaking := c.blob.ptr offStopBaking ≠ 0
  displayCapital := c.blob.part offDisplayCapital 30
  displayRestake := c.blob.part offDisplayRestake 4
  displayOpenForDelegation := c.blob.part offDisplayOpenForDelegation 15

/-- The length is stored with its low byte first. -/
def url (c : Context) : Url where
  urlLength := .ofNat ((c.blob.ptr offUrlLength).toNat + 256 * (c.blob.ptr (offUrlLength + 1)).toNat)
  urlDisplay := c.blob.part offUrlDisplay 256

def commissionRates (c : Context) : CommissionRates where
  transactionFeeCommissionRate := c.blob.part offTransactionFeeCommissionRate 8
  bakingRewardCommissionRate := c.blob.part offBakingRewardCommissionRate 8
  finalizationRewardCommissionRate := c.blob.part offFinalizationRewardCommissionRate 8

/-- Writes bytes to the union. -/
def write (off : Nat) (bs : List UInt8) (c : Context) : Context :=
  { c with blob := c.blob.memmove off bs }

def setUrlLength (n : UInt16) : Context → Context :=
  write offUrlLength [.ofNat (n.toNat % 256), .ofNat (n.toNat / 256)]

section Write

variable (off : Nat) (bs : List UInt8) (c : Context)

@[simp] theorem write_fields : (c.write off bs).fields = c.fields := rfl

@[simp] theorem write_firstDisplay : (c.write off bs).firstDisplay = c.firstDisplay := rfl

@[simp] theorem write_state : (c.write off bs).state = c.state := rfl

theorem write_urlLength (h : 2 ≤ off) : (c.write off bs).url.urlLength = c.url.urlLength := by
  have hbyte {i : Nat} (hi : i < 2) : (c.blob.memmove off bs).ptr i = c.blob.ptr i := by
    simp only [Buffer.ptr, Ptr.ofBytes, List.getD_eq_getElem?_getD,
      Buffer.getElem?_memmove_of_lt c.blob bs (show i < off by omega)]
  simp only [write, url, hbyte (show offUrlLength < 2 by decide),
    hbyte (show offUrlLength + 1 < 2 by decide)]

@[simp] theorem setUrlLength_urlLength (n : UInt16) : (c.setUrlLength n).url.urlLength = n := by
  have hn := n.toNat_lt
  have h (i : Nat) (hi : i < 2) : (c.setUrlLength n).blob.ptr i =
      [UInt8.ofNat (n.toNat % 256), .ofNat (n.toNat / 256)].getD i 0 :=
    Buffer.ptr_memmove c.blob _ (by simp) i hi
  apply UInt16.toNat_inj.mp
  rw [url, h offUrlLength (by decide), h (offUrlLength + 1) (by decide), UInt16.toNat_ofNat']
  show ((UInt8.ofNat (n.toNat % 256)).toNat + 256 * (UInt8.ofNat (n.toNat / 256)).toNat) % 2 ^ 16 = _
  rw [UInt8.toNat_ofNat', UInt8.toNat_ofNat']
  omega

/-- What is written to the URL is displayed, in front of what was there behind it. -/
theorem write_urlDisplay :
    (c.write offUrlDisplay bs).url.urlDisplay = c.url.urlDisplay.memmove 0 bs :=
  Buffer.part_memmove c.blob bs (show offUrlDisplay + 256 ≤ 258 by decide)

/-- The length and the text of the URL do not overlap. -/
@[simp] theorem setUrlLength_urlDisplay (n : UInt16) :
    (c.setUrlLength n).url.urlDisplay = c.url.urlDisplay := by
  have hbytes : (c.setUrlLength n).blob.bytes =
      [UInt8.ofNat (n.toNat % 256), .ofNat (n.toNat / 256)] ++ c.blob.bytes.drop 2 :=
    Buffer.memmove_bytes c.blob _ (by simp)
  apply Buffer.ext
  show ((c.setUrlLength n).blob.bytes.drop 2).take 256 = (c.blob.bytes.drop 2).take 256
  rw [hbytes]
  rfl

/-- The last page of the URL is terminated. -/
theorem prefix_lastPage (h : bs.length ≤ 255) :
    bs ++ [0] <+:
      ((c.write offUrlDisplay bs).write (offUrlDisplay + bs.length) [0]).url.urlDisplay.bytes := by
  have hfront : (c.blob.bytes.take offUrlDisplay).length = offUrlDisplay := by
    rw [List.length_take, c.blob.length_eq]
    rfl
  have hpage := Buffer.append_prefix_memmove (b := c.blob) (t := bs)
    (List.take_prefix offUrlDisplay c.blob.bytes)
    (by rw [List.length_append, hfront, offUrlDisplay]; omega)
  rw [hfront] at hpage
  have hend := Buffer.append_prefix_memmove hpage (t := [0])
    (by rw [List.length_append, List.length_append, hfront, offUrlDisplay]; simp; omega)
  rw [List.length_append, hfront, List.append_assoc] at hend
  have hpart := Buffer.prefix_part (m := 256) (by rw [hfront]; decide) hend (by simp; omega)
  simp only [hfront] at hpart
  exact hpart

end Write

end Context

/-- `CONFIGURE_BAKER` -/
def configureBaker : UInt8 := 25

def p1Initial : UInt8 := 0x00
def p1FirstBatch : UInt8 := 0x01
def p1AggregationKey : UInt8 := 0x02
def p1UrlLength : UInt8 := 0x03
def p1Url : UInt8 := 0x04
def p1CommissionRates : UInt8 := 0x05

/-- The lengths of `ux_sign_configure_baker_first`, `_url` and `_commission`. A flow and the end
marker after it are written to them. -/
def firstLength : Nat := 8
def urlLength : Nat := 6
def commissionLength : Nat := 9

def Fields.ofBitmap (bitmap : UInt16) : Fields where
  hasCapital := (bitmap >>> 0) &&& 1 ≠ 0
  hasRestakeEarnings := (bitmap >>> 1) &&& 1 ≠ 0
  hasOpenForDelegation := (bitmap >>> 2) &&& 1 ≠ 0
  hasKeys := (bitmap >>> 3) &&& 1 ≠ 0
  hasMetadataUrl := (bitmap >>> 4) &&& 1 ≠ 0
  hasTransactionFeeCommission := (bitmap >>> 5) &&& 1 ≠ 0
  hasBakingRewardCommission := (bitmap >>> 6) &&& 1 ≠ 0
  hasFinalizationRewardCommission := (bitmap >>> 7) &&& 1 ≠ 0

def Fields.hasCommissionRate (f : Fields) : Bool :=
  f.hasTransactionFeeCommission || f.hasBakingRewardCommission ||
    f.hasFinalizationRewardCommission

/-! ## Screens -/

def uxContinue : Step :=
  { title := "Continue", text := literal "with transaction", callback := .sendSuccessNoIdle }

/-- A step that is only there when its field is. -/
def optionalStep (present : Bool) (st : Step) : List Step := if present then [st] else []

/-- The screens that begin the review, on the first display only. -/
def reviewSteps (firstDisplay : Bool) (s : Shared) : List Step :=
  if firstDisplay then [uxSignFlowSharedReview, uxSignFlowAccountSenderView s] else []

/-- The end of a screen: on to the next packet, or to the signature. -/
def closingSteps (more : Bool) : List Step :=
  if more then [uxContinue] else [uxSignFlowSharedSign, uxSignFlowSharedDecline]

def uxSignConfigureBakerFirst (d : Device Context) : List Step :=
  let c := d.ctx
  reviewSteps true d.shared ++
  optionalStep c.fields.hasCapital
    (if c.capitalRestakeDelegation.stopBaking then { title := "Stop", text := literal "baking" }
     else
      { title := "Amount to stake", text := c.capitalRestakeDelegation.displayCapital.bytes }) ++
  optionalStep c.fields.hasRestakeEarnings
    { title := "Restake earnings", text := c.capitalRestakeDelegation.displayRestake.bytes } ++
  optionalStep c.fields.hasOpenForDelegation
    { title := "Pool status", text := c.capitalRestakeDelegation.displayOpenForDelegation.bytes } ++
  optionalStep c.fields.hasKeys { title := "Update baker", text := literal "keys" } ++
  closingSteps (c.fields.hasMetadataUrl || c.fields.hasCommissionRate)

def uxSignConfigureBakerUrl (lastUrlPage : Bool) (d : Device Context) : List Step :=
  let c := d.ctx
  reviewSteps c.firstDisplay d.shared ++
  if lastUrlPage then
    (if c.url.urlLength = 0 then { title := "Empty URL", text := literal "" }
     else { title := "URL", text := c.url.urlDisplay.bytes }) ::
      closingSteps c.fields.hasCommissionRate
  else
    [{ title := "URL", text := c.url.urlDisplay.bytes, callback := .sendSuccessNoIdle }]

def uxSignConfigureBakerCommission (d : Device Context) : List Step :=
  let c := d.ctx
  reviewSteps c.firstDisplay d.shared ++
  optionalStep c.fields.hasCommissionRate
    { title := "Commission", text := literal "rates" } ++
  optionalStep c.fields.hasTransactionFeeCommission
    { title := "Transaction fee", text := c.commissionRates.transactionFeeCommissionRate.bytes } ++
  optionalStep c.fields.hasBakingRewardCommission
    { title := "Baking reward", text := c.commissionRates.bakingRewardCommissionRate.bytes } ++
  optionalStep c.fields.hasFinalizationRewardCommission
    { title := "Finalization reward",
      text := c.commissionRates.finalizationRewardCommissionRate.bytes } ++
  closingSteps false

def clearFirstDisplay : Fw Context PUnit := Fw.modifyCtx fun c => { c with firstDisplay := false }

def startConfigureBakerDisplay : Fw Context PUnit := do
  uxFlowInit uxSignConfigureBakerFirst
  clearFirstDisplay

def startConfigureBakerUrlDisplay (lastUrlPage : Bool) : Fw Context PUnit := do
  uxFlowInit (uxSignConfigureBakerUrl lastUrlPage)
  clearFirstDisplay

def startConfigureBakerCommissionDisplay : Fw Context PUnit := do
  uxFlowInit uxSignConfigureBakerCommission
  clearFirstDisplay

/-! ## Packets -/

def setState (state : State) : Fw Context PUnit := Fw.modifyCtx fun c => { c with state }

/-- The state after the first screen: the next packet that the bitmap announces. -/
def Fields.afterFirst (f : Fields) : State :=
  if f.hasMetadataUrl then .urlLength
  else if f.hasCommissionRate then .commissionRates
  else .finished

/-- The state after the URL. -/
def Fields.afterUrl (f : Fields) : State :=
  if f.hasCommissionRate then .commissionRates else .finished

/-- The state after the initial packet. When the bitmap announces none of the eight fields, the
state stays as it was. -/
def Fields.afterInitial (f : Fields) (state : State) : State :=
  if f.hasCapital || f.hasRestakeEarnings || f.hasOpenForDelegation || f.hasKeys then .first
  else if f.hasMetadataUrl then .urlLength
  else if f.hasCommissionRate then .commissionRates
  else state

def handleInitial (sdk : Sdk) (cdata : Ptr) : Fw Context PUnit := do
  let read ← parseKeyDerivationPath cdata
  let cdata := cdata.advance read
  cxSha256Init
  let read ← hashAccountTransactionHeaderAndKind sdk cdata configureBaker
  let cdata := cdata.advance read
  Fw.modifyCtx fun c => { c with firstDisplay := true }
  updateHash cdata 2
  let bitmap := cdata.u2be 0
  Fw.throwIf (bitmap = 0 ∨ bitmap > 1023) .invalidTransaction
  let fields := Fields.ofBitmap bitmap
  Fw.modifyCtx fun c => { c with fields, state := fields.afterInitial c.state }
  sendSuccessNoIdle

/-- The capital; returns the rest of the packet and how much of it was read. -/
def readCapital (cdata : Ptr) : Fw Context Nat := do
  let ctx ← Fw.getCtx
  if ctx.fields.hasCapital then do
    (if cdata.u8be 0 = 0 then
      Fw.modifyCtx (Context.write offStopBaking [1])
    else do
      Fw.modifyCtx (Context.write offStopBaking [0])
      let text ← Fw.eval (amountToGtuDisplay 30 (cdata.u8be 0))
      Fw.modifyCtx (Context.write offDisplayCapital text) : Fw Context PUnit)
    updateHash cdata 8
    return 8
  else return 0

def readRestake (cdata : Ptr) : Fw Context Nat := do
  let ctx ← Fw.getCtx
  if ctx.fields.hasRestakeEarnings then do
    updateHash cdata 1
    Fw.throwIf (cdata 0 ≠ 0 ∧ cdata 0 ≠ 1) .invalidTransaction
    Fw.modifyCtx (Context.write offDisplayRestake
      (if cdata 0 = 0 then literal "No" else literal "Yes"))
    return 1
  else return 0

def openStatusText (openForDelegation : UInt8) : Option (List UInt8) :=
  if openForDelegation = 0 then some (literal "Open for all")
  else if openForDelegation = 1 then some (literal "Closed for new")
  else if openForDelegation = 2 then some (literal "Closed for all")
  else none

def readOpenForDelegation (cdata : Ptr) : Fw Context Nat := do
  let ctx ← Fw.getCtx
  if ctx.fields.hasOpenForDelegation then do
    updateHash cdata 1
    match openStatusText (cdata 0) with
    | none => Fw.throw .invalidTransaction
    | some text => do
      Fw.modifyCtx (Context.write offDisplayOpenForDelegation text)
      return 1
  else return 0

/-- The verification keys and their proofs, which are not displayed. The display waits for the
aggregation key. -/
def readKeys (cdata : Ptr) (lengthCheck : Int) : Fw Context PUnit := do
  Fw.throwIf (lengthCheck ≠ 192) .invalidTransaction
  updateHash cdata 32
  updateHash (cdata.advance 32) 64
  updateHash (cdata.advance 96) 32
  updateHash (cdata.advance 128) 64
  setState .aggregationKey
  sendSuccessNoIdle

def handleFirstBatch (cdata : Ptr) (dataLength : UInt8) : Fw Context PUnit := do
  let capital ← readCapital cdata
  let cdata := cdata.advance capital
  let restake ← readRestake cdata
  let cdata := cdata.advance restake
  let openStatus ← readOpenForDelegation cdata
  let cdata := cdata.advance openStatus
  let lengthCheck : Int := dataLength.toNat - capital - restake - openStatus
  let ctx ← Fw.getCtx
  if ctx.fields.hasKeys then readKeys cdata lengthCheck
  else do
    Fw.throwIf (lengthCheck ≠ 0) .invalidTransaction
    setState ctx.fields.afterFirst
    startConfigureBakerDisplay
    waitForButton

def handleAggregationKey (cdata : Ptr) (dataLength : UInt8) : Fw Context PUnit := do
  let ctx ← Fw.getCtx
  Fw.throwIf (ctx.fields.hasKeys = false ∨ dataLength ≠ 160) .invalidTransaction
  updateHash cdata 96
  updateHash (cdata.advance 96) 64
  setState ctx.fields.afterFirst
  startConfigureBakerDisplay
  waitForButton

def handleUrlLength (cdata : Ptr) : Fw Context PUnit := do
  let ctx ← Fw.getCtx
  Fw.throwIf (ctx.fields.hasMetadataUrl = false) .invalidTransaction
  Fw.modifyCtx (Context.setUrlLength (cdata.u2be 0))
  Fw.throwIf (cdata.u2be 0 > 2048) .invalidTransaction
  updateHash cdata 2
  if cdata.u2be 0 = 0 then do
    setState ctx.fields.afterUrl
    startConfigureBakerUrlDisplay true
    waitForButton
  else do
    setState .url
    sendSuccessNoIdle

def handleUrl (cdata : Ptr) (dataLength : UInt8) : Fw Context PUnit := do
  let ctx ← Fw.getCtx
  if ctx.url.urlLength > dataLength.toUInt16 then do
    updateHash cdata dataLength.toNat
    Fw.modifyCtx (Context.setUrlLength (ctx.url.urlLength - dataLength.toUInt16))
    Fw.modifyCtx (Context.write offUrlDisplay (cdata.slice dataLength.toNat))
    startConfigureBakerUrlDisplay false
    waitForButton
  else if ctx.url.urlLength = dataLength.toUInt16 then do
    Fw.modifyCtx (Context.write offUrlDisplay (cdata.slice ctx.url.urlLength.toNat))
    Fw.modifyCtx (Context.write (offUrlDisplay + ctx.url.urlLength.toNat) [0])
    updateHash cdata ctx.url.urlLength.toNat
    setState ctx.fields.afterUrl
    startConfigureBakerUrlDisplay true
    waitForButton
  else Fw.throw .invalidTransaction

/-- One commission rate, if the bitmap announces it: its text is written to `off`. Returns how
much was read. -/
def readRate (present : Bool) (cdata : Ptr) (off : Nat) : Fw Context Nat :=
  if present then do
    let text ← Fw.eval (fractionToPercentageDisplay 8 (cdata.u4be 0))
    Fw.modifyCtx (Context.write off text)
    updateHash cdata 4
    return 4
  else return 0

/-- `dataLength` counts down as an 8-bit number. -/
def handleCommissionRates (cdata : Ptr) (dataLength : UInt8) : Fw Context PUnit := do
  let ctx ← Fw.getCtx
  let fee ← readRate ctx.fields.hasTransactionFeeCommission cdata offTransactionFeeCommissionRate
  let cdata := cdata.advance fee
  let baking ← readRate ctx.fields.hasBakingRewardCommission cdata offBakingRewardCommissionRate
  let cdata := cdata.advance baking
  let finalization ← readRate ctx.fields.hasFinalizationRewardCommission cdata
    offFinalizationRewardCommissionRate
  Fw.throwIf (dataLength - .ofNat (fee + baking + finalization) ≠ 0) .invalidTransaction
  startConfigureBakerCommissionDisplay

end SignConfigureBaker

open SignConfigureBaker in
def handleSignConfigureBaker (sdk : Sdk) (cdata : Ptr) (p1 dataLength : UInt8)
    (isInitialCall : Bool) : Fw Context PUnit := do
  let ctx ← Fw.getCtx
  if p1 = p1Initial ∧ isInitialCall then handleInitial sdk cdata
  else if p1 = p1FirstBatch ∧ ctx.state = .first then handleFirstBatch cdata dataLength
  else if p1 = p1AggregationKey ∧ ctx.state = .aggregationKey then
    handleAggregationKey cdata dataLength
  else if p1 = p1UrlLength ∧ ctx.state = .urlLength then handleUrlLength cdata
  else if p1 = p1Url ∧ ctx.state = .url then handleUrl cdata dataLength
  else if p1 = p1CommissionRates ∧ ctx.state = .commissionRates then do
    handleCommissionRates cdata dataLength
    waitForButton
  else Fw.throw .invalidState

end ConcordiumLedger
