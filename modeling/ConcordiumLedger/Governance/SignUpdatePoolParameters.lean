import ConcordiumLedger.Governance.UpdateHeader

/-!
# Governance.SignUpdatePoolParameters

The update of the pool parameters (`signUpdatePoolParameters.c`): the commission rates of passive
delegation, the ranges of the commission rates, and the bounds on capital.
-/

namespace ConcordiumLedger

open CMem CProg

namespace SignUpdatePoolParameters

inductive State where
  | initial
  | ranges
  | equity
  /-- Any other value: the union may hold bytes of another instruction. -/
  | stale
deriving DecidableEq, Inhabited

/-- `signUpdatePoolParametersContext_t`. The passive rates are in unions with the upper ends of the
ranges; each union is one array here. So are the 26 bytes of `minimumEquityCapital` and the 8 of
`capitalBound`: the text of an amount may run on from the one into the other. -/
structure Context where
  finalizationRewardCommissionRateMax : Buffer 8
  bakingRewardCommissionRateMax : Buffer 8
  transactionFeeCommissionRateMax : Buffer 8
  finalizationRewardCommissionRateMin : Buffer 8
  bakingRewardCommissionRateMin : Buffer 8
  transactionFeeCommissionRateMin : Buffer 8
  capitals : Buffer 34
  leverageBound : Buffer 44
  updateTypeText : Buffer 32
  state : State
deriving DecidableEq, Inhabited

def offCapitalBound : Nat := 26

/-- The string at `minimumEquityCapital` does not end with that array. -/
def Context.minimumEquityCapital (c : Context) : List UInt8 := c.capitals.bytes

def Context.capitalBound (c : Context) : Buffer 8 := c.capitals.part offCapitalBound 8

def p1Initial : UInt8 := 0x00
def p1CommissionRanges : UInt8 := 0x01
def p1Equity : UInt8 := 0x02

def uxSignPoolParametersInitial (c : Context) : List Step :=
  [ uxSignFlowSharedReview,
    uxUpdateType c.updateTypeText,
    { title := "P.D. finalize reward", text := c.finalizationRewardCommissionRateMax.bytes },
    { title := "P.D. baking reward", text := c.bakingRewardCommissionRateMax.bytes },
    { title := "P.D. transaction fee", text := c.transactionFeeCommissionRateMax.bytes,
      callback := .sendSuccessNoIdle } ]

def uxSignPoolParametersCommissionRanges (c : Context) : List Step :=
  [ { title := "Min finalize reward", text := c.finalizationRewardCommissionRateMin.bytes },
    { title := "Max finalize reward", text := c.finalizationRewardCommissionRateMax.bytes },
    { title := "Min baking reward", text := c.bakingRewardCommissionRateMin.bytes },
    { title := "Max baking reward", text := c.bakingRewardCommissionRateMax.bytes },
    { title := "Min transaction fee", text := c.transactionFeeCommissionRateMin.bytes },
    { title := "Max transaction fee", text := c.transactionFeeCommissionRateMax.bytes,
      callback := .sendSuccessNoIdle } ]

def uxSignPoolParametersCommissionFinal (c : Context) : List Step :=
  [ { title := "Min equity capital", text := c.minimumEquityCapital },
    { title := "Capital bound", text := c.capitalBound.bytes },
    { title := "Leverage bound", text := c.leverageBound.bytes } ] ++ uxSignAndDecline

def setState (state : State) : Fw Context PUnit := Fw.modifyCtx fun c => { c with state }

/-- Returns the array with the text of the rate. -/
def parseCommissionRate (cdata : Ptr) (display : Buffer 8) : Fw Context (Buffer 8) := do
  let text ← Fw.eval (fractionToPercentageDisplay 8 (cdata.u4be 0))
  updateHash cdata 4
  return display.memmove 0 text

def handleInitial (cdata : Ptr) : Fw Context PUnit := do
  let read ← readUpdateHeader cdata UpdateType.poolParameters
  let cdata := cdata.advance read
  Fw.modifyCtx fun c => { c with updateTypeText := updateTypeText UpdateType.poolParameters }
  let ctx ← Fw.getCtx
  let rate ← parseCommissionRate cdata ctx.finalizationRewardCommissionRateMax
  Fw.modifyCtx fun c => { c with finalizationRewardCommissionRateMax := rate }
  let rate ← parseCommissionRate (cdata.advance 4) ctx.bakingRewardCommissionRateMax
  Fw.modifyCtx fun c => { c with bakingRewardCommissionRateMax := rate }
  let rate ← parseCommissionRate (cdata.advance 8) ctx.transactionFeeCommissionRateMax
  Fw.modifyCtx fun c => { c with transactionFeeCommissionRateMax := rate }
  setState .ranges
  uxFlowInit fun d => uxSignPoolParametersInitial d.ctx
  waitForButton

def handleCommissionRanges (cdata : Ptr) : Fw Context PUnit := do
  let ctx ← Fw.getCtx
  let rate ← parseCommissionRate cdata ctx.finalizationRewardCommissionRateMin
  Fw.modifyCtx fun c => { c with finalizationRewardCommissionRateMin := rate }
  let rate ← parseCommissionRate (cdata.advance 4) ctx.finalizationRewardCommissionRateMax
  Fw.modifyCtx fun c => { c with finalizationRewardCommissionRateMax := rate }
  let rate ← parseCommissionRate (cdata.advance 8) ctx.bakingRewardCommissionRateMin
  Fw.modifyCtx fun c => { c with bakingRewardCommissionRateMin := rate }
  let rate ← parseCommissionRate (cdata.advance 12) ctx.bakingRewardCommissionRateMax
  Fw.modifyCtx fun c => { c with bakingRewardCommissionRateMax := rate }
  let rate ← parseCommissionRate (cdata.advance 16) ctx.transactionFeeCommissionRateMin
  Fw.modifyCtx fun c => { c with transactionFeeCommissionRateMin := rate }
  let rate ← parseCommissionRate (cdata.advance 20) ctx.transactionFeeCommissionRateMax
  Fw.modifyCtx fun c => { c with transactionFeeCommissionRateMax := rate }
  setState .equity
  uxFlowInit fun d => uxSignPoolParametersCommissionRanges d.ctx
  waitForButton

/-- The leverage bound is formatted here as `hashAndLoadU64Ratio` does it. -/
def handleEquity (cdata : Ptr) : Fw Context PUnit := do
  let text ← Fw.eval (amountToGtuDisplay 26 (cdata.u8be 0))
  Fw.modifyCtx fun c => { c with capitals := c.capitals.memmove 0 text }
  updateHash cdata 8
  let cdata := cdata.advance 8
  let ctx ← Fw.getCtx
  let rate ← parseCommissionRate cdata ctx.capitalBound
  Fw.modifyCtx fun c => { c with capitals := c.capitals.memmove offCapitalBound rate.bytes }
  let cdata := cdata.advance 4
  let leverageBoundNumerator := cdata.u8be 0
  updateHash cdata 8
  let cdata := cdata.advance 8
  let leverageBoundDenominator := cdata.u8be 0
  updateHash cdata 8
  let ctx ← Fw.getCtx
  let leverageBound ←
    Fw.eval (u64RatioText leverageBoundNumerator leverageBoundDenominator ctx.leverageBound)
  Fw.modifyCtx fun c => { c with leverageBound }
  uxFlowInit fun d => uxSignPoolParametersCommissionFinal d.ctx
  waitForButton

end SignUpdatePoolParameters

open SignUpdatePoolParameters in
def handleSignUpdatePoolParameters (cdata : Ptr) (p1 : UInt8) (isInitialCall : Bool) :
    Fw Context PUnit := do
  Fw.when isInitialCall (setState .initial)
  let ctx ← Fw.getCtx
  if p1 = p1Initial ∧ ctx.state = .initial then handleInitial cdata
  else if p1 = p1CommissionRanges ∧ ctx.state = .ranges then handleCommissionRanges cdata
  else if p1 = p1Equity ∧ ctx.state = .equity then handleEquity cdata
  else Fw.throw .invalidState

end ConcordiumLedger
