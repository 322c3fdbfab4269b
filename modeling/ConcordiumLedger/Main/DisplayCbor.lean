import ConcordiumLedger.Common.Util

/-!
# Main.DisplayCbor

Memos and registered data (`displayCbor.c`): a CBOR item of major type 0, 1 or 3 that arrives in
one or two commands and is written to `display` as text.

`WithDataBlob γ` is the struct `transactionWithDataBlob_t` with one of the inner contexts. The
memo phases of the three instructions with a memo differ in the state they go to and in how they
finish, which `memoInitial` and `memoContent` take as parameters.
-/

namespace ConcordiumLedger

open CMem CProg

structure CborContext where
  cborLength : UInt32
  displayUsed : UInt32
  display : Buffer 255
  majorType : UInt8
deriving DecidableEq, Inhabited

structure WithDataBlob (γ : Type) where
  inner : γ
  cborContext : CborContext
deriving DecidableEq, Inhabited

/-- `MAX_MEMO_SIZE`, which is also `MAX_DATA_SIZE`. -/
def maxMemoSize : UInt32 := 256

variable {γ : Type}

/-- Runs a function on the CBOR context. -/
def Fw.onCbor {α : Type} (x : Fw CborContext α) : Fw (WithDataBlob γ) α :=
  Prog.zoom (fun d => ⟨d.ctx.cborContext, d.shared⟩)
    (fun t d => ⟨{ d.ctx with cborContext := t.ctx }, t.shared⟩) x

def uxDisplayMemoStepNocb (c : CborContext) : Step := { title := "Memo", text := c.display.bytes }

/-- The number of bytes after the header that encode the length, and the length. -/
def cborSize (shortCount : UInt8) (cdata : Ptr) : Except Error (UInt8 × UInt64) :=
  if shortCount < 24 then .ok (0, shortCount.toUInt64)
  else if shortCount = 24 then .ok (1, (cdata 0).toUInt64)
  else if shortCount = 25 then .ok (2, (cdata.u2be 0).toUInt64)
  else if shortCount = 26 then .ok (4, (cdata.u4be 0).toUInt64)
  else if shortCount = 27 then .ok (8, cdata.u8be 0)
  else if shortCount = 31 then .error .unsupportedCbor
  else .error .invalidParam

def readCborContent (cdata : Ptr) (contentLength : UInt8) : Fw CborContext PUnit := do
  Fw.modifyCtx fun c => { c with cborLength := c.cborLength - contentLength.toUInt32 }
  let ctx ← Fw.getCtx
  if ctx.majorType = 3 then
    Fw.modifyCtx fun c => { c with
      display := c.display.memmove c.displayUsed.toNat (cdata.slice contentLength.toNat)
      displayUsed := c.displayUsed + contentLength.toUInt32 }
  else if ctx.majorType = 0 ∨ ctx.majorType = 1 then Fw.throw .unsupportedCbor
  else Fw.throw .invalidState

/-- Writes a number to the display from position `off` on. -/
def displayNumber (off : Nat) (number : UInt64) : Fw CborContext PUnit := do
  let text ← Fw.eval (bin2dec (255 - off) number)
  Fw.modifyCtx fun c => { c with display := c.display.memmove off text }

def displayNegative (length : UInt64) : Fw CborContext PUnit := do
  Fw.modifyCtx fun c => { c with display := c.display.memmove 0 (ascii "-") }
  if length = 0xFFFFFFFFFFFFFFFF then do
    displayNumber 1 length
    Fw.modifyCtx fun c => { c with display := c.display.memmove (1 + 20) (ascii " - 1") }
  else displayNumber 1 (1 + length)

def readCborInitial (cdata : Ptr) (dataLength : UInt8) : Fw CborContext PUnit := do
  let header := cdata 0
  let cdata := cdata.advance 1
  Fw.modifyCtx fun c => { c with
    cborLength := c.cborLength - 1
    majorType := header >>> 5
    displayUsed := 0 }
  let (sizeLength, length) ← Fw.eval (cborSize (header &&& 0x1F) cdata)
  let cdata := cdata.advance sizeLength.toNat
  Fw.modifyCtx fun c => { c with cborLength := c.cborLength - sizeLength.toUInt32 }
  let ctx ← Fw.getCtx
  if ctx.majorType = 0 then do
    displayNumber 0 length
    Fw.throwIf (ctx.cborLength ≠ 0) .invalidState
  else if ctx.majorType = 1 then do
    displayNegative length
    Fw.throwIf (ctx.cborLength ≠ 0) .invalidState
  else if ctx.majorType = 3 then do
    Fw.throwIf (ctx.cborLength.toUInt64 ≠ length) .invalidState
    readCborContent cdata (dataLength - 1 - sizeLength)
  else Fw.throw .unsupportedCbor

/-! ## The memo phases -/

/-- The end of the initial command of an instruction with a memo. -/
def memoLength (cdata : Ptr) : Fw (WithDataBlob γ) PUnit := do
  Fw.onCbor (Fw.modifyCtx fun c => { c with cborLength := (cdata.u2be 0).toUInt32 })
  Fw.throwIf ((cdata.u2be 0).toUInt32 > maxMemoSize) .invalidParam
  updateHash cdata 2

/-- The first memo command: `finish` if the memo is complete, `more` if it is not. -/
def memoInitial (cdata : Ptr) (dataLength : UInt8) (finish more : Fw (WithDataBlob γ) PUnit) :
    Fw (WithDataBlob γ) PUnit := do
  updateHash cdata dataLength.toNat
  Fw.onCbor (readCborInitial cdata dataLength)
  let ctx ← Fw.getCtx
  if ctx.cborContext.cborLength = 0 then finish else more

/-- The second memo command, which has to complete the memo. -/
def memoContent (cdata : Ptr) (dataLength : UInt8) (finish : Fw (WithDataBlob γ) PUnit) :
    Fw (WithDataBlob γ) PUnit := do
  updateHash cdata dataLength.toNat
  Fw.onCbor (readCborContent cdata dataLength)
  let ctx ← Fw.getCtx
  Fw.throwIf (ctx.cborContext.cborLength ≠ 0) .invalidState
  finish

end ConcordiumLedger
