import ConcordiumLedger.Common.NumberHelpers
import ConcordiumLedger.Lib.Stores

/-!
# Common.NumberStores

The functions of `numberHelpers.c` once more, with every store they make and the counts they return.
`NumberHelpers` says which text such a function writes; here is where it writes it, also when there
is no room for it. A `size_t` has 32 bits, and an `int` that is added to one is taken as one.
-/

namespace ConcordiumLedger

open CMem CProg

namespace Stored

/-- The `int` with the bits of a `size_t`. -/
def toInt (n : UInt32) : Int := n.toInt32.toInt

/-- The loop of `numberToText`, with `i` digits still to be written. -/
def digitLoop (dst : Int) : Nat → UInt64 → Storing Error PUnit
  | 0, _ => pure ⟨⟩
  | i + 1, number => do
    store (dst + i) (.ofNat (number.toNat % 10 + 48))
    digitLoop dst i (number / 10)

def numberToText (dst : Int) (dstLength : UInt32) (number : UInt64) : Storing Error UInt32 := do
  let len : UInt32 := .ofNat (lengthOfNumber number)
  if dstLength < len then Prog.throw .bufferOverflow
  else do
    digitLoop dst len.toNat number
    return len

def decimalDigitsDisplay (dst : Int) (dstLength : UInt32) (decimalPart : UInt64)
    (decimalDigitsLength : UInt8) : Storing Error UInt32 := do
  let length : UInt32 := .ofNat (lengthOfNumber decimalPart)
  let zeroFillLength := decimalDigitsLength.toUInt32 - length
  -- `dstLength - zeroFillLength < 0` compares unsigned values and never holds
  storeAll dst (List.replicate (toInt zeroFillLength).toNat 48)
  let decimalPart : UInt64 := .ofNat (stripZeroes length.toNat decimalPart.toNat)
  let written ← numberToText (dst + toInt zeroFillLength) (dstLength - zeroFillLength) decimalPart
  return written + zeroFillLength

/-- The loop that writes the whole part. The first number is `i + 1`. -/
def wholePartLoop (dst : Int) : Nat → UInt64 → Nat → Storing Error PUnit
  | 0, _, _ => pure ⟨⟩
  | 1, wholePart, _ => store dst (.ofNat (wholePart.toNat % 10 + 48))
  | i + 2, wholePart, current => do
    store (dst + (i + 1)) (.ofNat (wholePart.toNat % 10 + 48))
    if current + 1 = 3 then do
      store (dst + i) 44
      wholePartLoop dst i (wholePart / 10) 0
    else wholePartLoop dst (i + 1) (wholePart / 10) (current + 1)

def decimalNumberToDisplay (dst : Int) (dstLength : UInt32) (amount : UInt64) (resolution : UInt32)
    (decimalDigitsLength : UInt8) : Storing Error UInt32 := do
  if dstLength < 2 then Prog.throw .bufferOverflow
  else if amount = 0 then do
    store dst 48
    return 1
  else if amount < resolution.toUInt64 then do
    storeAll dst [48, 46]
    let written ← decimalDigitsDisplay (dst + 2) (dstLength - 3) amount decimalDigitsLength
    return written + 2
  else do
    let wholeNumberLength : UInt32 := .ofNat (lengthOfNumber amount) - decimalDigitsLength.toUInt32
    let separatorCount :=
      if wholeNumberLength % 3 = 0 then wholeNumberLength / 3 - 1 else wholeNumberLength / 3
    if dstLength < wholeNumberLength + separatorCount + 1 then Prog.throw .bufferOverflow
    else do
      wholePartLoop dst (toInt (wholeNumberLength - 1 + separatorCount) + 1).toNat
        (amount / resolution.toUInt64) 0
      let offset := wholeNumberLength + separatorCount
      let decimalPart := amount % resolution.toUInt64
      let offset ←
        if decimalPart ≠ 0 then do
          store (dst + offset.toNat) 46
          let offset := offset + 1
          let written ← decimalDigitsDisplay (dst + offset.toNat) (dstLength - offset) decimalPart
            decimalDigitsLength
          pure (offset + written)
        else pure offset
      if dstLength < offset + 1 then Prog.throw .bufferOverflow
      else return offset

def fractionToPercentageDisplay (dst : Int) (dstLength : UInt32) (number : UInt32) :
    Storing Error UInt32 := do
  if number > 100000 then Prog.throw .invalidTransaction
  else do
    let offset ← decimalNumberToDisplay dst dstLength number.toUInt64 1000 3
    store (dst + offset.toNat) 37
    store (dst + (offset + 1).toNat) 0
    return offset + 2

def amountToGtuDisplay (dst : Int) (dstLength : UInt32) (microGtuAmount : UInt64) :
    Storing Error UInt32 := do
  storeAll dst (ascii "CCD ")
  let written ← decimalNumberToDisplay (dst + 4) dstLength microGtuAmount 1000000 6
  let offset := written + 4
  store (dst + offset.toNat) 0
  return offset + 1

/-- The loop of `toPaginatedHex`, with the given number of rounds to go. -/
def hexLoop (byteArray : Ptr) (len : UInt64) : Nat → UInt64 → UInt8 → Storing Error UInt8
  | 0, _, offset => pure offset
  | rounds + 1, i, offset => do
    let b := byteArray i.toNat
    store (2 * i + offset.toUInt64).toNat (hexDigit (b >>> 4 &&& 0x0F))
    store (2 * i + (offset.toUInt64 + 1)).toNat (hexDigit (b &&& 0x0F))
    if 2 * (i + 1) % 16 = 0 ∧ i ≠ len - 1 then do
      store (2 * i + (offset.toUInt64 + 2)).toNat 32
      hexLoop byteArray len rounds (i + 1) (offset + 1)
    else hexLoop byteArray len rounds (i + 1) offset

def toPaginatedHex (byteArray : Ptr) (len : UInt64) (asHexSize : UInt32) : Storing Error PUnit := do
  if asHexSize.toUInt64 < len * 2 + len / 16 + 1 then Prog.throw .bufferOverflow
  else do
    let offset ← hexLoop byteArray len len.toNat 0 0
    store (2 * len + offset.toUInt64).toNat 0

end Stored

end ConcordiumLedger
