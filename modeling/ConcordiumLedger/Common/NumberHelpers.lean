import ConcordiumLedger.Common.ResponseCodes
import ConcordiumLedger.Lib.Bytes

/-!
# Common.NumberHelpers

The text formatting of `numberHelpers.c`. A function that writes a text to `dst` is modelled by
the bytes it writes from `dst` on; `dstLength` is kept, since the functions compare with it. When
a function throws after it began to write, the bytes written are dropped here: the only such
error is `bufferOverflow`, which resets the device.

`toPaginatedHex` writes at computed positions of its array, so it is modelled on the array.
-/

namespace ConcordiumLedger

open CMem

/-- The difference of two 32-bit `size_t` values. -/
def subSize (a b : Nat) : Nat := (a + 2 ^ 32 - b) % 2 ^ 32

/-- The loop of `lengthOfNumber`; the first argument bounds the number of rounds. -/
def lengthLoop : Nat → Nat → Nat
  | 0, _ => 0
  | rounds + 1, nn => if nn = 0 then 0 else 1 + lengthLoop rounds (nn / 10)

/-- The number of decimal digits. A 64-bit number has at most 20 of them. -/
def lengthOfNumber (number : UInt64) : Nat :=
  if number = 0 then 1 else lengthLoop 20 number.toNat

/-- The last `len` decimal digits of a number. -/
def digitsText : Nat → Nat → List UInt8
  | 0, _ => []
  | len + 1, number => digitsText len (number / 10) ++ [.ofNat (number % 10 + 48)]

def numberToText (dstLength : Nat) (number : UInt64) : Except Error (List UInt8) :=
  let len := lengthOfNumber number
  if dstLength < len then .error .bufferOverflow
  else .ok (digitsText len number.toNat)

def bin2dec (dstLength : Nat) (number : UInt64) : Except Error (List UInt8) := do
  let text ← numberToText dstLength number
  if dstLength < text.length + 1 then .error .bufferOverflow
  else .ok (text ++ [0])

/-- Drops trailing zeroes, in at most the given number of rounds. -/
def stripZeroes : Nat → Nat → Nat
  | 0, decimalPart => decimalPart
  | rounds + 1, decimalPart =>
    if decimalPart % 10 ≠ 0 then decimalPart else stripZeroes rounds (decimalPart / 10)

def decimalDigitsDisplay (dstLength : Nat) (decimalPart : UInt64) (decimalDigitsLength : UInt8) :
    Except Error (List UInt8) := do
  let length := lengthOfNumber decimalPart
  let zeroFillLength := decimalDigitsLength.toNat - length
  -- `dstLength - zeroFillLength < 0` compares unsigned values and never holds
  let digits ← numberToText (subSize dstLength zeroFillLength)
    (.ofNat (stripZeroes length decimalPart.toNat))
  return List.replicate zeroFillLength 48 ++ digits

/-- The loop that writes the whole part backwards, with a comma before every third digit from
the right. The first argument is the number of characters still to be written. -/
def wholePartLoop : Nat → Nat → Nat → List UInt8 → List UInt8
  | 0, _, _, text => text
  | 1, wholePart, _, text => .ofNat (wholePart % 10 + 48) :: text
  | left + 2, wholePart, current, text =>
    let text := UInt8.ofNat (wholePart % 10 + 48) :: text
    if current + 1 = 3 then wholePartLoop left (wholePart / 10) 0 (44 :: text)
    else wholePartLoop (left + 1) (wholePart / 10) (current + 1) text

def decimalNumberToDisplay (dstLength : Nat) (amount : UInt64) (resolution : UInt32)
    (decimalDigitsLength : UInt8) : Except Error (List UInt8) := do
  if dstLength < 2 then .error .bufferOverflow
  else if amount = 0 then .ok [48]
  else if amount < resolution.toUInt64 then
    let decimals ← decimalDigitsDisplay (subSize dstLength 3) amount decimalDigitsLength
    return [48, 46] ++ decimals
  else
    let wholeNumberLength := lengthOfNumber amount - decimalDigitsLength.toNat
    let separatorCount :=
      if wholeNumberLength % 3 = 0 then wholeNumberLength / 3 - 1 else wholeNumberLength / 3
    if dstLength < wholeNumberLength + separatorCount + 1 then .error .bufferOverflow
    else
      let whole := wholePartLoop (wholeNumberLength + separatorCount)
        (amount / resolution.toUInt64).toNat 0 []
      let decimalPart := amount % resolution.toUInt64
      let text ←
        if decimalPart ≠ 0 then do
          let decimals ← decimalDigitsDisplay (subSize dstLength (whole.length + 1)) decimalPart
            decimalDigitsLength
          pure (whole ++ [46] ++ decimals)
        else pure whole
      if dstLength < text.length + 1 then .error .bufferOverflow
      else .ok text

def fractionToPercentageDisplay (dstLength : Nat) (number : UInt32) :
    Except Error (List UInt8) := do
  if number > 100000 then .error .invalidTransaction
  else
    let text ← decimalNumberToDisplay dstLength number.toUInt64 1000 3
    return text ++ [37, 0]

/-- The length that is passed on does not take the prefix into account. -/
def amountToGtuDisplay (dstLength : Nat) (microGtuAmount : UInt64) : Except Error (List UInt8) := do
  let text ← decimalNumberToDisplay dstLength microGtuAmount 1000000 6
  return ascii "CCD " ++ text ++ [0]

/-! ## Paginated hex -/

/-- `hex[n]` -/
def hexDigit (n : UInt8) : UInt8 := if n < 10 then n + 48 else n + 87

/-- The loop of `toPaginatedHex`, on the bytes still to be written. The offset of the separators
is an 8-bit number. -/
def hexLoop {n : Nat} (len : Nat) : List UInt8 → Nat → UInt8 → Buffer n → Buffer n × UInt8
  | [], _, offset, asHex => (asHex, offset)
  | b :: bs, i, offset, asHex =>
    let asHex := asHex.memmove (2 * i + offset.toNat) [hexDigit (b >>> 4 &&& 0x0F)]
    let asHex := asHex.memmove (2 * i + (offset.toNat + 1)) [hexDigit (b &&& 0x0F)]
    if 2 * (i + 1) % 16 = 0 ∧ i ≠ len - 1 then
      hexLoop len bs (i + 1) (offset + 1) (asHex.memmove (2 * i + (offset.toNat + 2)) [32])
    else hexLoop len bs (i + 1) offset asHex

def toPaginatedHex {n : Nat} (byteArray : List UInt8) (asHex : Buffer n) :
    Except Error (Buffer n) :=
  let len := byteArray.length
  if n < len * 2 + len / 16 + 1 then .error .bufferOverflow
  else
    let (asHex, offset) := hexLoop len byteArray 0 0 asHex
    .ok (asHex.memmove (2 * len + offset.toNat) [0])

end ConcordiumLedger
