import ConcordiumLedger.Common.NumberHelpers

/-!
# Common.Base58check

The base58 encoding of account addresses (`base58check.c`), with the output array as a list of
bytes that is written in place. The hash function of the SDK is a parameter.
-/

namespace ConcordiumLedger

def maxEncInputSize : Nat := 120

/-- `BASE58ALPHABET` -/
def base58Alphabet : List UInt8 :=
  CMem.ascii "123456789ABCDEFGHJKLMNPQRSTUVWXYZabcdefghijkmnopqrstuvwxyz"

/-- The inner loop of the conversion, from index `j - 1` down: multiplies the number in `out` by
256 and adds `carry`. Returns the array and the index it stopped at, a `size_t`. -/
def carryLoop (stopAt : Nat) : Nat → Nat → List UInt8 → List UInt8 × Nat
  | 0, _, out => (out, 2 ^ 32 - 1)
  | j + 1, carry, out =>
    let carry := carry + 256 * (out.getD j 0).toNat
    let out := out.set j (.ofNat (carry % 58))
    let carry := carry / 58
    if j ≤ subSize stopAt 1 ∧ carry = 0 then (out, j) else carryLoop stopAt j carry out

/-- The outer loop: one round for each input byte after the leading zeroes. -/
def convertLoop (outputSize : Nat) : List UInt8 → Nat → List UInt8 → List UInt8
  | [], _, out => out
  | b :: bs, stopAt, out =>
    let (out, stopAt) := carryLoop stopAt outputSize b.toNat out
    convertLoop outputSize bs stopAt out

/-- The last loop when digits move to the left: `rounds` positions from `i` on. -/
def spreadLeft (distance : Int) : Nat → Nat → Nat → Int → List UInt8 → List UInt8
  | 0, _, _, _, out => out
  | rounds + 1, i, nextSpace, offset, out =>
    if i = nextSpace then
      spreadLeft distance rounds (i + 1) (nextSpace + 11) (offset + 1) (out.set i 32)
    else
      let digit := out.getD (i - distance - offset).toNat 0
      spreadLeft distance rounds (i + 1) nextSpace offset
        (out.set i (base58Alphabet.getD digit.toNat 0))

/-- The last loop when digits move to the right: positions `i - 1` down to 0. -/
def spreadRight (distance : Int) (last : Nat) : Nat → Nat → Int → List UInt8 → List UInt8
  | 0, _, _, out => out
  | i + 1, nextSpace, offset, out =>
    if last - i = nextSpace then
      spreadRight distance last i (nextSpace + 11) (offset + 1) (out.set i 32)
    else
      let digit := out.getD (i - distance + offset).toNat 0
      spreadRight distance last i nextSpace offset
        (out.set i (base58Alphabet.getD digit.toNat 0))

/-- `none` stands for the return value `-1`; otherwise the bytes written to `out`. -/
def base58Encode (input : List UInt8) (outlen : Nat) : Option (List UInt8) :=
  if input.length > maxEncInputSize then none
  else
    let zeroCount := (input.takeWhile (· == 0)).length
    let outputSize := (input.length - zeroCount) * 138 / 100 + 1
    let spaces := outputSize / 10
    let outputSize := outputSize + spaces
    if outlen < outputSize then none
    else
      let out := convertLoop outputSize (input.drop zeroCount) (outputSize - 1)
        (List.replicate outputSize 0)
      let j := (out.takeWhile (· == 0)).length
      if outlen < zeroCount + outputSize - j then none
      else
        let written := zeroCount + outputSize - j
        let distance : Int := zeroCount - j
        let out :=
          if distance < 0 then spreadLeft distance (written + spaces - zeroCount) zeroCount 10 0 out
          else spreadRight distance (written + spaces - 1) (written + spaces) 10 0 out
        some (List.replicate zeroCount (base58Alphabet.getD 0 0) ++ out.drop zeroCount)

def addressLength : Nat := 32

def base58checkEncode (sha256 : List UInt8 → List UInt8) (input : List UInt8) (outlen : Nat) :
    Except Error (Option (List UInt8)) :=
  if input.length ≠ addressLength then .error .invalidTransaction
  else
    let buffer := 1 :: input
    let checksum := (sha256 (sha256 buffer)).take 4
    .ok (base58Encode (buffer ++ checksum) outlen)

end ConcordiumLedger
