import ConcordiumLedger.Common.AddressEncoding
import ConcordiumLedger.Common.MainHelpers

/-!
# Common.ZeroAddress

The text of the address of 32 zeroes, which the runs on fixed inputs use. It is read off its digits
here, so that they need not encode it.
-/

namespace ConcordiumLedger

open CMem CProg

/-- What the encoding writes. The last two bytes are digits that its loop leaves. -/
def zeroAddress : List UInt8 :=
  ascii "2wkBET2rRg E8pahuaczx Kbmv7ciehq sne57F9gtz f1PVdr2VP3 " ++ [22, 2]

/-- The bytes that are encoded. -/
def zeroPayload : List UInt8 := 1 :: (List.replicate 32 0 ++ [30, 99, 119, 166])

def zeroDigits : List UInt8 :=
  [0, 0, 0, 0, 0, 0, 0, 1, 54, 43, 10, 13, 26, 1, 49, 24, 39, 13, 7, 47, 33, 40, 52, 33, 35, 57,
   55, 18, 34, 44, 53, 6, 35, 41, 37, 40, 48, 50, 45, 37, 4, 6, 14, 8, 39, 51, 57, 38, 0, 22, 28,
   36, 49, 1, 28, 22, 2]

/-- The digits of a number are unique, so that the conversion need not be run. -/
theorem convertLoop_zeroPayload :
    convertLoop 57 zeroPayload 56 (List.replicate 57 0) = zeroDigits := by
  have hroom : (256 : Nat) ^ 37 ≤ 58 ^ 56 := by decide
  obtain ⟨_, stopAt, h⟩ := convertLoop_converted (n := 57) (by decide) zeroPayload [] 56
    (List.replicate 57 0) (converted_start 57 (by decide)) hroom
  have hvalue : positional 58 zeroDigits = beNat zeroPayload := by decide
  have hdigits : ∀ d ∈ zeroDigits, d.toNat < 58 := by decide +kernel
  refine positional_inj (by decide) (h.length.trans rfl) (fun d hd => ?_) hdigits
    (h.value.trans hvalue.symm)
  obtain ⟨i, hi, rfl⟩ := List.mem_iff_getElem.mp hd
  have hdigit := h.digits i
  rwa [List.getD_eq_getElem?_getD, List.getElem?_eq_getElem hi, Option.getD_some] at hdigit

theorem base58checkEncode_zeroes : base58checkEncode zeroAddressSdk.sha256 (List.replicate 32 0) 57 =
    .ok (some zeroAddress) := by
  have hpayload : 1 :: List.replicate 32 0 ++
      (zeroAddressSdk.sha256 (zeroAddressSdk.sha256 (1 :: List.replicate 32 0))).take 4 =
        zeroPayload := by decide
  have hencode : base58Encode zeroPayload 57 = some zeroAddress := by
    have hz : (zeroPayload.takeWhile (· == 0)).length = 0 := by decide
    have hlen : zeroPayload.length = 37 := rfl
    simp only [base58Encode, maxEncInputSize, hz, hlen, List.drop_zero, Nat.reduceSub, Nat.reduceMul,
      Nat.reduceDiv, Nat.reduceAdd, Nat.reduceLT, gt_iff_lt, if_false, convertLoop_zeroPayload]
    decide
  rw [base58checkEncode, if_neg (by decide)]
  show Except.ok (base58Encode (1 :: List.replicate 32 0 ++ _) 57) = _
  rw [hpayload, hencode]

/-- `addressText`, with the text at hand. -/
def zeroAddressText (address : List UInt8) (dst : Buffer 57) : Except Error (Buffer 57) :=
  if address = List.replicate 32 0 then .ok ((dst.memmove 0 zeroAddress).memmove 55 [0])
  else addressText zeroAddressSdk address dst

theorem addressText_zeroAddressSdk (address : List UInt8) (dst : Buffer 57) :
    addressText zeroAddressSdk address dst = zeroAddressText address dst := by
  unfold zeroAddressText
  split
  · rename_i h
    rw [h, addressText, base58checkEncode_zeroes]
    rfl
  · rfl

end ConcordiumLedger
