import Mathlib.Logic.Basic

/-!
# Common.ResponseCodes

The error codes that the applications throw (`responseCodes.h`), and the ones that
`concordium_main` turns into a response.
-/

namespace ConcordiumLedger

inductive Error where
  | noApduReceived
  | rejectedByUser
  | invalidCla
  | invalidState
  | invalidPath
  | invalidParam
  | invalidTransaction
  | unsupportedCbor
  | bufferOverflow
  | failedCxOperation
  | invalidInstruction
  | deviceLocked
deriving DecidableEq, Repr

/-- The status word of an error. -/
def Error.code : Error → UInt16
  | .noApduReceived => 0x6982
  | .rejectedByUser => 0x6985
  | .invalidCla => 0x6E00
  | .invalidState => 0x6B01
  | .invalidPath => 0x6B02
  | .invalidParam => 0x6B03
  | .invalidTransaction => 0x6B04
  | .unsupportedCbor => 0x6B05
  | .bufferOverflow => 0x6B06
  | .failedCxOperation => 0x6B07
  | .invalidInstruction => 0x6D00
  | .deviceLocked => 0x530C

/-- `SUCCESS` -/
def success : UInt16 := 0x9000

/-- The `switch` of `CATCH_OTHER` in `concordium_main`: any other error resets the device. -/
def Error.isCaught : Error → Bool
  | .noApduReceived | .rejectedByUser | .invalidState | .invalidPath | .invalidParam
  | .invalidTransaction | .invalidInstruction | .failedCxOperation | .invalidCla
  | .deviceLocked => true
  | .unsupportedCbor | .bufferOverflow => false

end ConcordiumLedger
