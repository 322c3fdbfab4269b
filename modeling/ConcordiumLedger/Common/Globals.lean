import ConcordiumLedger.Common.ResponseCodes
import ConcordiumLedger.Lib.Bytes
import ConcordiumLedger.Lib.Prog
import Mathlib.Tactic.Simps.Basic

/-!
# Common.Globals

The global state of an application (`globals.h`, `mainHelpers.c`) and what the SDK keeps for it.

* `KeyDerivationPath`, `Shared` — the key path, the hash, the current instruction, the account
  sender and the display. Every instruction works on these.
* `Step`, `Callback` — a flow on the display is a list of steps, each with a callback.
* `Action` — what the handlers do that an observer of the device can tell apart, kept in order in
  `Shared.log`. The log has no counterpart in the source; nothing reads it but the properties.
* `Device γ` — the global state with the context `γ` of one instruction, or of all of them.
-/

namespace ConcordiumLedger

open CMem CProg

/-- The functions that the steps of both applications call when they are confirmed. -/
inductive Callback where
  | none
  | sendSuccessNoIdle
  | sendSuccess
  | sendUserRejection
  | buildAndSignTransactionHash
  | uiIdle
  | osSchedExit
  | sendPublicKey
  | exportPrivateKey
  | processNextScheduledAmount
  | processNextVerificationKey
  | handleData
  | processKeyIndices
  | processThreshold
  | handleText
  | switchToLoading
  | handleDescriptionPart
deriving DecidableEq, Repr

/-- A step of a flow: its title, the bytes of the array that its text points to at the time the
flow is put on the display, and its callback. -/
structure Step where
  title : String
  text : List UInt8 := []
  callback : Callback := .none
deriving DecidableEq

inductive Action where
  /-- `currentInstruction` is set; `none` stands for `-1`. -/
  | setInstruction (ins : Option UInt8)
  /-- The handler is called for a command with these parameters and these `lc` bytes. -/
  | handler (ins p1 p2 : UInt8) (data : List UInt8)
  | sha256Init
  | updateHash (bytes : List UInt8)
  | parseKeyDerivationPath
  | uxFlowInit (flow : List Step)
  | reply (data : List UInt8) (sw : UInt16)
  /-- `buildAndSignTransactionHash` has signed a transaction. -/
  | signed (path : List UInt32) (input : List UInt8)
deriving DecidableEq

/-- `keyDerivationPath_t`. Its members `identity` and `accountIndex` are not used. -/
structure KeyDerivationPath where
  pathLength : UInt8
  keyDerivationPath : List UInt32
  rawKeyDerivationPath : List UInt32
  /-- The words of the memory behind the struct. -/
  behind : List UInt32
deriving DecidableEq, Inhabited

/-- What `getPrivateKey` reads from `keyDerivationPath` on. A length above 8 takes it over the end
of the array. -/
def KeyDerivationPath.nodes (p : KeyDerivationPath) : List UInt32 :=
  (p.keyDerivationPath ++ p.rawKeyDerivationPath ++ p.behind).take p.pathLength.toNat

structure Shared where
  path : KeyDerivationPath
  /-- The bytes hashed since the last `cx_sha256_init`. -/
  hash : List UInt8
  currentInstruction : Option UInt8
  /-- `global_account_sender.sender` -/
  sender : Buffer 57
  /-- The flow that is on the display. -/
  display : List Step
  /-- A command was received and has had no reply. -/
  replyOwed : Bool
  /-- `IO_ASYNCH_REPLY` is set in `flags`. -/
  asynchReply : Bool
  /-- Cleared when the device resets or the application exits. -/
  running : Bool
  log : List Action
deriving DecidableEq

structure Device (γ : Type) where
  ctx : γ
  shared : Shared
deriving DecidableEq

/-- A received command. The handlers do not compare most of what they read with `lc`, so `cdata`
goes on after the `lc` bytes of the command with whatever the APDU buffer holds. -/
structure Apdu where
  cla : UInt8
  ins : UInt8
  p1 : UInt8
  p2 : UInt8
  lc : UInt8
  cdata : Ptr

/-- The bytes that the host has sent. -/
def Apdu.data (apdu : Apdu) : List UInt8 := apdu.cdata.slice apdu.lc.toNat

/-- What `blsKeygen` uses of the SDK. The types say how many bytes each function writes. -/
structure BlsSdk where
  cxHashSha256 : List UInt8 → Buffer 32
  /-- The input and the salt, in the order of the call. -/
  cxHkdfExtract : List UInt8 → List UInt8 → Buffer 32
  /-- The key, the info and the length of the output. -/
  cxHkdfExpand : List UInt8 → List UInt8 → (okmLen : Nat) → Buffer okmLen
  /-- What the array holds after the call. -/
  cxMathModmNoThrow : {n : Nat} → Buffer n → List UInt8 → Option (Buffer n)
  cxMathIsZero : {n : Nat} → Buffer n → Bool

/-- What the SDK computes. `none` stands for an error code other than `CX_OK`. -/
structure Sdk where
  sha256 : List UInt8 → List UInt8
  publicKey : List UInt32 → Option (List UInt8)
  sign : List UInt32 → List UInt8 → Option (List UInt8)
  /-- `getPrivateKey`: the 32 bytes of a private key. -/
  privateKey : List UInt32 → Option (List UInt8)
  bls : BlsSdk
  /-- How many rounds the loop of `blsKeygen` may take. The code has no bound. -/
  keygenRounds : Nat
  /-- `getCredId` -/
  getCredId : List UInt8 → UInt32 → Option (List UInt8)

/-! ## Access to the state -/

variable {γ : Type}

/-- A function of the firmware, over the context `γ`. -/
abbrev Fw (γ : Type) := Prog Error (Device γ)

namespace Fw

def throw {α : Type} (e : Error) : Fw γ α := Prog.throw e

/-- `if (c) THROW(e);` -/
def throwIf (c : Prop) [Decidable c] (e : Error) : Fw γ PUnit :=
  if c then Prog.throw e else pure ⟨⟩

def getCtx : Fw γ γ := Prog.gets Device.ctx

def getShared : Fw γ Shared := Prog.gets Device.shared

def modifyCtx (f : γ → γ) : Fw γ PUnit := Prog.modify fun d => { d with ctx := f d.ctx }

def modifyShared (f : Shared → Shared) : Fw γ PUnit :=
  Prog.modify fun d => { d with shared := f d.shared }

def when (c : Prop) [Decidable c] (x : Fw γ PUnit) : Fw γ PUnit :=
  if c then x else pure ⟨⟩

/-- A computation of the formatting functions, which may throw. -/
def eval {α : Type} (r : Except Error α) : Fw γ α := Prog.ofExcept r

/-- `ensureNoError` -/
def ensureNoError {α : Type} : Option α → Fw γ α
  | some a => pure a
  | none => Prog.throw .failedCxOperation

end Fw

/-! ## What the log says -/

namespace Shared

@[simps]
def act (a : Action) (s : Shared) : Shared := { s with log := s.log ++ [a] }

/-- `cx_sha256_init` -/
@[simps]
def sha256Init (s : Shared) : Shared := { s with hash := [], log := s.log ++ [.sha256Init] }

@[simps]
def updateHash (bytes : List UInt8) (s : Shared) : Shared :=
  { s with hash := s.hash ++ bytes, log := s.log ++ [.updateHash bytes] }

@[simps]
def setInstruction (ins : Option UInt8) (s : Shared) : Shared :=
  { s with currentInstruction := ins, log := s.log ++ [.setInstruction ins] }

/-- `ux_flow_init` -/
@[simps]
def uxFlowInit (flow : List Step) (s : Shared) : Shared :=
  { s with display := flow, log := s.log ++ [.uxFlowInit flow] }

@[simps]
def reply (data : List UInt8) (sw : UInt16) (s : Shared) : Shared :=
  { s with replyOwed := false, log := s.log ++ [.reply data sw] }

end Shared

end ConcordiumLedger
