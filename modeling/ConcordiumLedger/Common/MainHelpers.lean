import ConcordiumLedger.Common.Util
import ConcordiumLedger.Lib.Encoding
import ConcordiumLedger.Lib.Transition

/-!
# Common.MainHelpers

The command loop that both applications run (`mainHelpers.c`), as a step function on events.

* `App`      — what an application gives: the handler of commands and the callbacks of its steps.
* `dispatch` — the body of the loop for one command, before anything is caught.
* `step`     — one event: a command, a wake-up without one, or a button press on the display. The
  device takes commands while a screen is up, and a press may come at any time.
* `lockStep` — the events of one session in which the host waits for each reply and no command is
  rejected.
-/

namespace ConcordiumLedger

open CMem CProg

structure App (μ : Type) where
  handler : Apdu → Bool → Fw μ PUnit
  callback : Callback → Fw μ PUnit

inductive Event where
  | command (apdu : Apdu)
  /-- `io_exchange` returns without a command. -/
  | noApdu
  /-- The step with this number of the displayed flow is confirmed. -/
  | press (i : Nat)

variable {μ γ : Type}

/-- Runs a function of one instruction on its member of the instruction context. -/
def Fw.on {α : Type} (m : Member μ γ) (x : Fw γ α) : Fw μ α :=
  Prog.zoom (fun d => ⟨m.get d.ctx, d.shared⟩) (fun t d => ⟨m.set t.ctx d.ctx, t.shared⟩) x

/-- The callbacks that no instruction owns; the others are given by `own`. -/
def sharedCallback (sdk : Sdk) (own : Callback → Fw γ PUnit) : Callback → Fw γ PUnit
  | .none => pure ⟨⟩
  | .sendSuccessNoIdle => sendSuccessNoIdle
  | .sendSuccess => sendSuccess []
  | .sendUserRejection => sendUserRejection
  | .buildAndSignTransactionHash => buildAndSignTransactionHash sdk
  | .uiIdle => uiIdle
  | .osSchedExit => Fw.modifyShared fun s => { s with running := false }
  | cb => own cb

/-- `memset(&global_state, 0, sizeof(global_state))` clears the pointer that `concordium_main`
received, not the instruction context it points to, so the context is not written here. -/
def dispatch (app : App μ) (apdu : Apdu) : Fw μ PUnit := do
  Fw.throwIf (apdu.cla ≠ 0xE0) .invalidCla
  let s ← Fw.getShared
  match s.currentInstruction with
  | none => do
    Fw.modifyShared (Shared.setInstruction (some apdu.ins))
    Fw.modifyShared (Shared.act (.handler apdu.ins apdu.p1 apdu.p2 apdu.data))
    app.handler apdu true
  | some ins => do
    Fw.throwIf (ins ≠ apdu.ins) .invalidState
    Fw.modifyShared (Shared.act (.handler apdu.ins apdu.p1 apdu.p2 apdu.data))
    app.handler apdu false

/-- `CATCH_OTHER`. The response is not sent while `IO_ASYNCH_REPLY` is set, which it still is when
a callback throws. -/
def catchOther (e : Error) (s : Shared) : Shared :=
  if e.isCaught then
    let s := s.setInstruction none
    if s.asynchReply then s else s.reply [] e.code
  else { s with running := false }

/-- The end of the `TRY` block. -/
def finish {α : Type} : Outcome Error (Device μ) α → Device μ
  | .ok _ d => d
  | .thrown e d => { d with shared := catchOther e d.shared }

/-- `io_exchange` has returned: `flags` is cleared. -/
def received (d : Device μ) : Device μ :=
  { d with shared := { d.shared with asynchReply := false } }

/-- A command has arrived. -/
def receivedCommand (d : Device μ) : Device μ :=
  { d with shared := { d.shared with asynchReply := false, replyOwed := true } }

/-- The callback that a press of step `i` calls. -/
def Shared.pressed (s : Shared) (i : Nat) : Callback :=
  match s.display[i]? with
  | some st => st.callback
  | none => .none

def step (app : App μ) (d : Device μ) (ev : Event) : Option (Device μ) :=
  if d.shared.running then
    match ev with
    | .command apdu => some (finish (dispatch app apdu (receivedCommand d)))
    | .noApdu => some (finish (Prog.throw .noApduReceived (received d) : Outcome _ _ PUnit))
    | .press i => some (finish (app.callback (d.shared.pressed i) d))
  else none

/-- Whether an outcome is a normal return. -/
def accepted {α : Type} : Outcome Error (Device μ) α → Option (Device μ)
  | .ok _ d => some d
  | .thrown _ _ => none

/-- One session: commands of its instruction only, each after the reply to the one before and
none of them rejected, and presses, until the session ends. -/
def lockStep (app : App μ) (d : Device μ) (ev : Event) : Option (Device μ) :=
  match d.shared.currentInstruction, ev with
  | some ins, .command apdu =>
    if d.shared.running ∧ ¬ d.shared.replyOwed ∧ apdu.ins = ins then
      accepted (dispatch app apdu (receivedCommand d))
    else none
  | some _, .press i =>
    if d.shared.running then some (finish (app.callback (d.shared.pressed i) d)) else none
  | _, _ => none

/-- A device that waits for the first command of a session, in whatever state earlier sessions
have left the rest. -/
structure Idle (d : Device μ) : Prop where
  running : d.shared.running = true
  instruction : d.shared.currentInstruction = none
  replied : d.shared.replyOwed = false

/-- `d` starts a session of `ins` with a first command that is accepted. -/
def begins (app : App μ) (ins : UInt8) (d₀ : Device μ) (apdu : Apdu) (d : Device μ) : Prop :=
  Idle d₀ ∧ apdu.ins = ins ∧ accepted (dispatch app apdu (receivedCommand d₀)) = some d

/-- The device when `concordium_main` is entered: the menu is up and no instruction is current. -/
structure Booted (d : Device μ) : Prop where
  running : d.shared.running = true
  instruction : d.shared.currentInstruction = none
  replied : d.shared.replyOwed = false
  asynch : d.shared.asynchReply = false
  display : d.shared.display = uxMenuIdleFlow
  log : d.shared.log = [.setInstruction none, .uxFlowInit uxMenuIdleFlow]

/-! ## To compute runs with -/

/-- Every seed gives the key 1. -/
def oneBlsSdk : BlsSdk where
  cxHashSha256 := fun _ => Buffer.zero 32
  cxHkdfExtract := fun _ _ => Buffer.zero 32
  cxHkdfExpand := fun _ _ okmLen => ⟨beBytes okmLen 1, beBytes_length _ _⟩
  cxMathModmNoThrow := fun {n} v m =>
    if beNat m = 0 then none else some ⟨beBytes n (beNat v.bytes % beNat m), beBytes_length _ _⟩
  cxMathIsZero := fun v => beNat v.bytes = 0

/-- An SDK to compute runs with. Its hash function is SHA-256 on the bytes that the encoding of the
address of 32 zeroes hashes. -/
def zeroAddressSdk : Sdk where
  sha256 := fun bytes =>
    if bytes = 1 :: List.replicate 32 0 then
    [26, 125, 253, 234, 255, 238, 218, 196, 137, 40, 126, 133, 190, 94, 156, 4, 154, 47, 246,
     71, 15, 85, 207, 48, 38, 15, 85, 57, 90, 193, 177, 89]
    else
    [30, 99, 119, 166, 197, 127, 85, 226, 203, 26, 142, 214, 137, 190, 180, 184, 45, 13, 117,
     93, 112, 107, 16, 70, 117, 216, 38, 107, 113, 1, 29, 57]
  publicKey := fun _ => some (List.replicate 32 0)
  sign := fun _ _ => some (List.replicate 64 0)
  privateKey := fun _ => some (List.replicate 32 0)
  bls := oneBlsSdk
  keygenRounds := 1
  getCredId := fun _ _ => some (List.replicate 48 0)

/-- A command of the host, with its data. The buffer holds zeroes after it. -/
def sent (ins p1 p2 : UInt8) (data : List UInt8) : Apdu where
  cla := 0xE0
  ins := ins
  p1 := p1
  p2 := p2
  lc := .ofNat data.length
  cdata := Ptr.ofBytes data

end ConcordiumLedger
