import ConcordiumLedger.Common.Frames

/-!
# Common.ErrorAnswers

How an iteration of `concordium_main` ends when something is thrown in it.

* `process`   — the code that an event runs inside the `TRY` block.
* `Answered`  — the code of the error is sent, and the session has ended.
* `ThrowsEarly` — an application whose functions leave `IO_ASYNCH_REPLY` as it was when they throw.
* `answered_iff` — when the errors of such an application are answered.
-/

namespace ConcordiumLedger

open CMem CProg CProg.Prog

variable {μ : Type}

/-- What an event runs inside the `TRY` block. A callback runs inside `io_exchange`, before `flags`
is cleared. -/
def process (app : App μ) (d : Device μ) : Event → Outcome Error (Device μ) PUnit
  | .command apdu => dispatch app apdu (receivedCommand d)
  | .noApdu => .thrown .noApduReceived (received d)
  | .press i => app.callback (d.shared.pressed i) d

theorem step_eq_process (app : App μ) (d : Device μ) (ev : Event) :
    step app d ev = if d.shared.running then some (finish (process app d ev)) else none := by
  cases ev <;> rfl

/-- The two bytes of a status word. -/
def statusBytes (sw : UInt16) : List UInt8 := [(sw >>> 8).toUInt8, sw.toUInt8]

/-- What `io_exchange` sends for an action. -/
def Action.response : Action → Option (List UInt8)
  | .reply data sw => some (data ++ statusBytes sw)
  | _ => none

/-- An iteration in which `e` was thrown in `t` ends in `d`: the two bytes of the code are sent and
nothing else, `IO_ASYNCH_REPLY` is not set, the session is over, and the device has not been reset. -/
structure Answered (e : Error) (t d : Device μ) : Prop where
  response : (d.shared.log.drop t.shared.log.length).filterMap Action.response =
    [statusBytes e.code]
  flag : d.shared.asynchReply = false
  instruction : d.shared.currentInstruction = none
  reset : d.shared.running = t.shared.running

/-- What `CATCH_OTHER` makes of an error. -/
theorem finish_answered_iff (e : Error) (t : Device μ) :
    Answered e t (finish (.thrown e t : Outcome _ _ PUnit)) ↔
      e.isCaught ∧ t.shared.asynchReply = false := by
  by_cases hc : e.isCaught
  · cases hf : t.shared.asynchReply with
    | true =>
      have hflag : (finish (.thrown e t : Outcome _ _ PUnit)).shared.asynchReply = true := by
        simp [finish, catchOther, hc, hf]
      constructor
      · intro h
        rw [h.flag] at hflag
        cases hflag
      · rintro ⟨-, hno⟩
        cases hno
    | false =>
      have hlog : (finish (.thrown e t : Outcome _ _ PUnit)).shared.log =
          t.shared.log ++ [.setInstruction none, .reply [] e.code] := by
        simp [finish, catchOther, hc, hf]
      refine ⟨fun _ => ⟨hc, rfl⟩, fun _ => ⟨?_, ?_, ?_, ?_⟩⟩
      · rw [hlog, List.drop_left]
        rfl
      · simp [finish, catchOther, hc, hf]
      · simp [finish, catchOther, hc, hf]
      · simp [finish, catchOther, hc, hf]
  · have hlog : (finish (.thrown e t : Outcome _ _ PUnit)).shared.log = t.shared.log := by
      simp [finish, catchOther, hc]
    constructor
    · intro h
      have hsent := h.response
      rw [hlog, List.drop_length] at hsent
      cases hsent
    · rintro ⟨hyes, -⟩
      exact absurd hyes hc

/-- `IO_ASYNCH_REPLY` is left alone. -/
def FlagKept (s s' : Shared) : Prop := s'.asynchReply = s.asynchReply

instance : Frame FlagKept where
  refl _ := rfl
  trans h h' := Eq.trans h' h
  sha256Init _ := rfl
  updateHash _ _ := rfl
  uxFlowInit _ _ := rfl
  reply _ _ _ := rfl
  endSession _ := rfl
  sender _ _ := rfl
  signed _ _ _ := rfl
  exit _ := rfl

instance : Dispatches FlagKept where
  openSession _ _ := rfl
  handler _ _ _ _ _ := rfl

instance : Waits FlagKept FlagKept fun _ _ => True where
  weaken _ := trivial
  comp _ _ := trivial
  wait _ := trivial

instance (cdata : Ptr) : Loads FlagKept cdata := by
  refine ⟨fun γ => ⟨fun t => ?_⟩⟩
  rw [wp_parseKeyDerivationPath]
  exact ⟨fun _ => rfl, fun _ => rfl⟩

abbrev ThrowsEarly (app : App μ) : Prop :=
  Framed app (fun _ => FlagKept) (fun _ _ _ => True) FlagKept

/-- Throws of the loop and of the code it calls. The flag is clear when a command is handled. -/
theorem process_flag {app : App μ} (ha : ThrowsEarly app) {d t : Device μ} {ev : Event} {e : Error}
    (h : process app d ev = .thrown e t) :
    t.shared.asynchReply = true ↔ (∃ i, ev = .press i) ∧ d.shared.asynchReply = true := by
  cases ev with
  | command apdu =>
    have hkept := of_wp_thrown ((ha.dispatch apdu).holds (receivedCommand d)) h
    have hclear : t.shared.asynchReply = false := hkept
    simp [hclear]
  | press i =>
    have hkept := of_wp_thrown ((ha.callback _).holds d) h
    have hsame : t.shared.asynchReply = d.shared.asynchReply := hkept
    simp [hsame]
  | noApdu =>
    cases h
    simp [received]

/-- An error is answered exactly when the `switch` of `CATCH_OTHER` knows it, and no callback throws
it while `IO_ASYNCH_REPLY` is set. -/
theorem answered_iff {app : App μ} (ha : ThrowsEarly app) {d t d' : Device μ} {ev : Event}
    {e : Error} (h : process app d ev = .thrown e t) (hs : step app d ev = some d') :
    Answered e t d' ↔ e.isCaught ∧ ¬ ((∃ i, ev = .press i) ∧ d.shared.asynchReply = true) := by
  have hd' : d' = finish (process app d ev) := by
    rw [step_eq_process] at hs
    split at hs
    · exact (Option.some.inj hs).symm
    · cases hs
  rw [hd', h, finish_answered_iff, ← process_flag ha h, Bool.not_eq_true]

end ConcordiumLedger
