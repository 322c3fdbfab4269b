import ConcordiumLedger.Common.ErrorAnswers
import ConcordiumLedger.Common.ZeroAddress
import ConcordiumLedger.Governance.Frames
import ConcordiumLedger.Main.Frames
import ConcordiumLedger.Main.RegisterData

/-!
# Apps.ErrorAnswers

Which of the errors that the two applications throw are answered. The `switch` of `CATCH_OTHER`
lacks two of the codes, and a callback throws before `flags` is cleared.
-/

namespace ConcordiumLedger

open CMem CProg CProg.Prog Transition

variable {μ ν γ : Type}

theorem mainApp_throwsEarly (sdk : Sdk) (u : InstructionContext μ) : ThrowsEarly (mainApp sdk u) :=
  mainApp_framed sdk u

theorem governanceApp_throwsEarly (sdk : Sdk) (v : GovernanceContext μ ν) :
    ThrowsEarly (governanceApp sdk v) :=
  governanceApp_framed sdk v

/-- Whatever the state, an error is answered if and only if its code is in the `switch` and it is
not thrown by a callback while `IO_ASYNCH_REPLY` is set. -/
theorem errors_answered_iff (sdk : Sdk) (u : InstructionContext μ) (v : GovernanceContext γ ν) :
    (∀ d ev e t d', process (mainApp sdk u) d ev = .thrown e t →
      step (mainApp sdk u) d ev = some d' →
      (Answered e t d' ↔
        e.isCaught ∧ ¬ ((∃ i, ev = .press i) ∧ d.shared.asynchReply = true))) ∧
    ∀ d ev e t d', process (governanceApp sdk v) d ev = .thrown e t →
      step (governanceApp sdk v) d ev = some d' →
      (Answered e t d' ↔
        e.isCaught ∧ ¬ ((∃ i, ev = .press i) ∧ d.shared.asynchReply = true)) :=
  ⟨fun _ _ _ _ _ h hs => answered_iff (mainApp_throwsEarly sdk u) h hs,
    fun _ _ _ _ _ h hs => answered_iff (governanceApp_throwsEarly sdk v) h hs⟩

/-- A command that no instruction of the application has. -/
theorem errors_answered_unknown_instruction :
    ∃ t d', process (mainApp zeroAddressSdk Contexts.layout) bootedDevice
        (.command (sent 0xFF 0 0 [])) = .thrown .invalidInstruction t ∧
      step (mainApp zeroAddressSdk Contexts.layout) bootedDevice
        (.command (sent 0xFF 0 0 [])) = some d' ∧
      Answered .invalidInstruction t d' := by
  obtain ⟨t, ht⟩ : ∃ t, process (mainApp zeroAddressSdk Contexts.layout) bootedDevice
      (.command (sent 0xFF 0 0 [])) = .thrown .invalidInstruction t := ⟨_, rfl⟩
  obtain ⟨d', hd'⟩ : ∃ d', step (mainApp zeroAddressSdk Contexts.layout) bootedDevice
      (.command (sent 0xFF 0 0 [])) = some d' := ⟨_, rfl⟩
  refine ⟨t, d', ht, hd', ?_⟩
  refine ((errors_answered_iff zeroAddressSdk Contexts.layout GovernanceContexts.layout).1
    bootedDevice _ _ t d' ht hd').mpr ⟨rfl, ?_⟩
  rintro ⟨⟨i, hi⟩, -⟩
  cases hi

/-- One byte of data that is the head of a byte string, after the initial screen is confirmed. -/
def byteStringEvents : List Event :=
  [.command (SignRegisterData.initialCommand [0, 0, 0, 0]), .press 2]

/-- CBOR that is not supported is not answered: the device resets. -/
theorem unsupported_cbor_resets :
    ∃ d t d' : Device Contexts,
      Run (step (mainApp zeroAddressSdk Contexts.layout)) (fun _ _ => True) bootedDevice d ∧
      process (mainApp zeroAddressSdk Contexts.layout) d
        (.command (SignRegisterData.dataCommand [0, 0, 0, 0] 0x40)) =
          .thrown .unsupportedCbor t ∧
      step (mainApp zeroAddressSdk Contexts.layout) d
        (.command (SignRegisterData.dataCommand [0, 0, 0, 0] 0x40)) = some d' ∧
      ¬ Answered .unsupportedCbor t d' := by
  have hex : ((exec (guarded (step (mainApp zeroAddressSdk Contexts.layout)) fun _ _ => True)
      bootedDevice byteStringEvents).any fun d =>
        d.shared.running && match process (mainApp zeroAddressSdk Contexts.layout) d
          (.command (SignRegisterData.dataCommand [0, 0, 0, 0] 0x40)) with
        | .ok _ _ => false
        | .thrown e _ => e == .unsupportedCbor) = true := by
    delta mainApp mainHandler
    simp only [handleSignRegisterData, hashAccountTransactionHeaderAndKind,
      addressText_zeroAddressSdk]
    decide
  obtain ⟨d, hd, hc⟩ := (Option.any_eq_true _ _).mp hex
  obtain ⟨hrun, hc⟩ := Bool.and_eq_true_iff.mp hc
  cases hx : process (mainApp zeroAddressSdk Contexts.layout) d
      (.command (SignRegisterData.dataCommand [0, 0, 0, 0] 0x40)) with
  | ok a t =>
    rw [hx] at hc
    cases hc
  | thrown e t =>
    rw [hx] at hc
    cases beq_iff_eq.mp hc
    refine ⟨d, t, finish (.thrown .unsupportedCbor t : Outcome _ _ PUnit), exec_run hd, hx, ?_,
      fun h => ?_⟩
    · rw [step_eq_process, if_pos hrun, hx]
    · have hcaught := ((finish_answered_iff _ _).mp h).1
      cases hcaught

end ConcordiumLedger
