import ConcordiumLedger.Main.MemoSession
import ConcordiumLedger.Main.SignEncryptedAmountTransfer
import ConcordiumLedger.Main.SignTransfer

/-!
# Main.MemoTransfers

The sessions of the simple and of the encrypted transfer with memo keep the framing of the memo.
All their screens have shared callbacks only.
-/

namespace ConcordiumLedger

open CMem CProg CProg.Prog

namespace SignTransfer

def phase (c : Context) : Option Memo.Phase :=
  match c.state with
  | .memoInitial => some .start
  | .memo => some .more
  | .amount => some .done
  | _ => none

theorem phase_eq_start {c : Context} : phase c = some .start ↔ c.state = .memoInitial := by
  unfold phase; split <;> simp_all

theorem phase_eq_more {c : Context} : phase c = some .more ↔ c.state = .memo := by
  unfold phase; split <;> simp_all

theorem phase_eq_done {c : Context} : phase c = some .done ↔ c.state = .amount := by
  unfold phase; split <;> simp_all

def memoDeclared : Apdu → Memo.Declared := Memo.declared transferWithMemo p1Memo 32

/-- The application as the transfer with memo sees it. -/
def memoApp (sdk : Sdk) : App Blob where
  handler := fun apdu b => handleSignTransferWithMemo sdk apdu.cdata apdu.p1 apdu.lc b
  callback := sharedCallback sdk fun _ => Pure.pure ⟨⟩

abbrev MemoInv (first : Apdu) : Device Blob → Prop :=
  Memo.Inv (memoDeclared first) first.ins phase (fun cb => cb.isShared = true)

variable {sdk : Sdk} {t t' t₀ : Device Blob} {first apdu : Apdu}

theorem initial_inv (h : (memoApp sdk).handler first true (opened t₀ first) = .ok ⟨⟩ t) :
    MemoInv first t := by
  have hw : wp ((memoApp sdk).handler first true) (fun _ t => MemoInv first t) (fun _ _ => True)
      (opened t₀ first) := by
    simp only [memoApp, handleSignTransferWithMemo, setState, header, wp_bind, Fw.wp_when,
      Fw.wp_getCtx, Fw.wp_modifyCtx, Fw.wp_throw, wp_ite, and_true, true_implies,
      not_true_eq_false, false_implies, reduceCtorEq, and_false, implies_true]
    intro hp1
    refine wp_headerAndToAddress fun s' recipient hs => ?_
    simp only [Fw.wp_modifyCtx, wp_pure, wp_bind]
    refine Memo.wp_memoLength fun c hc hle => ?_
    have hp : first.cdata.advance (1 + 4 * (first.cdata 0).toNat + 61 + 32) =
        (payloadOf first.cdata).advance 32 := by simp [payloadOf]
    rw [hp] at hc hle ⊢
    exact .initial hs (by rw [hp1]; decide) hc hle rfl
  exact ok_of_wp hw h

theorem command_inv (hi : MemoInv first t)
    (hc : Memo.Condition (memoDeclared first) phase t (.command apdu))
    (h : SessionStep (memoApp sdk) t (.command apdu) t') : MemoInv first t' := by
  obtain ⟨-, -, -, h⟩ := h
  obtain ⟨ph, hph, hfr⟩ := hi.framing
  have hw : wp ((memoApp sdk).handler apdu false) (fun _ t => MemoInv first t) (fun _ _ => True)
      (entered t apdu) := by
    simp only [memoApp, handleSignTransferWithMemo, wp_bind, Fw.wp_when, Fw.wp_getCtx, Fw.wp_throw,
      wp_ite, Bool.false_eq_true, false_implies, true_and, not_false_eq_true, true_implies,
      implies_true, and_true]
    cases ph with
    | start =>
      have hst : (entered t apdu).ctx.inner.state = .memoInitial := phase_eq_start.mp hph
      simp only [hst, and_true, reduceCtorEq, and_false, false_implies, true_implies,
        not_false_eq_true, true_and, implies_true]
      intro hp
      exact Memo.wp_start hfr hi.length_le hp (hc hph hp) (fun _ hh => hi.replied rfl ⟨_, hh⟩)
        (fun _ hh => hi.replied rfl hh)
    | more =>
      have hst : (entered t apdu).ctx.inner.state = .memo := phase_eq_more.mp hph
      simp only [hst, and_true, reduceCtorEq, and_false, false_implies, true_implies,
        not_false_eq_true, true_and, implies_true]
      intro hp
      exact Memo.wp_more hfr hp fun _ hh => hi.replied rfl ⟨_, hh⟩
    | done =>
      have hst : (entered t apdu).ctx.inner.state = .amount := phase_eq_done.mp hph
      simp only [hst, and_true, reduceCtorEq, and_false, false_implies, true_implies,
        not_false_eq_true, true_and]
      intro hp
      simp only [amount, startTransferDisplay, wp_bind, Fw.wp_eval, implies_true, and_true,
        Fw.wp_modifyCtx, wp_updateHash, wp_uxFlowInit, wp_waitForButton]
      intro text _
      have hne : apdu.p1 ≠ p1Memo := by rw [hp]; decide
      obtain ⟨rest, hh⟩ := hfr
      refine hi.shown hph (hh.command hne) ?_
      simp [uxSignFlowSharedReview, uxSignFlowAccountSenderView, uxDisplayMemoStepNocb,
        uxSignFlowSharedSign, uxSignFlowSharedDecline, Callback.isShared]
  exact ok_of_wp hw h

theorem session_inv {ev : Event} (hi : MemoInv first t)
    (hc : Memo.Condition (memoDeclared first) phase t ev)
    (h : SessionStep (memoApp sdk) t ev t') : MemoInv first t' := by
  cases ev with
  | command apdu => exact command_inv hi hc h
  | press i =>
    obtain ⟨-, -, rfl⟩ := h
    exact hi.passed (fun _ h => h) (sharedCallback_passed t sdk (hi.pressed (fun _ h => h) hc))
  | noApdu => exact h.elim

end SignTransfer

namespace SignEncryptedAmountTransfer

def phase (c : Context) : Option Memo.Phase :=
  match c.state with
  | .memoStart => some .start
  | .memo => some .more
  | .remainingAmount | .transferAmount | .proofs => some .done
  | _ => none

theorem phase_eq_start {c : Context} : phase c = some .start ↔ c.state = .memoStart := by
  unfold phase; split <;> simp_all

theorem phase_eq_more {c : Context} : phase c = some .more ↔ c.state = .memo := by
  unfold phase; split <;> simp_all

theorem phase_eq_done {c : Context} : phase c = some .done ↔
    c.state = .remainingAmount ∨ c.state = .transferAmount ∨ c.state = .proofs := by
  unfold phase; split <;> simp_all

def memoDeclared : Apdu → Memo.Declared :=
  Memo.declared encryptedAmountTransferWithMemo p1Memo 32

/-- The application as the encrypted transfer with memo sees it. -/
def memoApp (sdk : Sdk) : App Blob where
  handler := fun apdu b =>
    handleSignEncryptedAmountTransferWithMemo sdk apdu.cdata apdu.p1 apdu.lc b
  callback := sharedCallback sdk fun _ => Pure.pure ⟨⟩

abbrev MemoInv (first : Apdu) : Device Blob → Prop :=
  Memo.Inv (memoDeclared first) first.ins phase (fun cb => cb.isShared = true)

variable {sdk : Sdk} {t t' t₀ : Device Blob} {first apdu : Apdu}

theorem initial_inv (h : (memoApp sdk).handler first true (opened t₀ first) = .ok ⟨⟩ t) :
    MemoInv first t := by
  have hw : wp ((memoApp sdk).handler first true) (fun _ t => MemoInv first t) (fun _ _ => True)
      (opened t₀ first) := by
    simp only [memoApp, handleSignEncryptedAmountTransferWithMemo, setState, header, wp_bind,
      Fw.wp_when, Fw.wp_getCtx, Fw.wp_modifyCtx, Fw.wp_throw, wp_ite, and_true, true_implies,
      not_true_eq_false, false_implies, reduceCtorEq, and_false, implies_true]
    intro hp1
    refine wp_headerAndToAddress fun s' recipient hs => ?_
    simp only [Fw.wp_modifyCtx, wp_pure, wp_bind]
    refine Memo.wp_memoLength fun c hc hle => ?_
    have hp : first.cdata.advance (1 + 4 * (first.cdata 0).toNat + 61 + 32) =
        (payloadOf first.cdata).advance 32 := by simp [payloadOf]
    rw [hp] at hc hle ⊢
    exact .initial hs (by rw [hp1]; decide) hc hle rfl
  exact ok_of_wp hw h

/-- The amounts and the proofs come after the memo and are only hashed. -/
theorem amounts_inv {rest : List UInt8} (hi : MemoInv first t)
    (hph : phase t.ctx.inner = some .done) (hh : Memo.Hashed (memoDeclared first) rest t.shared) :
    wp ((memoApp sdk).handler apdu false) (fun _ t => MemoInv first t) (fun _ _ => True)
      (entered t apdu) := by
  have hcmd (bytes : List UInt8) (hne : apdu.p1 ≠ p1Memo) :
      Memo.Hashed (memoDeclared first) (rest ++ bytes)
        ((entered t apdu).shared.updateHash bytes) :=
    hh.command hne
  simp only [memoApp, handleSignEncryptedAmountTransferWithMemo, wp_bind, Fw.wp_when, Fw.wp_getCtx,
    Fw.wp_throw, wp_ite, Bool.false_eq_true, false_implies, true_and, not_false_eq_true,
    true_implies, implies_true, and_true]
  rcases phase_eq_done.mp hph with hst | hst | hst
  all_goals
    have hst' : (entered t apdu).ctx.inner.state = _ := hst
    simp only [hst', and_true, reduceCtorEq, and_false, false_implies, true_implies,
      not_false_eq_true, true_and, implies_true]
    intro hp
    have hne : apdu.p1 ≠ p1Memo := by rw [hp]; decide
  · simp only [handleRemainingAmount, setState, wp_bind, wp_updateHash, Fw.wp_modifyCtx,
      wp_sendSuccessNoIdle]
    exact hi.replied (show phase _ = some .done from rfl) ⟨_, hcmd _ hne⟩
  · simp only [handleTransferAmountAggIndexProofSize, setState, wp_bind, wp_updateHash,
      Fw.wp_modifyCtx, wp_sendSuccessNoIdle]
    exact hi.replied (show phase _ = some .done from rfl) ⟨_, hcmd _ hne⟩
  · simp only [handleProofs, startEncryptedTransferDisplay, wp_bind, wp_updateHash, Fw.wp_modifyCtx,
      Fw.wp_getCtx, wp_ite, wp_uxFlowInit, wp_waitForButton, wp_sendSuccessNoIdle]
    refine ⟨fun _ => hi.shown hph (hcmd _ hne) ?_, fun _ => hi.replied hph ⟨_, hcmd _ hne⟩⟩
    simp [uxSignFlowSharedReview, uxSignFlowAccountSenderView, uxDisplayMemoStepNocb,
      uxSignFlowSharedSign, uxSignFlowSharedDecline, Callback.isShared]

theorem command_inv (hi : MemoInv first t)
    (hc : Memo.Condition (memoDeclared first) phase t (.command apdu))
    (h : SessionStep (memoApp sdk) t (.command apdu) t') : MemoInv first t' := by
  obtain ⟨-, -, -, h⟩ := h
  obtain ⟨ph, hph, hfr⟩ := hi.framing
  have hw : wp ((memoApp sdk).handler apdu false) (fun _ t => MemoInv first t) (fun _ _ => True)
      (entered t apdu) := by
    cases ph with
    | start =>
      have hst : (entered t apdu).ctx.inner.state = .memoStart := phase_eq_start.mp hph
      simp only [memoApp, handleSignEncryptedAmountTransferWithMemo, wp_bind, Fw.wp_when,
        Fw.wp_getCtx, Fw.wp_throw, wp_ite, Bool.false_eq_true, false_implies, true_and,
        not_false_eq_true, true_implies, implies_true, and_true, hst, reduceCtorEq, and_false]
      intro hp
      exact Memo.wp_start hfr hi.length_le hp (hc hph hp) (fun _ hh => hi.replied rfl ⟨_, hh⟩)
        (fun _ hh => hi.replied rfl hh)
    | more =>
      have hst : (entered t apdu).ctx.inner.state = .memo := phase_eq_more.mp hph
      simp only [memoApp, handleSignEncryptedAmountTransferWithMemo, wp_bind, Fw.wp_when,
        Fw.wp_getCtx, Fw.wp_throw, wp_ite, Bool.false_eq_true, false_implies, true_and,
        not_false_eq_true, true_implies, implies_true, and_true, hst, reduceCtorEq, and_false]
      intro hp
      exact Memo.wp_more hfr hp fun _ hh => hi.replied rfl ⟨_, hh⟩
    | done =>
      obtain ⟨rest, hh⟩ := hfr
      exact amounts_inv hi hph hh
  exact ok_of_wp hw h

theorem session_inv {ev : Event} (hi : MemoInv first t)
    (hc : Memo.Condition (memoDeclared first) phase t ev)
    (h : SessionStep (memoApp sdk) t ev t') : MemoInv first t' := by
  cases ev with
  | command apdu => exact command_inv hi hc h
  | press i =>
    obtain ⟨-, -, rfl⟩ := h
    exact hi.passed (fun _ h => h) (sharedCallback_passed t sdk (hi.pressed (fun _ h => h) hc))
  | noApdu => exact h.elim

end SignEncryptedAmountTransfer
end ConcordiumLedger
