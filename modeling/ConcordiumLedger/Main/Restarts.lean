import ConcordiumLedger.Common.Restarts
import ConcordiumLedger.Main.Frames

/-!
# Main.Restarts

How the sessions of the signing instructions of the main application start.

* `transactionKind` — the transaction kind of an account transaction instruction.
* `mainHandler_restarts`, `mainHandler_heads` — the first accepted command of a session.
* `mainHandler_keepsHead` — the later ones.
-/

namespace ConcordiumLedger

open CMem CProg CProg.Prog

set_option synthInstance.maxSize 20000

variable {μ : Type} (sdk : Sdk) (cdata : Ptr) (p1 p2 lc kind : UInt8)

/-! ## The handlers -/

section Handlers

variable (p h : Bool)

instance : Restarts p h (SignTransfer.header sdk cdata kind) := by
  unfold SignTransfer.header
  infer_instance

instance : Heads 60 [kind] (SignTransfer.header sdk cdata kind) := by
  unfold SignTransfer.header
  infer_instance

instance : Restarts p h (handleSignTransfer sdk cdata) := by
  unfold handleSignTransfer
  infer_instance

instance : Heads 60 [SignTransfer.transfer] (handleSignTransfer sdk cdata) := by
  unfold handleSignTransfer
  infer_instance

instance : Restarts p h (handleSignTransferWithMemo sdk cdata p1 lc true) := by
  unfold handleSignTransferWithMemo
  refine Restarts.opening _ fun c => ?_
  simp only [reduceCtorEq, and_false, if_false]
  infer_instance

instance : Heads 60 [SignTransfer.transferWithMemo]
    (handleSignTransferWithMemo sdk cdata p1 lc true) := by
  unfold handleSignTransferWithMemo
  refine Heads.opening _ fun c => ?_
  simp only [reduceCtorEq, and_false, if_false]
  infer_instance

instance : KeepsHead 60 [SignTransfer.transferWithMemo]
    (handleSignTransferWithMemo sdk cdata p1 lc false) := by
  unfold handleSignTransferWithMemo
  infer_instance

instance : Restarts p h (SignTransferWithSchedule.header sdk cdata kind) := by
  unfold SignTransferWithSchedule.header
  infer_instance

instance : Heads 60 [kind] (SignTransferWithSchedule.header sdk cdata kind) := by
  unfold SignTransferWithSchedule.header
  infer_instance

instance : Restarts p h (handleSignTransferWithSchedule sdk cdata p1 true) := by
  unfold handleSignTransferWithSchedule
  refine Restarts.opening _ fun c => ?_
  simp only [reduceCtorEq, and_false, if_false]
  infer_instance

instance : Heads 60 [SignTransferWithSchedule.transferWithSchedule]
    (handleSignTransferWithSchedule sdk cdata p1 true) := by
  unfold handleSignTransferWithSchedule
  refine Heads.opening _ fun c => ?_
  simp only [reduceCtorEq, and_false, if_false]
  infer_instance

instance : KeepsHead 60 [SignTransferWithSchedule.transferWithSchedule]
    (handleSignTransferWithSchedule sdk cdata p1 false) := by
  unfold handleSignTransferWithSchedule
  infer_instance

instance : Restarts p h (handleSignTransferWithScheduleAndMemo sdk cdata p1 lc true) := by
  unfold handleSignTransferWithScheduleAndMemo
  refine Restarts.opening _ fun c => ?_
  simp only [reduceCtorEq, and_false, if_false]
  infer_instance

instance : Heads 60 [SignTransferWithSchedule.transferWithScheduleWithMemo]
    (handleSignTransferWithScheduleAndMemo sdk cdata p1 lc true) := by
  unfold handleSignTransferWithScheduleAndMemo
  refine Heads.opening _ fun c => ?_
  simp only [reduceCtorEq, and_false, if_false]
  infer_instance

instance : KeepsHead 60 [SignTransferWithSchedule.transferWithScheduleWithMemo]
    (handleSignTransferWithScheduleAndMemo sdk cdata p1 lc false) := by
  unfold handleSignTransferWithScheduleAndMemo
  infer_instance

instance : Restarts p h (SignEncryptedAmountTransfer.header sdk cdata kind) := by
  unfold SignEncryptedAmountTransfer.header
  infer_instance

instance : Heads 60 [kind] (SignEncryptedAmountTransfer.header sdk cdata kind) := by
  unfold SignEncryptedAmountTransfer.header
  infer_instance

instance : Restarts p h (handleSignEncryptedAmountTransfer sdk cdata p1 lc true) := by
  unfold handleSignEncryptedAmountTransfer
  refine Restarts.opening _ fun c => ?_
  simp only [reduceCtorEq, and_false, if_false]
  infer_instance

instance : Heads 60 [SignEncryptedAmountTransfer.encryptedAmountTransfer]
    (handleSignEncryptedAmountTransfer sdk cdata p1 lc true) := by
  unfold handleSignEncryptedAmountTransfer
  refine Heads.opening _ fun c => ?_
  simp only [reduceCtorEq, and_false, if_false]
  infer_instance

instance : KeepsHead 60 [SignEncryptedAmountTransfer.encryptedAmountTransfer]
    (handleSignEncryptedAmountTransfer sdk cdata p1 lc false) := by
  unfold handleSignEncryptedAmountTransfer
  infer_instance

instance : Restarts p h (handleSignEncryptedAmountTransferWithMemo sdk cdata p1 lc true) := by
  unfold handleSignEncryptedAmountTransferWithMemo
  refine Restarts.opening _ fun c => ?_
  simp only [reduceCtorEq, and_false, if_false]
  infer_instance

instance : Heads 60 [SignEncryptedAmountTransfer.encryptedAmountTransferWithMemo]
    (handleSignEncryptedAmountTransferWithMemo sdk cdata p1 lc true) := by
  unfold handleSignEncryptedAmountTransferWithMemo
  refine Heads.opening _ fun c => ?_
  simp only [reduceCtorEq, and_false, if_false]
  infer_instance

instance : KeepsHead 60 [SignEncryptedAmountTransfer.encryptedAmountTransferWithMemo]
    (handleSignEncryptedAmountTransferWithMemo sdk cdata p1 lc false) := by
  unfold handleSignEncryptedAmountTransferWithMemo
  infer_instance

instance : Restarts p h (handleSignTransferToEncrypted sdk cdata) := by
  unfold handleSignTransferToEncrypted
  infer_instance

instance : Heads 60 [SignTransferToEncrypted.transferToEncrypted]
    (handleSignTransferToEncrypted sdk cdata) := by
  unfold handleSignTransferToEncrypted
  infer_instance

instance : Restarts p h (handleSignTransferToPublic sdk cdata p1 lc true) := by
  unfold handleSignTransferToPublic
  refine Restarts.opening _ fun c => ?_
  simp only [reduceCtorEq, and_false, if_false]
  infer_instance

instance : Heads 60 [SignTransferToPublic.transferToPublic]
    (handleSignTransferToPublic sdk cdata p1 lc true) := by
  unfold handleSignTransferToPublic
  refine Heads.opening _ fun c => ?_
  simp only [reduceCtorEq, and_false, if_false]
  infer_instance

instance : KeepsHead 60 [SignTransferToPublic.transferToPublic]
    (handleSignTransferToPublic sdk cdata p1 lc false) := by
  unfold handleSignTransferToPublic
  infer_instance

/-- Data before the initial command is refused. -/
theorem readData_initial {t : Device SignRegisterData.Blob} (ht : t.ctx.inner.state = .initial) :
    wp (SignRegisterData.readData cdata lc) (fun _ _ => False) (fun _ t' => t' = t) t := by
  unfold SignRegisterData.readData
  rw [wp_bind, Fw.wp_getCtx, ht]
  rfl

theorem wp_registerData_early {t : Device SignRegisterData.Blob} {a : SignRegisterData.Blob}
    (ht : t.ctx = a) (ha : a.inner.state = .initial) {k : PUnit.{1} → Fw SignRegisterData.Blob PUnit.{1}}
    {Q : PUnit.{1} → Device SignRegisterData.Blob → Prop} :
    wp (do
      Fw.throwIf (a.inner.dataLength < lc.toUInt16) .invalidTransaction
      Fw.modifyCtx fun c => { c with inner.dataLength := c.inner.dataLength - lc.toUInt16 }
      updateHash cdata lc.toNat
      SignRegisterData.readData cdata lc >>= k) Q (fun _ t' => Touched t.shared t'.shared) t := by
  subst ht
  rw [wp_bind, Fw.wp_throwIf]
  refine ⟨fun _ => .refl _, fun _ => ?_⟩
  rw [wp_bind, Fw.wp_modifyCtx, wp_bind, wp_updateHash, wp_bind]
  refine wp_mono (readData_initial cdata lc ha) (fun _ _ h => h.elim) fun _ _ h => ?_
  rw [h]
  exact Steady.updateHash _ _

instance : Restarts p h (handleSignRegisterData sdk cdata p1 lc true) := by
  unfold handleSignRegisterData
  refine Restarts.opening_wp _ fun s t c hc ht => ?_
  refine (wp_ite _ _ _).mpr ⟨fun _ => Restarts.holds s t ht, fun _ => ?_⟩
  refine (wp_ite _ _ _).mpr ⟨fun _ => ?_, fun _ => .inl ht.touched⟩
  exact wp_mono (wp_registerData_early cdata lc hc rfl) (fun _ _ h => h)
    fun _ _ h => .inl (ht.touched.trans h)

instance : Heads 60 [SignRegisterData.registerData]
    (handleSignRegisterData sdk cdata p1 lc true) := by
  unfold handleSignRegisterData
  refine Heads.opening_wp _ fun t c hc => ?_
  refine (wp_ite _ _ _).mpr ⟨fun _ => Heads.holds t, fun _ => ?_⟩
  refine (wp_ite _ _ _).mpr ⟨fun _ => ?_, fun _ => .inl (.refl _)⟩
  exact wp_mono (wp_registerData_early cdata lc hc rfl) (fun _ _ h => h) fun _ _ h => .inl h

instance : KeepsHead 60 [SignRegisterData.registerData]
    (handleSignRegisterData sdk cdata p1 lc false) := by
  unfold handleSignRegisterData
  infer_instance

instance configureBaker_restarts : Restarts p h (SignConfigureBaker.handleInitial sdk cdata) := by
  unfold SignConfigureBaker.handleInitial
  infer_instance

instance configureBaker_heads : Heads 60 [SignConfigureBaker.configureBaker]
    (SignConfigureBaker.handleInitial sdk cdata) := by
  unfold SignConfigureBaker.handleInitial
  infer_instance

instance : Restarts p h (handleSignConfigureDelegation sdk cdata lc) := by
  unfold handleSignConfigureDelegation
  infer_instance

instance : Heads 60 [SignConfigureDelegation.configureDelegation]
    (handleSignConfigureDelegation sdk cdata lc) := by
  unfold handleSignConfigureDelegation
  infer_instance

instance : Restarts p h (SignCredentialDeployment.handleUpdateInitial sdk cdata) := by
  unfold SignCredentialDeployment.handleUpdateInitial
  infer_instance

instance : Heads 60 [SignCredentialDeployment.updateCredentials]
    (SignCredentialDeployment.handleUpdateInitial sdk cdata) := by
  unfold SignCredentialDeployment.handleUpdateInitial
  infer_instance

instance : Restarts p h (handleSignUpdateCredential sdk cdata p1 p2 true) := by
  unfold handleSignUpdateCredential
  refine Restarts.opening _ fun c => ?_
  simp only [reduceCtorEq, and_false, false_and, if_false]
  infer_instance

instance : Heads 60 [SignCredentialDeployment.updateCredentials]
    (handleSignUpdateCredential sdk cdata p1 p2 true) := by
  unfold handleSignUpdateCredential
  refine Heads.opening _ fun c => ?_
  simp only [reduceCtorEq, and_false, false_and, if_false]
  infer_instance

/-- A key before the initial packet is refused. -/
theorem wp_verificationKey_early {t : Device SignCredentialDeployment.Context}
    (ht : t.ctx.state = .initial) {Q : PUnit.{1} → Device SignCredentialDeployment.Context → Prop} :
    wp (SignCredentialDeployment.handleVerificationKey cdata) Q (fun _ t' => t' = t) t := by
  unfold SignCredentialDeployment.handleVerificationKey
  rw [wp_bind, Fw.wp_getCtx, wp_bind, Fw.wp_throwIf]
  refine ⟨fun _ => rfl, fun hn => absurd ?_ hn⟩
  simp [ht]

instance : Restarts p h (handleSignCredentialDeployment sdk cdata p1 p2 true) := by
  unfold handleSignCredentialDeployment
  refine Restarts.opening_wp _ fun s t c hc ht => ?_
  rw [wp_bind]
  have hlast {x : Fw SignCredentialDeployment.Context PUnit.{1}} [hx : Restarts p h x] :
      wp x (fun _ t' => wp waitForButton (fun _ t' => Restarted s t'.shared)
        (fun _ t' => Touched s t'.shared ∨ Restarted s t'.shared) t')
        (fun _ t' => Touched s t'.shared ∨ Restarted s t'.shared) t :=
    wp_mono (hx.holds s t ht) (fun _ _ hr => hr.extend (.of_log rfl)) fun _ _ h => h
  simp only [reduceCtorEq, and_false, and_true, if_false]
  refine (wp_ite _ _ _).mpr ⟨fun _ => hlast, fun _ => (wp_ite _ _ _).mpr ⟨fun _ => ?_, fun _ => ?_⟩⟩
  · exact wp_mono (wp_verificationKey_early cdata (by rw [hc])) (fun _ _ h => h)
      fun _ _ h => .inl (h ▸ ht.touched)
  · exact .inl ht.touched

instance publicInformationForIp_restarts : Restarts p h
    (SignPublicInformationForIp.handleInitial cdata) := by
  unfold SignPublicInformationForIp.handleInitial
  infer_instance

instance : Restarts p h (handleSignPublicInformationForIp cdata p1 true) := by
  unfold handleSignPublicInformationForIp
  refine Restarts.opening _ fun c => ?_
  simp only [reduceCtorEq, and_false, if_false]
  infer_instance

/-- A session that starts with the initial packet. -/
instance : Restarts p h (handleSignConfigureBaker sdk cdata SignConfigureBaker.p1Initial lc true) :=
  inferInstanceAs (Restarts p h (SignConfigureBaker.handleInitial sdk cdata))

instance : Heads 60 [SignConfigureBaker.configureBaker]
    (handleSignConfigureBaker sdk cdata SignConfigureBaker.p1Initial lc true) :=
  inferInstanceAs (Heads 60 _ (SignConfigureBaker.handleInitial sdk cdata))

instance : KeepsHead 60 [SignConfigureBaker.configureBaker]
    (handleSignConfigureBaker sdk cdata p1 lc false) := by
  unfold handleSignConfigureBaker
  infer_instance

end Handlers

/-! ## The application -/

section Application

variable {sdk} {u : InstructionContext μ} {c : Apdu}

/-- Instructions that sign no transaction: at most an exported key is signed, by itself. -/
def exportsKeys (ins : UInt8) : Prop :=
  ins = insGetPublicKey ∨ ins = insVerifyAddress ∨ ins = insExportPrivateKey

/-- The initial packet, which only one of the handlers does not insist on. -/
def StartsInitial (c : Apdu) : Prop :=
  c.ins = insConfigureBaker → c.p1 = SignConfigureBaker.p1Initial

instance : DecidablePred StartsInitial := fun _ => inferInstanceAs (Decidable (_ → _))

/-- The instructions that sign an account transaction, with its transaction kind. -/
def transactionKinds : List (UInt8 × UInt8) :=
  [(insSignTransfer, SignTransfer.transfer),
    (insSignTransferWithMemo, SignTransfer.transferWithMemo),
    (insSignTransferWithSchedule, SignTransferWithSchedule.transferWithSchedule),
    (insSignTransferWithScheduleAndMemo, SignTransferWithSchedule.transferWithScheduleWithMemo),
    (insTransferToEncrypted, SignTransferToEncrypted.transferToEncrypted),
    (insEncryptedAmountTransfer, SignEncryptedAmountTransfer.encryptedAmountTransfer),
    (insEncryptedAmountTransferWithMemo,
      SignEncryptedAmountTransfer.encryptedAmountTransferWithMemo),
    (insTransferToPublic, SignTransferToPublic.transferToPublic),
    (insRegisterData, SignRegisterData.registerData),
    (insConfigureBaker, SignConfigureBaker.configureBaker),
    (insConfigureDelegation, SignConfigureDelegation.configureDelegation),
    (insSignUpdateCredential, SignCredentialDeployment.updateCredentials)]

theorem mainHandler_restarts (hsign : ¬ exportsKeys c.ins) (hinit : StartsInitial c) :
    Restarts false false (mainHandler sdk u c true) := by
  unfold exportsKeys at hsign
  push Not at hsign
  obtain ⟨hkey, haddress, hexport⟩ := hsign
  unfold mainHandler
  dsimp only
  rw [if_neg hkey, if_neg haddress]
  by_cases hbaker : c.ins = insConfigureBaker
  · rw [hinit hbaker, hbaker]
    exact inferInstanceAs (Restarts false false (Fw.on u.signConfigureBaker
      (handleSignConfigureBaker sdk c.cdata SignConfigureBaker.p1Initial c.lc true)))
  · simp only [if_neg hexport, if_neg hbaker]
    infer_instance

theorem mainHandler_heads {k : UInt8} (hk : (c.ins, k) ∈ transactionKinds)
    (hinit : StartsInitial c) : Heads 60 [k] (mainHandler sdk u c true) := by
  have hbaker (hins : c.ins = insConfigureBaker) : Heads 60 [SignConfigureBaker.configureBaker]
      (handleSignConfigureBaker sdk c.cdata c.p1 c.lc true) := by
    rw [hinit hins]
    infer_instance
  simp only [transactionKinds, List.mem_cons, List.not_mem_nil, or_false, Prod.mk.injEq] at hk
  unfold mainHandler
  rcases hk with ⟨hins, rfl⟩ | ⟨hins, rfl⟩ | ⟨hins, rfl⟩ | ⟨hins, rfl⟩ | ⟨hins, rfl⟩ |
    ⟨hins, rfl⟩ | ⟨hins, rfl⟩ | ⟨hins, rfl⟩ | ⟨hins, rfl⟩ | ⟨hins, rfl⟩ | ⟨hins, rfl⟩ |
    ⟨hins, rfl⟩
  all_goals rw [hins]
  · show Heads 60 [SignTransfer.transfer]
      (Fw.on u.signTransferContext (handleSignTransfer sdk c.cdata))
    infer_instance
  · show Heads 60 [SignTransfer.transferWithMemo]
      (Fw.on u.signTransferContext (handleSignTransferWithMemo sdk c.cdata c.p1 c.lc true))
    infer_instance
  · show Heads 60 [SignTransferWithSchedule.transferWithSchedule]
      (Fw.on u.signTransferWithScheduleContext
        (handleSignTransferWithSchedule sdk c.cdata c.p1 true))
    infer_instance
  · show Heads 60 [SignTransferWithSchedule.transferWithScheduleWithMemo]
      (Fw.on u.signTransferWithScheduleContext
        (handleSignTransferWithScheduleAndMemo sdk c.cdata c.p1 c.lc true))
    infer_instance
  · show Heads 60 [SignTransferToEncrypted.transferToEncrypted]
      (Fw.on u.signTransferToEncrypted (handleSignTransferToEncrypted sdk c.cdata))
    infer_instance
  · show Heads 60 [SignEncryptedAmountTransfer.encryptedAmountTransfer]
      (Fw.on u.signEncryptedAmountToTransfer
        (handleSignEncryptedAmountTransfer sdk c.cdata c.p1 c.lc true))
    infer_instance
  · show Heads 60 [SignEncryptedAmountTransfer.encryptedAmountTransferWithMemo]
      (Fw.on u.signEncryptedAmountToTransfer
        (handleSignEncryptedAmountTransferWithMemo sdk c.cdata c.p1 c.lc true))
    infer_instance
  · show Heads 60 [SignTransferToPublic.transferToPublic]
      (Fw.on u.signTransferToPublic (handleSignTransferToPublic sdk c.cdata c.p1 c.lc true))
    infer_instance
  · show Heads 60 [SignRegisterData.registerData]
      (Fw.on u.signRegisterData (handleSignRegisterData sdk c.cdata c.p1 c.lc true))
    infer_instance
  · have h := hbaker hins
    show Heads 60 [SignConfigureBaker.configureBaker]
      (Fw.on u.signConfigureBaker (handleSignConfigureBaker sdk c.cdata c.p1 c.lc true))
    infer_instance
  · show Heads 60 [SignConfigureDelegation.configureDelegation]
      (Fw.on u.signConfigureDelegation (handleSignConfigureDelegation sdk c.cdata c.lc))
    infer_instance
  · show Heads 60 [SignCredentialDeployment.updateCredentials]
      (Fw.on u.signCredentialDeploymentContext
        (handleSignUpdateCredential sdk c.cdata c.p1 c.p2 true))
    infer_instance

/-- A credential update also runs the handler of another instruction. -/
theorem mainHandler_keepsHead {k : UInt8} (hk : (c.ins, k) ∈ transactionKinds)
    (hne : c.ins ≠ insSignUpdateCredential) : KeepsHead 60 [k] (mainHandler sdk u c false) := by
  simp only [transactionKinds, List.mem_cons, List.not_mem_nil, or_false, Prod.mk.injEq] at hk
  unfold mainHandler
  rcases hk with ⟨hins, rfl⟩ | ⟨hins, rfl⟩ | ⟨hins, rfl⟩ | ⟨hins, rfl⟩ | ⟨hins, rfl⟩ |
    ⟨hins, rfl⟩ | ⟨hins, rfl⟩ | ⟨hins, rfl⟩ | ⟨hins, rfl⟩ | ⟨hins, rfl⟩ | ⟨hins, rfl⟩ |
    ⟨hins, rfl⟩
  all_goals rw [hins]
  · show KeepsHead 60 [SignTransfer.transfer]
      (Fw.on u.signTransferContext (handleSignTransfer sdk c.cdata))
    infer_instance
  · show KeepsHead 60 [SignTransfer.transferWithMemo]
      (Fw.on u.signTransferContext (handleSignTransferWithMemo sdk c.cdata c.p1 c.lc false))
    infer_instance
  · show KeepsHead 60 [SignTransferWithSchedule.transferWithSchedule]
      (Fw.on u.signTransferWithScheduleContext
        (handleSignTransferWithSchedule sdk c.cdata c.p1 false))
    infer_instance
  · show KeepsHead 60 [SignTransferWithSchedule.transferWithScheduleWithMemo]
      (Fw.on u.signTransferWithScheduleContext
        (handleSignTransferWithScheduleAndMemo sdk c.cdata c.p1 c.lc false))
    infer_instance
  · show KeepsHead 60 [SignTransferToEncrypted.transferToEncrypted]
      (Fw.on u.signTransferToEncrypted (handleSignTransferToEncrypted sdk c.cdata))
    infer_instance
  · show KeepsHead 60 [SignEncryptedAmountTransfer.encryptedAmountTransfer]
      (Fw.on u.signEncryptedAmountToTransfer
        (handleSignEncryptedAmountTransfer sdk c.cdata c.p1 c.lc false))
    infer_instance
  · show KeepsHead 60 [SignEncryptedAmountTransfer.encryptedAmountTransferWithMemo]
      (Fw.on u.signEncryptedAmountToTransfer
        (handleSignEncryptedAmountTransferWithMemo sdk c.cdata c.p1 c.lc false))
    infer_instance
  · show KeepsHead 60 [SignTransferToPublic.transferToPublic]
      (Fw.on u.signTransferToPublic (handleSignTransferToPublic sdk c.cdata c.p1 c.lc false))
    infer_instance
  · show KeepsHead 60 [SignRegisterData.registerData]
      (Fw.on u.signRegisterData (handleSignRegisterData sdk c.cdata c.p1 c.lc false))
    infer_instance
  · show KeepsHead 60 [SignConfigureBaker.configureBaker]
      (Fw.on u.signConfigureBaker (handleSignConfigureBaker sdk c.cdata c.p1 c.lc false))
    infer_instance
  · show KeepsHead 60 [SignConfigureDelegation.configureDelegation]
      (Fw.on u.signConfigureDelegation (handleSignConfigureDelegation sdk c.cdata c.lc))
    infer_instance
  · exact absurd hins hne

end Application

end ConcordiumLedger
