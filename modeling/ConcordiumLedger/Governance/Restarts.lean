import ConcordiumLedger.Common.Restarts
import ConcordiumLedger.Governance.Frames

/-!
# Governance.Restarts

How the sessions of the update instructions of the governance application start.
-/

namespace ConcordiumLedger

open CMem CProg CProg.Prog

set_option synthInstance.maxSize 20000

variable {γ : Type} (sdk : Sdk) (cdata : Ptr) (p1 p2 lc kind : UInt8)

/-! ## The header -/

section Handlers

variable (p h : Bool)

instance : Restarts p h (readUpdateHeader cdata kind : Fw γ Nat) := by
  unfold readUpdateHeader
  infer_instance

instance : Heads 28 [kind] (readUpdateHeader cdata kind : Fw γ Nat) := by
  unfold readUpdateHeader
  infer_instance

/-! ## Updates of one command -/

instance : Restarts p h (handleSignUpdateExchangeRate cdata) := by
  unfold handleSignUpdateExchangeRate
  infer_instance

/-- One of the two exchange rates. -/
instance : Heads 28 [UpdateType.euroPerEnergy, UpdateType.microGtuPerEuro]
    (handleSignUpdateExchangeRate cdata) := by
  refine ⟨fun t => ?_⟩
  have htouch : Moves (γ := SignUpdateExchangeRate.Context) Touched (parseKeyDerivationPath cdata) :=
    inferInstance
  unfold handleSignUpdateExchangeRate
  rw [wp_bind]
  refine wp_mono (htouch.holds t) (fun read t₁ ht₁ => ?_) fun _ _ h => .inl h
  rw [wp_bind, wp_cxSha256Init, wp_bind, wp_updateHash, wp_bind, wp_updateHash]
  let header := (cdata.advance read).slice updateHeaderLength
  let type := ((cdata.advance read).advance updateHeaderLength) 0
  have hhash : Touched t₁.shared (((t₁.shared.sha256Init).updateHash header).updateHash [type]) :=
    Steady.trans (Steady.trans (Inits.sha256Init _) (Steady.updateHash _ _)) (Steady.updateHash _ _)
  have htouched := ht₁.trans hhash
  have hat (ht : type ∈ [UpdateType.euroPerEnergy, UpdateType.microGtuPerEuro]) :
      HeadAt 28 [UpdateType.euroPerEnergy, UpdateType.microGtuPerEuro]
        (((t₁.shared.sha256Init).updateHash header).updateHash [type]) := by
    refine ⟨type, ht, ?_⟩
    simp [header, updateHeaderLength]
  have hkeeps {x : Fw SignUpdateExchangeRate.Context PUnit.{1}}
      [hx : KeepsHead 28 [UpdateType.euroPerEnergy, UpdateType.microGtuPerEuro] x]
      (ht : type ∈ [UpdateType.euroPerEnergy, UpdateType.microGtuPerEuro]) :
      wp x (fun _ t' => HeadAt 28 [UpdateType.euroPerEnergy, UpdateType.microGtuPerEuro] t'.shared)
        (fun _ t' => Touched t.shared t'.shared ∨
          HeadAt 28 [UpdateType.euroPerEnergy, UpdateType.microGtuPerEuro] t'.shared)
        ⟨t₁.ctx, ((t₁.shared.sha256Init).updateHash header).updateHash [type]⟩ :=
    wp_mono (hx.holds _ (hat ht)) (fun _ _ h => h) fun _ _ h => h.imp_left htouched.trans
  dsimp only
  refine (wp_ite _ _ _).mpr ⟨fun heuro => hkeeps (by simp [type, heuro]), fun _ => ?_⟩
  refine (wp_ite _ _ _).mpr ⟨fun hmicro => hkeeps (by simp [type, hmicro]), fun _ => ?_⟩
  exact .inl htouched

instance : Restarts p h (handleSignUpdateFoundationAccount sdk cdata) := by
  unfold handleSignUpdateFoundationAccount
  infer_instance

instance : Heads 28 [UpdateType.foundationAccount]
    (handleSignUpdateFoundationAccount sdk cdata) := by
  unfold handleSignUpdateFoundationAccount
  infer_instance

instance : Restarts p h (handleSignUpdateGasRewards cdata) := by
  unfold handleSignUpdateGasRewards
  infer_instance

instance : Heads 28 [UpdateType.gasRewardsCpv2] (handleSignUpdateGasRewards cdata) := by
  unfold handleSignUpdateGasRewards
  infer_instance

instance : Restarts p h (handleSignUpdateMintDistribution cdata p2) := by
  unfold handleSignUpdateMintDistribution
  infer_instance

instance : Heads 28 [UpdateType.mintDistributionV1]
    (handleSignUpdateMintDistribution cdata p2) := by
  unfold handleSignUpdateMintDistribution
  infer_instance

instance : Restarts p h (handleSignUpdateTransactionFeeDistribution cdata) := by
  unfold handleSignUpdateTransactionFeeDistribution
  infer_instance

instance : Heads 28 [UpdateType.transactionFeeDistribution]
    (handleSignUpdateTransactionFeeDistribution cdata) := by
  unfold handleSignUpdateTransactionFeeDistribution
  infer_instance

instance : Restarts p h (handleSignUpdateBakerStakeThreshold cdata) := by
  unfold handleSignUpdateBakerStakeThreshold
  infer_instance

instance : Heads 28 [UpdateType.bakerStakeThreshold]
    (handleSignUpdateBakerStakeThreshold cdata) := by
  unfold handleSignUpdateBakerStakeThreshold
  infer_instance

instance : Restarts p h (handleSignUpdateTimeParameters cdata) := by
  unfold handleSignUpdateTimeParameters
  infer_instance

instance : Heads 28 [UpdateType.timeParameters] (handleSignUpdateTimeParameters cdata) := by
  unfold handleSignUpdateTimeParameters
  infer_instance

instance : Restarts p h (handleSignUpdateCooldownParameters cdata) := by
  unfold handleSignUpdateCooldownParameters
  infer_instance

instance : Heads 28 [UpdateType.cooldownParameters] (handleSignUpdateCooldownParameters cdata) := by
  unfold handleSignUpdateCooldownParameters
  infer_instance

instance : Restarts p h (handleSignTimeoutParameters cdata) := by
  unfold handleSignTimeoutParameters
  infer_instance

instance : Heads 28 [UpdateType.timeoutParameters] (handleSignTimeoutParameters cdata) := by
  unfold handleSignTimeoutParameters
  infer_instance

instance : Restarts p h (handleSignMinBlockTime cdata) := by
  unfold handleSignMinBlockTime
  infer_instance

instance : Heads 28 [UpdateType.minBlockTime] (handleSignMinBlockTime cdata) := by
  unfold handleSignMinBlockTime
  infer_instance

instance : Restarts p h (handleSignUpdateBlockEnergyLimit cdata) := by
  unfold handleSignUpdateBlockEnergyLimit
  infer_instance

instance : Heads 28 [UpdateType.blockEnergyLimit] (handleSignUpdateBlockEnergyLimit cdata) := by
  unfold handleSignUpdateBlockEnergyLimit
  infer_instance

instance : Restarts p h (handleSignUpdateFinalizationCommitteeParameters cdata) := by
  unfold handleSignUpdateFinalizationCommitteeParameters
  infer_instance

instance : Heads 28 [UpdateType.finalizationCommitteeParameters]
    (handleSignUpdateFinalizationCommitteeParameters cdata) := by
  unfold handleSignUpdateFinalizationCommitteeParameters
  infer_instance

instance : Restarts p h (handleSignUpdateValidatorScoreParameters cdata) := by
  unfold handleSignUpdateValidatorScoreParameters
  infer_instance

instance : Heads 28 [UpdateType.validatorScoreParameters]
    (handleSignUpdateValidatorScoreParameters cdata) := by
  unfold handleSignUpdateValidatorScoreParameters
  infer_instance

/-! ## Updates of several commands -/

instance : Restarts p h (SignUpdateProtocol.handleInitial cdata) := by
  unfold SignUpdateProtocol.handleInitial
  infer_instance

instance : Heads 28 [UpdateType.protocol] (SignUpdateProtocol.handleInitial cdata) := by
  unfold SignUpdateProtocol.handleInitial
  infer_instance

instance : Restarts p h (handleSignUpdateProtocol cdata p1 lc true) := by
  unfold handleSignUpdateProtocol
  refine Restarts.opening _ fun c => ?_
  simp only [reduceCtorEq, and_false, if_false]
  infer_instance

instance : Heads 28 [UpdateType.protocol] (handleSignUpdateProtocol cdata p1 lc true) := by
  unfold handleSignUpdateProtocol
  refine Heads.opening _ fun c => ?_
  simp only [reduceCtorEq, and_false, if_false]
  infer_instance

instance : KeepsHead 28 [UpdateType.protocol] (handleSignUpdateProtocol cdata p1 lc false) := by
  unfold handleSignUpdateProtocol
  infer_instance

instance : Restarts p h (SignUpdatePoolParameters.handleInitial cdata) := by
  unfold SignUpdatePoolParameters.handleInitial
  infer_instance

instance : Heads 28 [UpdateType.poolParameters] (SignUpdatePoolParameters.handleInitial cdata) := by
  unfold SignUpdatePoolParameters.handleInitial
  infer_instance

instance : Restarts p h (handleSignUpdatePoolParameters cdata p1 true) := by
  unfold handleSignUpdatePoolParameters
  refine Restarts.opening _ fun c => ?_
  simp only [reduceCtorEq, and_false, if_false]
  infer_instance

instance : Heads 28 [UpdateType.poolParameters] (handleSignUpdatePoolParameters cdata p1 true) := by
  unfold handleSignUpdatePoolParameters
  refine Heads.opening _ fun c => ?_
  simp only [reduceCtorEq, and_false, if_false]
  infer_instance

instance : KeepsHead 28 [UpdateType.poolParameters]
    (handleSignUpdatePoolParameters cdata p1 false) := by
  unfold handleSignUpdatePoolParameters
  infer_instance

instance : Restarts p h (SignHigherLevelKeyUpdate.handleInitial cdata kind) := by
  unfold SignHigherLevelKeyUpdate.handleInitial
  infer_instance

instance : Heads 28 [kind] (SignHigherLevelKeyUpdate.handleInitial cdata kind) := by
  unfold SignHigherLevelKeyUpdate.handleInitial
  infer_instance

instance : Restarts p h (handleSignHigherLevelKeys cdata p1 kind true) := by
  unfold handleSignHigherLevelKeys
  refine Restarts.opening _ fun c => ?_
  simp only [reduceCtorEq, and_false, if_false]
  infer_instance

instance : Heads 28 [kind] (handleSignHigherLevelKeys cdata p1 kind true) := by
  unfold handleSignHigherLevelKeys
  refine Heads.opening _ fun c => ?_
  simp only [reduceCtorEq, and_false, if_false]
  infer_instance

instance : KeepsHead 28 [kind] (handleSignHigherLevelKeys cdata p1 kind false) := by
  unfold handleSignHigherLevelKeys
  infer_instance

instance : Restarts p h (SignUpdateAuthorizations.handleInitial cdata p2 kind) := by
  unfold SignUpdateAuthorizations.handleInitial
  infer_instance

instance : Heads 28 [kind] (SignUpdateAuthorizations.handleInitial cdata p2 kind) := by
  unfold SignUpdateAuthorizations.handleInitial
  infer_instance

instance : Restarts p h (handleSignUpdateAuthorizations cdata p1 p2 kind lc true) := by
  unfold handleSignUpdateAuthorizations
  refine @Restarts.bind _ _ _ _ _ _ _ _ fun _ => ?_
  refine Restarts.opening _ fun c => ?_
  simp only [reduceCtorEq, and_false, false_and, if_false]
  infer_instance

instance : Heads 28 [kind] (handleSignUpdateAuthorizations cdata p1 p2 kind lc true) := by
  unfold handleSignUpdateAuthorizations
  refine @Heads.bind _ _ _ _ _ _ _ _ fun _ => ?_
  refine Heads.opening _ fun c => ?_
  simp only [reduceCtorEq, and_false, false_and, if_false]
  infer_instance

instance : KeepsHead 28 [kind] (handleSignUpdateAuthorizations cdata p1 p2 kind lc false) := by
  unfold handleSignUpdateAuthorizations
  infer_instance

instance : Restarts p h (SignCreatePlt.handleInitial cdata) := by
  unfold SignCreatePlt.handleInitial
  infer_instance

instance : Heads 28 [UpdateType.createPlt] (SignCreatePlt.handleInitial cdata) := by
  unfold SignCreatePlt.handleInitial
  infer_instance

instance : Restarts p h (handleSignCreatePlt cdata p1 lc true) := by
  unfold handleSignCreatePlt
  refine Restarts.opening _ fun c => ?_
  simp only [reduceCtorEq, and_false, if_false]
  infer_instance

instance : Heads 28 [UpdateType.createPlt] (handleSignCreatePlt cdata p1 lc true) := by
  unfold handleSignCreatePlt
  refine Heads.opening _ fun c => ?_
  simp only [reduceCtorEq, and_false, if_false]
  infer_instance

instance : KeepsHead 28 [UpdateType.createPlt] (handleSignCreatePlt cdata p1 lc false) := by
  unfold handleSignCreatePlt
  infer_instance

/-! ## The two contexts that share their struct with a description -/

instance (f : γ → γ) : Still (WithDescription.modifyInner f) :=
  inferInstanceAs (Still (Fw.modifyCtx _))

theorem Restarts.openingInner {p h : Bool} (f : γ → γ) {k : γ → Fw (WithDescription γ) PUnit.{1}}
    (hk : ∀ a, Restarts p h (k (f a))) :
    Restarts p h (Fw.when (true = true) (WithDescription.modifyInner f) >>= fun _ =>
      WithDescription.getInner >>= k) := by
  refine ⟨fun s t ht => ?_⟩
  rw [wp_bind, Fw.wp_when]
  refine ⟨fun _ => ?_, fun hn => absurd rfl hn⟩
  exact (hk t.ctx.inner).holds s ⟨⟨f t.ctx.inner, t.ctx.description⟩, t.shared⟩ ht

theorem Heads.openingInner {n : Nat} {ks : List UInt8} (f : γ → γ)
    {k : γ → Fw (WithDescription γ) PUnit.{1}} (hk : ∀ a, Heads n ks (k (f a))) :
    Heads n ks (Fw.when (true = true) (WithDescription.modifyInner f) >>= fun _ =>
      WithDescription.getInner >>= k) := by
  refine ⟨fun t => ?_⟩
  rw [wp_bind, Fw.wp_when]
  refine ⟨fun _ => ?_, fun hn => absurd rfl hn⟩
  exact (hk t.ctx.inner).holds ⟨⟨f t.ctx.inner, t.ctx.description⟩, t.shared⟩

instance : Restarts p h (SignAddIdentityProvider.handleInitial cdata) := by
  unfold SignAddIdentityProvider.handleInitial
  infer_instance

instance : Heads 28 [UpdateType.addIdentityProvider]
    (SignAddIdentityProvider.handleInitial cdata) := by
  unfold SignAddIdentityProvider.handleInitial
  infer_instance

instance : Restarts p h (handleSignAddIdentityProvider sdk cdata p1 lc true) := by
  unfold handleSignAddIdentityProvider
  refine Restarts.openingInner _ fun c => ?_
  simp only [reduceCtorEq, and_false, if_false]
  infer_instance

instance : Heads 28 [UpdateType.addIdentityProvider]
    (handleSignAddIdentityProvider sdk cdata p1 lc true) := by
  unfold handleSignAddIdentityProvider
  refine Heads.openingInner _ fun c => ?_
  simp only [reduceCtorEq, and_false, if_false]
  infer_instance

instance : KeepsHead 28 [UpdateType.addIdentityProvider]
    (handleSignAddIdentityProvider sdk cdata p1 lc false) := by
  unfold handleSignAddIdentityProvider
  infer_instance

instance : Restarts p h (SignAddAnonymityRevoker.handleInitial cdata) := by
  unfold SignAddAnonymityRevoker.handleInitial
  infer_instance

instance : Heads 28 [UpdateType.addAnonymityRevoker]
    (SignAddAnonymityRevoker.handleInitial cdata) := by
  unfold SignAddAnonymityRevoker.handleInitial
  infer_instance

instance : Restarts p h (handleSignAddAnonymityRevoker cdata p1 lc true) := by
  unfold handleSignAddAnonymityRevoker
  refine Restarts.openingInner _ fun c => ?_
  simp only [reduceCtorEq, and_false, if_false]
  infer_instance

instance : Heads 28 [UpdateType.addAnonymityRevoker]
    (handleSignAddAnonymityRevoker cdata p1 lc true) := by
  unfold handleSignAddAnonymityRevoker
  refine Heads.openingInner _ fun c => ?_
  simp only [reduceCtorEq, and_false, if_false]
  infer_instance

instance : KeepsHead 28 [UpdateType.addAnonymityRevoker]
    (handleSignAddAnonymityRevoker cdata p1 lc false) := by
  unfold handleSignAddAnonymityRevoker
  infer_instance

end Handlers

/-! ## The application -/

section Application

variable {μ ν : Type} {sdk} {u : GovernanceContext μ ν} {c : Apdu}

/-- The instructions that sign an update, with the update types that they accept. -/
def updateTypes : List (UInt8 × List UInt8) :=
  [(insUpdateExchangeRate, [UpdateType.euroPerEnergy, UpdateType.microGtuPerEuro]),
    (insUpdateProtocol, [UpdateType.protocol]),
    (insUpdateTransactionFeeDist, [UpdateType.transactionFeeDistribution]),
    (insUpdateGasRewards, [UpdateType.gasRewardsCpv2]),
    (insUpdateFoundationAccount, [UpdateType.foundationAccount]),
    (insUpdateMintDistribution, [UpdateType.mintDistributionV1]),
    (insUpdateBakerStakeThreshold, [UpdateType.bakerStakeThreshold]),
    (insUpdateRootKeys, [UpdateType.updateRootKeys]),
    (insUpdateLevel1Keys, [UpdateType.updateLevel1Keys]),
    (insUpdateLevel2KeysRoot, [UpdateType.updateRootKeys]),
    (insUpdateLevel2KeysLevel1, [UpdateType.updateLevel1Keys]),
    (insAddIdentityProvider, [UpdateType.addIdentityProvider]),
    (insAddAnonymityRevoker, [UpdateType.addAnonymityRevoker]),
    (insUpdateTimeParameters, [UpdateType.timeParameters]),
    (insUpdateCooldownParameters, [UpdateType.cooldownParameters]),
    (insUpdatePoolParameters, [UpdateType.poolParameters]),
    (insUpdateTimeoutParameters, [UpdateType.timeoutParameters]),
    (insUpdateMinBlockTime, [UpdateType.minBlockTime]),
    (insUpdateBlockEnergyLimit, [UpdateType.blockEnergyLimit]),
    (insUpdateFinalizationCommitteeParameters, [UpdateType.finalizationCommitteeParameters]),
    (insUpdateValidatorScoreParameters, [UpdateType.validatorScoreParameters]),
    (insCreatePlt, [UpdateType.createPlt])]

theorem governanceHandler_restarts (hkey : c.ins ≠ governanceInsGetPublicKey) :
    Restarts false false (governanceHandler sdk u c true) := by
  unfold governanceHandler
  dsimp only
  rw [if_neg hkey]
  infer_instance

theorem governanceHandler_heads {ks : List UInt8} (hk : (c.ins, ks) ∈ updateTypes) :
    Heads 28 ks (governanceHandler sdk u c true) := by
  simp only [updateTypes, List.mem_cons, List.not_mem_nil, or_false, Prod.mk.injEq] at hk
  unfold governanceHandler
  dsimp only
  rcases hk with ⟨hins, rfl⟩ | ⟨hins, rfl⟩ | ⟨hins, rfl⟩ | ⟨hins, rfl⟩ | ⟨hins, rfl⟩ |
    ⟨hins, rfl⟩ | ⟨hins, rfl⟩ | ⟨hins, rfl⟩ | ⟨hins, rfl⟩ | ⟨hins, rfl⟩ | ⟨hins, rfl⟩ |
    ⟨hins, rfl⟩ | ⟨hins, rfl⟩ | ⟨hins, rfl⟩ | ⟨hins, rfl⟩ | ⟨hins, rfl⟩ | ⟨hins, rfl⟩ |
    ⟨hins, rfl⟩ | ⟨hins, rfl⟩ | ⟨hins, rfl⟩ | ⟨hins, rfl⟩ | ⟨hins, rfl⟩
  all_goals rw [hins]
  all_goals repeat rw [if_neg (by decide)]
  all_goals rw [if_pos rfl]
  all_goals infer_instance

theorem governanceHandler_keepsHead {ks : List UInt8} (hk : (c.ins, ks) ∈ updateTypes) :
    KeepsHead 28 ks (governanceHandler sdk u c false) := by
  simp only [updateTypes, List.mem_cons, List.not_mem_nil, or_false, Prod.mk.injEq] at hk
  unfold governanceHandler
  dsimp only
  rcases hk with ⟨hins, rfl⟩ | ⟨hins, rfl⟩ | ⟨hins, rfl⟩ | ⟨hins, rfl⟩ | ⟨hins, rfl⟩ |
    ⟨hins, rfl⟩ | ⟨hins, rfl⟩ | ⟨hins, rfl⟩ | ⟨hins, rfl⟩ | ⟨hins, rfl⟩ | ⟨hins, rfl⟩ |
    ⟨hins, rfl⟩ | ⟨hins, rfl⟩ | ⟨hins, rfl⟩ | ⟨hins, rfl⟩ | ⟨hins, rfl⟩ | ⟨hins, rfl⟩ |
    ⟨hins, rfl⟩ | ⟨hins, rfl⟩ | ⟨hins, rfl⟩ | ⟨hins, rfl⟩ | ⟨hins, rfl⟩
  all_goals rw [hins]
  all_goals repeat rw [if_neg (by decide)]
  all_goals rw [if_pos rfl]
  all_goals infer_instance

end Application

end ConcordiumLedger
