import ConcordiumLedger.Common.AmountDisplay
import ConcordiumLedger.Common.Reviews
import ConcordiumLedger.Common.ZeroAddress
import ConcordiumLedger.Governance.Frames
import ConcordiumLedger.Governance.Rules
import ConcordiumLedger.Lib.Encoding

/-!
# Governance.UpdatesShown

The updates of chain parameters that come in a single command and whose texts are all terminated:
whatever else the host does, the Sign screen of their session shows each parameter that is signed.

* `ParameterUpdate` — what is signed after the header, and the steps that show it.
* `UpdateShown`     — what is hashed is such an update, and the flow shows it.
* `updates_signed_as_shown` — over all runs.
* `updates_shown_apart`     — updates that look alike, in two runs.
-/

namespace ConcordiumLedger

open CMem CProg CProg.Prog Transition

variable {μ ν : Type}

/-! ## Updates -/

inductive ParameterUpdate where
  | gasRewards (baker accountCreation chainUpdate : UInt32)
  | mintDistribution (bakerReward finalizationReward : UInt32)
  | transactionFeeDistribution (baker gasAccount : UInt32)
  | minBlockTime (duration : UInt64)
  | finalizationCommittee (minFinalizers maxFinalizers relativeStakeThreshold : UInt32)

namespace ParameterUpdate

def ins : ParameterUpdate → UInt8
  | gasRewards .. => insUpdateGasRewards
  | mintDistribution .. => insUpdateMintDistribution
  | transactionFeeDistribution .. => insUpdateTransactionFeeDist
  | minBlockTime .. => insUpdateMinBlockTime
  | finalizationCommittee .. => insUpdateFinalizationCommitteeParameters

def type : ParameterUpdate → UInt8
  | gasRewards .. => UpdateType.gasRewardsCpv2
  | mintDistribution .. => UpdateType.mintDistributionV1
  | transactionFeeDistribution .. => UpdateType.transactionFeeDistribution
  | minBlockTime .. => UpdateType.minBlockTime
  | finalizationCommittee .. => UpdateType.finalizationCommitteeParameters

def payload : ParameterUpdate → List UInt8
  | gasRewards baker accountCreation chainUpdate =>
    beBytes 4 baker.toNat ++ beBytes 4 accountCreation.toNat ++ beBytes 4 chainUpdate.toNat
  | mintDistribution bakerReward finalizationReward =>
    beBytes 4 bakerReward.toNat ++ beBytes 4 finalizationReward.toNat
  | transactionFeeDistribution baker gasAccount =>
    beBytes 4 baker.toNat ++ beBytes 4 gasAccount.toNat
  | minBlockTime duration => beBytes 8 duration.toNat
  | finalizationCommittee minFinalizers maxFinalizers relativeStakeThreshold =>
    beBytes 4 minFinalizers.toNat ++ beBytes 4 maxFinalizers.toNat ++
      beBytes 4 relativeStakeThreshold.toNat

/-- A part of 100000. -/
def percentage (part : UInt32) : List UInt8 := fixedPoint 3 part.toNat ++ [37]

/-- The titles and the texts of the parameters. -/
def fields : ParameterUpdate → List (String × List UInt8)
  | gasRewards baker accountCreation chainUpdate =>
    [ ("Baker", percentage baker), ("Account creation", percentage accountCreation),
      ("Chain update", percentage chainUpdate) ]
  | mintDistribution bakerReward finalizationReward =>
    [ ("Baker reward", percentage bakerReward),
      ("Finalization reward", percentage finalizationReward) ]
  | transactionFeeDistribution baker gasAccount =>
    [("Baker fee", percentage baker), ("GAS account fee", percentage gasAccount)]
  | minBlockTime duration => [("Min block time", decimal duration.toNat ++ ascii " ms")]
  | finalizationCommittee minFinalizers maxFinalizers relativeStakeThreshold =>
    [ ("Min finalizers", decimal minFinalizers.toNat),
      ("Max finalizers", decimal maxFinalizers.toNat),
      ("Stake threshold", percentage relativeStakeThreshold) ]

/-- The titles and the texts of the flow. -/
def texts (update : ParameterUpdate) : List (String × Option (List UInt8)) :=
  [ ("Review", some (ascii "transaction")),
    ("Update type", some (ascii (getUpdateTypeText update.type))) ] ++
  update.fields.map (fun field => (field.1, some field.2)) ++
  [("Sign", some (ascii "transaction")), ("Decline to", some (ascii "sign transaction"))]

/-- Updates whose fields are shown alike are the same. -/
theorem fields_inj {a b : ParameterUpdate} (h : a.fields = b.fields) : a = b := by
  have hpercentage {m n : UInt32} (h : percentage m = percentage n) : m = n :=
    UInt32.toNat_inj.mp (fixedPoint_inj (List.append_cancel_right h))
  cases a <;> cases b <;> simp [fields] at h
  case gasRewards.gasRewards =>
    obtain ⟨h₁, h₂, h₃⟩ := h
    rw [hpercentage h₁, hpercentage h₂, hpercentage h₃]
  case mintDistribution.mintDistribution =>
    obtain ⟨h₁, h₂⟩ := h
    rw [hpercentage h₁, hpercentage h₂]
  case transactionFeeDistribution.transactionFeeDistribution =>
    obtain ⟨h₁, h₂⟩ := h
    rw [hpercentage h₁, hpercentage h₂]
  case minBlockTime.minBlockTime =>
    rw [UInt64.toNat_inj.mp (decimal_inj h)]
  case finalizationCommittee.finalizationCommittee =>
    obtain ⟨h₁, h₂, h₃⟩ := h
    rw [UInt32.toNat_inj.mp (decimal_inj h₁), UInt32.toNat_inj.mp (decimal_inj h₂),
      hpercentage h₃]

theorem texts_inj {a b : ParameterUpdate} (h : a.texts = b.texts) : a = b := by
  have hfields := (List.append_inj (List.append_cancel_right h) rfl).2
  refine fields_inj (List.map_injective_iff.mpr (fun x y hxy => ?_) hfields)
  obtain ⟨htitle, htext⟩ := Prod.mk.inj hxy
  exact Prod.ext htitle (Option.some.inj htext)

theorem shown_updateType :
    ∀ t ∈ [ UpdateType.gasRewardsCpv2, UpdateType.mintDistributionV1,
        UpdateType.transactionFeeDistribution, UpdateType.minBlockTime,
        UpdateType.finalizationCommitteeParameters ],
      cString (updateTypeText t).bytes = some (ascii (getUpdateTypeText t)) := by
  decide +kernel

theorem shown_type (update : ParameterUpdate) :
    cString (updateTypeText update.type).bytes =
      some (ascii (getUpdateTypeText update.type)) :=
  shown_updateType _ (by cases update <;> simp [type])

end ParameterUpdate

open ParameterUpdate

/-- What is hashed is an update of the instruction, and the flow shows it. The header has the
sequence number, the effective time, the timeout and the size of the payload. -/
def UpdateShown (i : UInt8) (flow : List Step) (input : List UInt8) : Prop :=
  ∃ (header : List UInt8) (update : ParameterUpdate), header.length = 28 ∧ update.ins = i ∧
    input = header ++ [update.type] ++ update.payload ∧ flowTexts flow = update.texts

/-- The flow of an update, and what it has hashed. -/
theorem shown_of_steps {cdata : Ptr} (update : ParameterUpdate) {steps : List Step}
    {input : List UInt8} (htype : updateTypeOf cdata = update.type)
    (hinput : input = updateHeaderOf cdata ++ update.payload) (hnone : Only [.none] steps)
    (hsteps : flowTexts steps = update.fields.map fun field => (field.1, some field.2)) :
    let flow := [uxSignFlowSharedReview, uxUpdateType (updateTypeText update.type)] ++ steps ++
      uxSignAndDecline
    Only ScreenKind.shared.callbacks flow ∧ UpdateShown update.ins flow input := by
  refine ⟨?_, headerBefore cdata, update, Ptr.slice_length _ _, rfl, ?_, ?_⟩
  · have hreview : Only ScreenKind.shared.callbacks
        [uxSignFlowSharedReview, uxUpdateType (updateTypeText update.type)] := by
      simp [Only, ScreenKind.callbacks, uxSignFlowSharedReview, uxUpdateType]
    have hsign : Only ScreenKind.shared.callbacks uxSignAndDecline := by decide
    exact (hreview.append (hnone.mono (by decide))).append hsign
  · rw [hinput, updateHeaderOf_eq, htype]
  · have hreview : flowTexts [uxSignFlowSharedReview, uxUpdateType (updateTypeText update.type)] =
        [ ("Review", some (ascii "transaction")),
          ("Update type", some (ascii (getUpdateTypeText update.type))) ] := by
      simp only [flowTexts, List.map_cons, List.map_nil, Step.shown, uxSignFlowSharedReview,
        uxUpdateType, update.shown_type]
      rw [cString_literal _ (by decide)]
    have hsign : flowTexts uxSignAndDecline =
        [ ("Sign", some (ascii "transaction")),
          ("Decline to", some (ascii "sign transaction")) ] := by
      simp only [flowTexts, List.map_cons, List.map_nil, Step.shown, uxSignAndDecline,
        uxSignFlowSharedSign, uxSignFlowSharedDecline]
      rw [cString_literal _ (by decide), cString_literal _ (by decide)]
    rw [flowTexts_append, flowTexts_append, hreview, hsteps, hsign, texts]

/-! ## Texts -/

/-- Eleven bytes take any number of 32 bits with its NUL. -/
theorem cString_u32 {number : UInt32} {text : List UInt8} (b : Buffer 11)
    (h : bin2dec 11 number.toUInt64 = .ok text) :
    cString (b.memmove 0 text).bytes = some (decimal number.toNat) := by
  have hn : number.toUInt64.toNat = number.toNat := by simp
  have hlen := decimal_length number.toUInt64
  have hle : lengthOfNumber number.toUInt64 ≤ 10 :=
    lengthOfNumber_le _ (by decide) (by rw [hn]; have := number.toNat_lt; omega)
  rw [bin2dec_eq h, hn]
  rw [hn] at hlen
  exact cString_memmove b _ (zero_not_mem_decimal _) (by omega)

theorem cString_milliseconds {number : UInt64} {text : List UInt8} (b : Buffer 25)
    (h : numberToTextWithUnit 25 number "ms" = .ok text) :
    cString (b.memmove 0 text).bytes = some (decimal number.toNat ++ ascii " ms") := by
  have hlen := decimal_length number
  have h20 := lengthOfNumber_le_twenty number
  obtain ⟨digits, hdigits, h⟩ := except_bind_ok h
  have heq := numberToText_eq hdigits
  split at h
  · cases h
  · cases h
    have htext : digits ++ [32] ++ literal "ms" = decimal number.toNat ++ ascii " ms" ++ [0] := by
      rw [heq, List.append_assoc, List.append_assoc]
      rfl
    have hzero : 0 ∉ decimal number.toNat ++ ascii " ms" := by
      intro hz
      rcases List.mem_append.mp hz with hz | hz
      · exact zero_not_mem_decimal _ hz
      · exact absurd hz (by decide)
    rw [htext]
    refine cString_memmove b _ hzero ?_
    rw [List.length_append]
    show _ + 3 < 25
    omega

/-! ## Handlers -/

section Handlers

variable {γ : Type}

/-- A rejected header leaves the screen as it is. -/
theorem wp_readUpdateHeader_display {Q : Nat → Device γ → Prop} {E : Error → Device γ → Prop}
    {d : Device γ} {cdata : Ptr} {updateType : UInt8}
    (h : ∀ s', UpdateHashed cdata d.shared s' → updateTypeOf cdata = updateType →
      Q (1 + 4 * (cdata 0).toNat + 29) ⟨d.ctx, s'⟩)
    (he : ∀ e s', s'.display = d.shared.display → E e ⟨d.ctx, s'⟩) :
    wp (readUpdateHeader cdata updateType) Q E d := by
  simp only [readUpdateHeader, hashUpdateHeaderAndType, hashHeaderAndType, wp_bind,
    wp_parseKeyDerivationPath, wp_cxSha256Init, wp_updateHash, Fw.wp_throwIf, wp_pure]
  exact ⟨fun _ => he _ _ rfl, fun _ => ⟨fun _ => he _ _ rfl, fun htype =>
    h _ (updateHashed cdata d.shared) (not_not.mp htype)⟩⟩

/-- The handler fails before a flow comes up, or the flow shows what was hashed. -/
def ShowsUpdate (i : UInt8) (h : Fw γ PUnit) : Prop :=
  ∀ t, wp h
    (fun _ t' => Only ScreenKind.shared.callbacks t'.shared.display ∧
      UpdateShown i t'.shared.display t'.shared.hash)
    (fun _ t' => t'.shared.display = t.shared.display) t

/-- Three words. -/
theorem slice_twelve (p : Ptr) : p.slice 12 =
    beBytes 4 (p.u4be 0).toNat ++ beBytes 4 (p.u4be 4).toNat ++ beBytes 4 (p.u4be 8).toNat := by
  have hword (n : Nat) : (p.advance n).slice 4 = beBytes 4 (p.u4be n).toNat := by
    rw [Ptr.slice_four, Ptr.u4be, Ptr.u4be, Ptr.advance_zero]
  rw [show 12 = 4 + 4 + 4 from rfl, Ptr.slice_add, Ptr.slice_add, hword, hword]
  rw [Ptr.slice_four]

theorem handleSignUpdateGasRewards_shows (cdata : Ptr) :
    ShowsUpdate insUpdateGasRewards (handleSignUpdateGasRewards cdata) := by
  intro t
  simp only [handleSignUpdateGasRewards, wp_bind]
  refine wp_readUpdateHeader_display (fun s' hs htype => ?_) (fun e s' hs => hs)
  simp only [wp_bind, Fw.wp_modifyCtx, wp_updateHash, Fw.wp_eval, wp_uxFlowInit, wp_waitForButton]
  refine ⟨fun baker hbaker => ⟨fun creation hcreation => ⟨fun chain hchain => ?_,
    fun _ _ => hs.display⟩, fun _ _ => hs.display⟩, fun _ _ => hs.display⟩
  refine shown_of_steps (.gasRewards ((updatePayload cdata).u4be 0) ((updatePayload cdata).u4be 4)
    ((updatePayload cdata).u4be 8)) htype ?_ (by simp [Only]) ?_
  · show s'.hash ++ (updatePayload cdata).slice 12 = _
    rw [hs.hash, slice_twelve]
    rfl
  · simp only [flowTexts, List.map_cons, List.map_nil, Step.shown, fields]
    rw [cString_percentage _ hbaker, cString_percentage _ hcreation, cString_percentage _ hchain]
    rfl

theorem handleSignUpdateMintDistribution_shows (cdata : Ptr) (p2 : UInt8) :
    ShowsUpdate insUpdateMintDistribution (handleSignUpdateMintDistribution cdata p2) := by
  intro t
  simp only [handleSignUpdateMintDistribution, wp_bind, Fw.wp_throwIf]
  refine ⟨fun _ => trivial, fun _ => ?_⟩
  refine wp_readUpdateHeader_display (fun s' hs htype => ?_) (fun e s' hs => hs)
  simp only [wp_bind, Fw.wp_modifyCtx, wp_updateHash, Fw.wp_eval, wp_uxFlowInit, wp_waitForButton]
  refine ⟨fun baker hbaker => ⟨fun finalization hfinalization => ?_, fun _ _ => hs.display⟩,
    fun _ _ => hs.display⟩
  refine shown_of_steps (.mintDistribution ((updatePayload cdata).u4be 0)
    (((updatePayload cdata).advance 4).u4be 0)) htype ?_ (by simp [Only]) ?_
  · show s'.hash ++ (updatePayload cdata).slice 4 ++ ((updatePayload cdata).advance 4).slice 4 = _
    rw [hs.hash, Ptr.slice_four, Ptr.slice_four, List.append_assoc]
    rfl
  · simp only [flowTexts, List.map_cons, List.map_nil, Step.shown, fields]
    rw [cString_percentage _ hbaker, cString_percentage _ hfinalization]
    rfl

theorem handleSignUpdateTransactionFeeDistribution_shows (cdata : Ptr) :
    ShowsUpdate insUpdateTransactionFeeDist (handleSignUpdateTransactionFeeDistribution cdata) := by
  intro t
  simp only [handleSignUpdateTransactionFeeDistribution, wp_bind]
  refine wp_readUpdateHeader_display (fun s' hs htype => ?_) (fun e s' hs => hs)
  simp only [wp_bind, Fw.wp_modifyCtx, wp_updateHash, Fw.wp_eval, wp_uxFlowInit, wp_waitForButton]
  refine ⟨fun baker hbaker => ⟨fun gas hgas => ?_, fun _ _ => hs.display⟩, fun _ _ => hs.display⟩
  refine shown_of_steps (.transactionFeeDistribution ((updatePayload cdata).u4be 0)
    (((updatePayload cdata).advance 4).u4be 0)) htype ?_ (by simp [Only]) ?_
  · show s'.hash ++ (updatePayload cdata).slice 4 ++ ((updatePayload cdata).advance 4).slice 4 = _
    rw [hs.hash, Ptr.slice_four, Ptr.slice_four, List.append_assoc]
    rfl
  · simp only [flowTexts, List.map_cons, List.map_nil, Step.shown, fields]
    rw [cString_percentage _ hbaker, cString_percentage _ hgas]
    rfl

theorem handleSignMinBlockTime_shows (cdata : Ptr) :
    ShowsUpdate insUpdateMinBlockTime (handleSignMinBlockTime cdata) := by
  intro t
  simp only [handleSignMinBlockTime, wp_bind]
  refine wp_readUpdateHeader_display (fun s' hs htype => ?_) (fun e s' hs => hs)
  simp only [wp_bind, Fw.wp_modifyCtx, wp_updateHash, Fw.wp_eval, wp_uxFlowInit, wp_waitForButton]
  refine ⟨fun duration hduration => ?_, fun _ _ => hs.display⟩
  refine shown_of_steps (.minBlockTime ((updatePayload cdata).u8be 0)) htype ?_ (by simp [Only]) ?_
  · show s'.hash ++ (updatePayload cdata).slice 8 = _
    rw [hs.hash, Ptr.slice_eight]
    rfl
  · simp only [flowTexts, List.map_cons, List.map_nil, Step.shown, fields]
    rw [cString_milliseconds _ hduration]
    rfl

theorem handleSignUpdateFinalizationCommitteeParameters_shows (cdata : Ptr) :
    ShowsUpdate insUpdateFinalizationCommitteeParameters
      (handleSignUpdateFinalizationCommitteeParameters cdata) := by
  intro t
  simp only [handleSignUpdateFinalizationCommitteeParameters, wp_bind]
  refine wp_readUpdateHeader_display (fun s' hs htype => ?_) (fun e s' hs => hs)
  simp only [wp_bind, Fw.wp_modifyCtx, wp_updateHash, Fw.wp_eval, wp_uxFlowInit, wp_waitForButton]
  refine ⟨fun least hleast => ⟨fun most hmost => ⟨fun threshold hthreshold => ?_,
    fun _ _ => hs.display⟩, fun _ _ => hs.display⟩, fun _ _ => hs.display⟩
  refine shown_of_steps (.finalizationCommittee ((updatePayload cdata).u4be 0)
    ((updatePayload cdata).u4be 4) ((updatePayload cdata).u4be 8)) htype ?_ (by simp [Only]) ?_
  · show s'.hash ++ (updatePayload cdata).slice 12 = _
    rw [hs.hash, slice_twelve]
    rfl
  · simp only [flowTexts, List.map_cons, List.map_nil, Step.shown, fields]
    rw [cString_u32 _ hleast, cString_u32 _ hmost, cString_percentage _ hthreshold]
    rfl

end Handlers

/-! ## Runs -/

/-- The instructions of these updates. -/
def parameterUpdates : List UInt8 :=
  [ insUpdateGasRewards, insUpdateMintDistribution, insUpdateTransactionFeeDist,
    insUpdateMinBlockTime, insUpdateFinalizationCommitteeParameters ]

theorem governanceApp_reviewsUpdates (sdk : Sdk) (u : GovernanceContext μ ν) {i : UInt8}
    (hi : i ∈ parameterUpdates) : Reviewing (governanceApp sdk u) i (UpdateShown i) where
  handler c b t hins := by
    show wp (governanceHandler sdk u c b) _ _ t
    unfold governanceHandler
    rw [hins]
    simp only [parameterUpdates, List.mem_cons, List.not_mem_nil, or_false] at hi
    rcases hi with rfl | rfl | rfl | rfl | rfl
    · show wp (Fw.on u.signUpdateGasRewardsContext (handleSignUpdateGasRewards c.cdata)) _ _ t
      exact (Fw.wp_on _ _).mpr (handleSignUpdateGasRewards_shows c.cdata _)
    · show wp (Fw.on u.signUpdateMintDistribution
        (handleSignUpdateMintDistribution c.cdata c.p2)) _ _ t
      exact (Fw.wp_on _ _).mpr (handleSignUpdateMintDistribution_shows c.cdata c.p2 _)
    · show wp (Fw.on u.signTransactionDistributionFeeContext
        (handleSignUpdateTransactionFeeDistribution c.cdata)) _ _ t
      exact (Fw.wp_on _ _).mpr (handleSignUpdateTransactionFeeDistribution_shows c.cdata _)
    · show wp (Fw.on u.signUpdateMinBlockTime (handleSignMinBlockTime c.cdata)) _ _ t
      exact (Fw.wp_on _ _).mpr (handleSignMinBlockTime_shows c.cdata _)
    · show wp (Fw.on u.signUpdateFinalizationCommitteeParameters
        (handleSignUpdateFinalizationCommitteeParameters c.cdata)) _ _ t
      exact (Fw.wp_on _ _).mpr (handleSignUpdateFinalizationCommitteeParameters_shows c.cdata _)

/-- In every run in which no handler runs on a Sign screen and screens are only pressed in their
session, what is signed in a session of one of these instructions is an update of that instruction,
and the flow on which Sign is pressed shows its parameters, one by one. -/
theorem updates_signed_as_shown (sdk : Sdk) (u : GovernanceContext μ ν) (d : Device μ)
    (hd : Resting d) (events : List Event)
    (h : Always (step (governanceApp sdk u)) (fun d ev _ => Attended d ev) d events) (i : UInt8)
    (hi : i ∈ parameterUpdates) :
    Always (step (governanceApp sdk u)) (fun d _ d' => SignedAsShown i (UpdateShown i) d d') d
      events :=
  signatures_reviewed (governanceApp_reviewsUpdates sdk u hi) rfl (governanceApp_screened sdk u 0)
    (governanceApp_framed sdk u) (governanceApp_framed sdk u) (governanceApp_framed sdk u) hd h

/-- An update of the time between blocks to this many milliseconds, with this header. -/
def minBlockTimeUpdate (header duration : List UInt8) : Event :=
  .command (sent insUpdateMinBlockTime 0 0
    ([0] ++ header ++ [UpdateType.minBlockTime] ++ duration))

theorem updates_signed_as_shown_min_block_time :
    Always (step (governanceApp zeroAddressSdk GovernanceContexts.layout))
      (fun d _ d' => SignedAsShown insUpdateMinBlockTime (UpdateShown insUpdateMinBlockTime) d d')
      bootedGovernance
      [minBlockTimeUpdate (List.replicate 28 0) [0, 0, 0, 0, 0, 0, 0x07, 0xD0], .press 3] :=
  updates_signed_as_shown zeroAddressSdk GovernanceContexts.layout bootedGovernance
    ⟨rfl, by decide, rfl⟩ _ (by decide) insUpdateMinBlockTime (by decide)

/-- Two runs, on any two devices: updates that are approved on flows that look alike are the same
from the update type on. -/
theorem updates_shown_apart {ξ ζ : Type} (sdk sdk' : Sdk) (u : GovernanceContext μ ν)
    (v : GovernanceContext ξ ζ) (d : Device μ) (d' : Device ξ) (hd : Resting d) (hd' : Resting d')
    (events events' : List Event)
    (h : Always (step (governanceApp sdk u)) (fun d ev _ => Attended d ev) d events)
    (h' : Always (step (governanceApp sdk' v)) (fun d ev _ => Attended d ev) d' events')
    (i j : UInt8) (hi : i ∈ parameterUpdates) (hj : j ∈ parameterUpdates)
    (flow flow' : List Step) (input input' : List UInt8)
    (hs : SignsOn (governanceApp sdk u) d events i flow input)
    (hs' : SignsOn (governanceApp sdk' v) d' events' j flow' input')
    (htexts : flowTexts flow = flowTexts flow') :
    i = j ∧ input.length = input'.length ∧ input.drop 28 = input'.drop 28 := by
  have hshown := signatures_reviewed (governanceApp_reviewsUpdates sdk u hi) rfl
    (governanceApp_screened sdk u 0) (governanceApp_framed sdk u) (governanceApp_framed sdk u)
    (governanceApp_framed sdk u) hd h
  have hshown' := signatures_reviewed (governanceApp_reviewsUpdates sdk' v hj) rfl
    (governanceApp_screened sdk' v 0) (governanceApp_framed sdk' v) (governanceApp_framed sdk' v)
    (governanceApp_framed sdk' v) hd' h'
  obtain ⟨header, update, hlen, hins, rfl, htext⟩ := hs.holds hshown
  obtain ⟨header', update', hlen', hins', rfl, htext'⟩ := hs'.holds hshown'
  have hsame : update = update' := texts_inj (htext.symm.trans (htexts.trans htext'))
  subst hsame
  refine ⟨hins.symm.trans hins', by simp [hlen, hlen'], ?_⟩
  rw [List.append_assoc, List.append_assoc, List.drop_left' hlen, List.drop_left' hlen']

/-- What is signed then. -/
def minBlockTimeInput (header duration : List UInt8) : List UInt8 :=
  header ++ [UpdateType.minBlockTime] ++ duration

theorem minBlockTime_signed (n : UInt8) (h : n = 0 ∨ n = 1) :
    ∃ flow, flowTexts flow = [ ("Review", some (ascii "transaction")),
        ("Update type", some (ascii "Min block time")), ("Min block time", some (ascii "2000 ms")),
        ("Sign", some (ascii "transaction")),
        ("Decline to", some (ascii "sign transaction")) ] ∧
      SignsOn (governanceApp zeroAddressSdk GovernanceContexts.layout) bootedGovernance
        [minBlockTimeUpdate (List.replicate 28 n) [0, 0, 0, 0, 0, 0, 0x07, 0xD0], .press 3]
        insUpdateMinBlockTime flow
        (minBlockTimeInput (List.replicate 28 n) [0, 0, 0, 0, 0, 0, 0x07, 0xD0]) := by
  have hex : ((exec (step (governanceApp zeroAddressSdk GovernanceContexts.layout)) bootedGovernance
      [minBlockTimeUpdate (List.replicate 28 n) [0, 0, 0, 0, 0, 0, 0x07, 0xD0]]).any fun t =>
        (step (governanceApp zeroAddressSdk GovernanceContexts.layout) t (.press 3)).any fun u =>
          decide (flowTexts t.shared.display = [ ("Review", some (ascii "transaction")),
              ("Update type", some (ascii "Min block time")),
              ("Min block time", some (ascii "2000 ms")), ("Sign", some (ascii "transaction")),
              ("Decline to", some (ascii "sign transaction")) ] ∧
            .signed [] (minBlockTimeInput (List.replicate 28 n) [0, 0, 0, 0, 0, 0, 0x07, 0xD0]) ∈
              newActions t.shared u.shared ∧
            opener t.shared.log = some insUpdateMinBlockTime)) = true := by
    rcases h with rfl | rfl
    · decide
    · decide
  obtain ⟨t, ht, hex⟩ := (Option.any_eq_true _ _).mp hex
  obtain ⟨v, hv, hex⟩ := (Option.any_eq_true _ _).mp hex
  obtain ⟨htexts, hmem, ho⟩ := of_decide_eq_true hex
  exact ⟨_, htexts, _, _, t, v, [], List.prefix_rfl, ht, hv, hmem, ho, rfl⟩

/-- Two updates that differ in the header, which the flow does not show. -/
theorem updates_shown_apart_min_block_time :
    let input (n : UInt8) :=
      minBlockTimeInput (List.replicate 28 n) [0, 0, 0, 0, 0, 0, 0x07, 0xD0]
    insUpdateMinBlockTime = insUpdateMinBlockTime ∧ (input 0).length = (input 1).length ∧
      (input 0).drop 28 = (input 1).drop 28 := by
  obtain ⟨flow, htexts, hs⟩ := minBlockTime_signed 0 (.inl rfl)
  obtain ⟨flow', htexts', hs'⟩ := minBlockTime_signed 1 (.inr rfl)
  exact updates_shown_apart zeroAddressSdk zeroAddressSdk GovernanceContexts.layout
    GovernanceContexts.layout bootedGovernance bootedGovernance ⟨rfl, by decide, rfl⟩
    ⟨rfl, by decide, rfl⟩ _ _ (by decide) (by decide) insUpdateMinBlockTime
    insUpdateMinBlockTime (by decide) (by decide) flow flow' _ _ hs hs' (htexts.trans htexts'.symm)

end ConcordiumLedger
