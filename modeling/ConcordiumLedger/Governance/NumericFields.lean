import ConcordiumLedger.Common.NumberFacts
import ConcordiumLedger.Governance.Rules

/-!
# Governance.NumericFields

The numbers that the governance application displays with `numberToText` and
`hashAndLoadU64Ratio`, which do not terminate what they write.

* `NumericField` — the displayed numbers, with the instruction, the titles and the array of each,
  where its value lies in the command and in the hashed bytes, and its rendering.
* `…_spec` — what each handler hashes, writes and displays.
-/

namespace ConcordiumLedger

open CMem CProg CProg.Prog

variable {μ ν γ : Type}

/-! ## The fields -/

inductive NumericField where
  | exchangeRate
  | rewardPeriodLength
  | mintRate
  | poolOwnerCooldown
  | delegatorCooldown
  | timeoutBase
  | increaseTimeoutRatio
  | decreaseTimeoutRatio
  | blockEnergyLimit
  | maxMissedRounds
  | leverageBound
  | arIdentity
deriving DecidableEq

namespace NumericField

def ins : NumericField → UInt8
  | exchangeRate => insUpdateExchangeRate
  | rewardPeriodLength | mintRate => insUpdateTimeParameters
  | poolOwnerCooldown | delegatorCooldown => insUpdateCooldownParameters
  | timeoutBase | increaseTimeoutRatio | decreaseTimeoutRatio => insUpdateTimeoutParameters
  | blockEnergyLimit => insUpdateBlockEnergyLimit
  | maxMissedRounds => insUpdateValidatorScoreParameters
  | leverageBound => insUpdatePoolParameters
  | arIdentity => insAddAnonymityRevoker

/-- The titles of the step that displays the field. -/
def titles : NumericField → List String
  | exchangeRate => ["Euro per energy", "uCCD per Euro"]
  | rewardPeriodLength => ["Reward Period Length"]
  | mintRate => ["Mint rate"]
  | poolOwnerCooldown => ["Pool owner cooldown"]
  | delegatorCooldown => ["Delegator cooldown"]
  | timeoutBase => ["Timeout base"]
  | increaseTimeoutRatio => ["Increase ratio"]
  | decreaseTimeoutRatio => ["Decrease ratio"]
  | blockEnergyLimit => ["Block energy limit"]
  | maxMissedRounds => ["Max missed rounds"]
  | leverageBound => ["Leverage bound"]
  | arIdentity => ["AR Identity"]

/-- The array that the text of the field is written to. -/
def array (u : GovernanceContext μ ν) (m : μ) : NumericField → List UInt8
  | exchangeRate => (u.signExchangeRateContext.get m).ratio.bytes
  | rewardPeriodLength => (u.signTimeParameters.get m).rewardPeriodLength.bytes
  | mintRate => (u.signTimeParameters.get m).mintRate.bytes
  | poolOwnerCooldown => (u.signCooldownParameters.get m).poolOwnerCooldown.bytes
  | delegatorCooldown => (u.signCooldownParameters.get m).delegatorCooldown.bytes
  | timeoutBase => (u.signUpdateTimeoutParameters.get m).timeoutBase.bytes
  | increaseTimeoutRatio => (u.signUpdateTimeoutParameters.get m).increaseTimeoutRatio.bytes
  | decreaseTimeoutRatio => (u.signUpdateTimeoutParameters.get m).decreaseTimeoutRatio.bytes
  | blockEnergyLimit => (u.signUpdateBlockEnergyLimit.get m).blockEnergyLimit.bytes
  | maxMissedRounds => (u.signUpdateValidatorScoreParameters.get m).maxMissedRounds.bytes
  | leverageBound => (u.signPoolParameters.get m).leverageBound.bytes
  | arIdentity => (u.signAddAnonymityRevoker.get m).inner.arIdentity.bytes

/-- Where the value lies: how many bytes there are between the update type and the value, and how
many the value takes. The leverage bound comes in a later command than the type. -/
def place : NumericField → Nat × Nat
  | exchangeRate => (0, 16)
  | rewardPeriodLength => (0, 8)
  | mintRate => (8, 5)
  | poolOwnerCooldown => (0, 8)
  | delegatorCooldown => (8, 8)
  | timeoutBase => (0, 8)
  | increaseTimeoutRatio => (8, 16)
  | decreaseTimeoutRatio => (24, 16)
  | blockEnergyLimit => (0, 8)
  | maxMissedRounds => (0, 8)
  | leverageBound => (12, 16)
  | arIdentity => (4, 4)

/-- The bytes of the value in the command. -/
def received (f : NumericField) (cdata : Ptr) : List UInt8 :=
  ((if f = leverageBound then cdata else updatePayload cdata).advance f.place.1).slice f.place.2

/-- The bytes of the value in what the session has hashed when the field is displayed. -/
def hashed (f : NumericField) (hash : List UInt8) : List UInt8 :=
  if f = leverageBound then hash.drop (hash.length - 16)
  else (hash.drop (29 + f.place.1)).take f.place.2

/-- `num / den` -/
def ratioText (value : List UInt8) : List UInt8 :=
  decimal (beNat (value.take 8)) ++ ascii " / " ++ decimal (beNat (value.drop 8))

def rendering (f : NumericField) (value : List UInt8) : List UInt8 :=
  match f with
  | exchangeRate | increaseTimeoutRatio | decreaseTimeoutRatio | leverageBound => ratioText value
  | mintRate =>
    decimal (beNat (value.take 4)) ++ ascii "*10^(-" ++ decimal (beNat (value.drop 4)) ++ ascii ")"
  | _ => decimal (beNat value)

/-- The array holds a 0 right after where the text of the value ends. The mint rate is terminated
by its handler. -/
def Cleared (u : GovernanceContext μ ν) (f : NumericField) (m : μ) (cdata : Ptr) : Prop :=
  f = mintRate ∨ (f.array u m)[(f.rendering (f.received cdata)).length]? = some 0

end NumericField

/-! ## Texts in their arrays -/

/-- A text that was copied to the start of an array is the string found there iff a 0 was behind
it. -/
theorem cString_written_iff {n : Nat} (b : Buffer n) {t : List UInt8} (h : 0 ∉ t)
    (hn : t.length ≤ n) :
    cString (b.memmove 0 t).bytes = some t ↔ b.bytes[t.length]? = some 0 := by
  rw [Buffer.memmove_bytes b t hn, cString_append_iff h, List.head?_drop]

/-- The same for an array that other bytes follow in memory. -/
theorem cString_written_append_iff {n : Nat} (b : Buffer n) {t rest : List UInt8} (h : 0 ∉ t)
    (hn : t.length ≤ n) (hrest : rest.head? ≠ some 0) :
    cString ((b.memmove 0 t).bytes ++ rest) = some t ↔ b.bytes[t.length]? = some 0 := by
  rw [Buffer.memmove_bytes b t hn, List.append_assoc, cString_append_iff h, List.head?_append,
    List.head?_drop]
  cases hb : b.bytes[t.length]? with
  | none => simpa using hrest
  | some x => simp

theorem zero_not_mem_ratio (m n : Nat) : 0 ∉ decimal m ++ ascii " / " ++ decimal n := by
  have hm := zero_not_mem_decimal m
  have hn := zero_not_mem_decimal n
  have hs : (0 : UInt8) ∉ ascii " / " := by decide
  simp only [List.mem_append, not_or]
  exact ⟨⟨hm, hs⟩, hn⟩

/-- The 44 bytes of a ratio take any two numbers. -/
theorem u64RatioText_ok (numerator denominator : UInt64) (dst : Buffer 44) :
    u64RatioText numerator denominator dst =
      .ok (dst.memmove 0 (decimal numerator.toNat ++ ascii " / " ++ decimal denominator.toNat)) := by
  have hnum := decimal_length numerator
  have hden := decimal_length denominator
  have h20 := lengthOfNumber_le_twenty numerator
  have h20' := lengthOfNumber_le_twenty denominator
  have hsep : (ascii " / ").length = 3 := by decide
  have hsize : 20 ≤ subSize 44 ((decimal numerator.toNat).length + 3) := by
    rw [subSize]
    omega
  have hfit : (decimal numerator.toNat ++ ascii " / " ++ decimal denominator.toNat).length ≤ 44 := by
    rw [List.length_append, List.length_append]
    omega
  have hover := Buffer.memmove_memmove dst (decimal numerator.toNat ++ ascii " / ")
    (decimal denominator.toNat) hfit
  rw [List.length_append, hsep] at hover
  rw [u64RatioText, numberToText_ok (by omega)]
  show (do
    let den ← numberToText (subSize 44 ((decimal numerator.toNat).length + 3)) denominator
    _ : Except Error (Buffer 44)) = _
  rw [numberToText_ok hsize]
  exact congrArg Except.ok hover

/-! ## What the handlers display -/

/-- A single command has hashed `n` bytes after the update type and put up `flow`. -/
structure Displays (cdata : Ptr) (n : Nat) (s s' : Shared) (flow : List Step) : Prop where
  hash : s'.hash = updateHeaderOf cdata ++ (updatePayload cdata).slice n
  putUp : putUp s s' = flow

theorem putUp_uxFlowInit {s s₁ : Shared} (flow : List Step) (h : flows s₁.log = flows s.log) :
    putUp s { s₁.uxFlowInit flow with asynchReply := true } = flow := by
  have hf : flows (s₁.uxFlowInit flow).log = flows s.log ++ [flow] := by
    rw [flows_uxFlowInit, h]
  have hp : putUp s { s₁.uxFlowInit flow with asynchReply := true } = [flow].flatten :=
    putUp_of_flows hf
  rwa [List.flatten_singleton] at hp

/-- A number is rendered without an error where there is room for 20 digits. -/
theorem wp_numberToText {Q : List UInt8 → Device γ → Prop} {E : Error → Device γ → Prop}
    {d : Device γ} {dstLength : Nat} (number : UInt64) (h : 20 ≤ dstLength) :
    wp (Fw.eval (numberToText dstLength number) : Fw γ (List UInt8)) Q E d ↔
      Q (decimal number.toNat) d := by
  rw [numberToText_ok h]
  rfl

theorem wp_hashAndLoadU64Ratio {Q : Nat × Buffer 44 → Device γ → Prop}
    {E : Error → Device γ → Prop} {d : Device γ} (cdata : Ptr) (dst : Buffer 44) :
    wp (hashAndLoadU64Ratio cdata dst) Q E d ↔
      Q (16, dst.memmove 0 (decimal (cdata.u8be 0).toNat ++ ascii " / " ++
          decimal (cdata.u8be 8).toNat))
        ⟨d.ctx, d.shared.updateHash (cdata.slice 16)⟩ := by
  rw [hashAndLoadU64Ratio, u64RatioText_ok]
  rfl

/-- The mint rate is rendered without an error, and terminated. -/
theorem mintRateText_ok (mantissa : UInt32) (exponent : UInt8) :
    SignUpdateTimeParameters.mintRateText mantissa exponent =
      .ok (decimal mantissa.toNat ++ ascii "*10^(-" ++ decimal exponent.toNat ++ literal ")") := by
  have hm : mantissa.toUInt64.toNat = mantissa.toNat := by simp
  have he : exponent.toUInt64.toNat = exponent.toNat := by simp
  have hlen := decimal_length mantissa.toUInt64
  have hmant : lengthOfNumber mantissa.toUInt64 ≤ 10 :=
    lengthOfNumber_le _ (by decide) (by rw [hm]; have := mantissa.toNat_lt; omega)
  have hexp : lengthOfNumber exponent.toUInt64 ≤ 3 :=
    lengthOfNumber_le _ (by decide) (by rw [he]; have := exponent.toNat_lt; omega)
  have hsep : (ascii "*10^(-").length = 6 := by decide
  have hsize : ¬ subSize 35 (decimal mantissa.toNat ++ ascii "*10^(-").length <
      lengthOfNumber exponent.toUInt64 := by
    rw [List.length_append, hsep, subSize, ← hm]
    omega
  have hnumber : numberToText (subSize 35 (decimal mantissa.toNat ++ ascii "*10^(-").length)
      exponent.toUInt64 = .ok (decimal exponent.toNat) := by
    rw [numberToText, if_neg hsize, digitsText_lengthOfNumber, he]
  rw [SignUpdateTimeParameters.mintRateText, numberToText_ok (by decide), hm]
  show (numberToText (subSize 35 (decimal mantissa.toNat ++ ascii "*10^(-").length)
    exponent.toUInt64 >>= _) = _
  rw [hnumber]
  rfl

theorem exchangeRate_spec (cdata : Ptr) (t : Device SignUpdateExchangeRate.Context) :
    wp (handleSignUpdateExchangeRate cdata)
      (fun _ t' => Displays cdata 16 t.shared t'.shared
          (SignUpdateExchangeRate.uxSignExchangeRate t'.ctx) ∧
        t'.ctx.ratio = t.ctx.ratio.memmove 0 (decimal ((updatePayload cdata).u8be 0).toNat ++
          ascii " / " ++ decimal ((updatePayload cdata).u8be 8).toNat))
      (fun _ t' => putUp t.shared t'.shared = []) t := by
  simp only [handleSignUpdateExchangeRate, wp_bind, wp_parseKeyDerivationPath, wp_cxSha256Init,
    wp_updateHash, wp_ite, Fw.wp_modifyCtx, Fw.wp_getCtx, Fw.wp_throw, wp_hashAndLoadU64Ratio,
    wp_uxFlowInit, wp_waitForButton]
  have hpayload : ((cdata.advance (1 + 4 * (cdata 0).toNat)).advance updateHeaderLength).advance 1 =
      updatePayload cdata := by
    rw [Ptr.advance_advance, Ptr.advance_advance]
    rfl
  have hheader : [] ++ (cdata.advance (1 + 4 * (cdata 0).toNat)).slice updateHeaderLength ++
      ((cdata.advance (1 + 4 * (cdata 0).toNat)).advance updateHeaderLength).slice 1 =
      updateHeaderOf cdata := by
    rw [List.nil_append]
    exact slice_twenty_nine _
  rw [hpayload]
  refine ⟨fun _ => putUp_nil (by simp [flows]), fun _ => ⟨fun _ => ?_, fun _ => ⟨fun _ => ?_,
    fun _ => putUp_nil (by simp [flows])⟩⟩⟩
  · exact ⟨⟨congrArg (· ++ _) hheader,
      putUp_uxFlowInit _ (by simp [flows])⟩, rfl⟩
  · exact ⟨⟨congrArg (· ++ _) hheader,
      putUp_uxFlowInit _ (by simp [flows])⟩, rfl⟩

theorem timeParameters_spec (cdata : Ptr) (t : Device SignUpdateTimeParameters.Context) :
    wp (handleSignUpdateTimeParameters cdata)
      (fun _ t' => Displays cdata 13 t.shared t'.shared
          (SignUpdateTimeParameters.uxSignTimeParameters t'.ctx) ∧
        t'.ctx.rewardPeriodLength = t.ctx.rewardPeriodLength.memmove 0
          (decimal ((updatePayload cdata).u8be 0).toNat) ∧
        t'.ctx.mintRate = t.ctx.mintRate.memmove 0
          (decimal ((updatePayload cdata).u4be 8).toNat ++ ascii "*10^(-" ++
            decimal (updatePayload cdata 12).toNat ++ literal ")"))
      (fun _ t' => putUp t.shared t'.shared = []) t := by
  simp only [handleSignUpdateTimeParameters, wp_bind]
  refine wp_readUpdateHeader (fun s' hs => ?_) (fun e s' hs => putUp_nil hs)
  simp only [wp_bind, Fw.wp_modifyCtx, wp_updateHash, mintRateText_ok,
    wp_numberToText _ (show 20 ≤ 21 by decide)]
  refine ⟨⟨?_, putUp_uxFlowInit _ (by simp [hs.flows])⟩, rfl, rfl⟩
  show s'.hash ++ (updatePayload cdata).slice 8 ++ ((updatePayload cdata).advance 8).slice 5 = _
  rw [hs.hash, List.append_assoc, ← Ptr.slice_add]

theorem cooldownParameters_spec (cdata : Ptr) (t : Device SignUpdateCooldownParameters.Context) :
    wp (handleSignUpdateCooldownParameters cdata)
      (fun _ t' => Displays cdata 16 t.shared t'.shared
          (SignUpdateCooldownParameters.uxSignCooldownParameters t'.ctx) ∧
        t'.ctx.poolOwnerCooldown = t.ctx.poolOwnerCooldown.memmove 0
          (decimal ((updatePayload cdata).u8be 0).toNat) ∧
        t'.ctx.delegatorCooldown = t.ctx.delegatorCooldown.memmove 0
          (decimal ((updatePayload cdata).u8be 8).toNat))
      (fun _ t' => putUp t.shared t'.shared = []) t := by
  simp only [handleSignUpdateCooldownParameters, wp_bind]
  refine wp_readUpdateHeader (fun s' hs => ?_) (fun e s' hs => putUp_nil hs)
  simp only [wp_bind, Fw.wp_modifyCtx, wp_updateHash, wp_uxFlowInit, wp_waitForButton,
    wp_numberToText _ (show 20 ≤ 21 by decide)]
  refine ⟨⟨?_, putUp_uxFlowInit _ (by simp [hs.flows])⟩, rfl, rfl⟩
  show s'.hash ++ (updatePayload cdata).slice 8 ++ ((updatePayload cdata).advance 8).slice 8 = _
  rw [hs.hash, List.append_assoc, ← Ptr.slice_add]

theorem timeoutParameters_spec (cdata : Ptr) (t : Device SignUpdateTimeoutParameters.Context) :
    wp (handleSignTimeoutParameters cdata)
      (fun _ t' => Displays cdata 40 t.shared t'.shared
          (SignUpdateTimeoutParameters.uxSignUpdateTimeoutParameters t'.ctx) ∧
        t'.ctx.timeoutBase = t.ctx.timeoutBase.memmove 0
          (decimal ((updatePayload cdata).u8be 0).toNat) ∧
        t'.ctx.increaseTimeoutRatio = t.ctx.increaseTimeoutRatio.memmove 0
          (decimal ((updatePayload cdata).u8be 8).toNat ++ ascii " / " ++
            decimal ((updatePayload cdata).u8be 16).toNat) ∧
        t'.ctx.decreaseTimeoutRatio = t.ctx.decreaseTimeoutRatio.memmove 0
          (decimal ((updatePayload cdata).u8be 24).toNat ++ ascii " / " ++
            decimal ((updatePayload cdata).u8be 32).toNat))
      (fun _ t' => putUp t.shared t'.shared = []) t := by
  simp only [handleSignTimeoutParameters, wp_bind]
  refine wp_readUpdateHeader (fun s' hs => ?_) (fun e s' hs => putUp_nil hs)
  simp only [wp_bind, Fw.wp_modifyCtx, Fw.wp_getCtx, wp_updateHash, wp_uxFlowInit,
    wp_waitForButton, wp_hashAndLoadU64Ratio, wp_numberToText _ (show 20 ≤ 21 by decide)]
  refine ⟨⟨?_, putUp_uxFlowInit _ (by simp [hs.flows])⟩, rfl, rfl, rfl⟩
  show s'.hash ++ (updatePayload cdata).slice 8 ++ ((updatePayload cdata).advance 8).slice 16 ++
    (((updatePayload cdata).advance 8).advance 16).slice 16 = _
  rw [hs.hash, List.append_assoc, List.append_assoc, ← Ptr.slice_add, ← Ptr.slice_add]

theorem blockEnergyLimit_spec (cdata : Ptr) (t : Device SignUpdateBlockEnergyLimit.Context) :
    wp (handleSignUpdateBlockEnergyLimit cdata)
      (fun _ t' => Displays cdata 8 t.shared t'.shared
          (SignUpdateBlockEnergyLimit.uxSignUpdateBlockEnergyLimit t'.ctx) ∧
        t'.ctx.blockEnergyLimit = t.ctx.blockEnergyLimit.memmove 0
          (decimal ((updatePayload cdata).u8be 0).toNat))
      (fun _ t' => putUp t.shared t'.shared = []) t := by
  simp only [handleSignUpdateBlockEnergyLimit, wp_bind]
  refine wp_readUpdateHeader (fun s' hs => ?_) (fun e s' hs => putUp_nil hs)
  simp only [wp_bind, Fw.wp_modifyCtx, wp_updateHash, wp_uxFlowInit, wp_waitForButton,
    wp_numberToText _ (show 20 ≤ 22 by decide)]
  exact ⟨⟨congrArg (· ++ _) hs.hash,
    putUp_uxFlowInit _ (by simp [hs.flows])⟩, rfl⟩

theorem validatorScoreParameters_spec (cdata : Ptr)
    (t : Device SignUpdateValidatorScoreParameters.Context) :
    wp (handleSignUpdateValidatorScoreParameters cdata)
      (fun _ t' => Displays cdata 8 t.shared t'.shared
          (SignUpdateValidatorScoreParameters.uxSignValidatorScoreParameters t'.ctx) ∧
        t'.ctx.maxMissedRounds = t.ctx.maxMissedRounds.memmove 0
          (decimal ((updatePayload cdata).u8be 0).toNat))
      (fun _ t' => putUp t.shared t'.shared = []) t := by
  simp only [handleSignUpdateValidatorScoreParameters, wp_bind]
  refine wp_readUpdateHeader (fun s' hs => ?_) (fun e s' hs => putUp_nil hs)
  simp only [wp_bind, Fw.wp_modifyCtx, wp_updateHash, wp_uxFlowInit, wp_waitForButton,
    wp_numberToText _ (show 20 ≤ 21 by decide)]
  exact ⟨⟨congrArg (· ++ _) hs.hash,
    putUp_uxFlowInit _ (by simp [hs.flows])⟩, rfl⟩

section PoolParameters

open SignUpdatePoolParameters

theorem wp_parseCommissionRate {Q : Buffer 8 → Device Context → Prop}
    {E : Error → Device Context → Prop} {d : Device Context} {cdata : Ptr} {display : Buffer 8}
    (h : ∀ rate, Q rate ⟨d.ctx, d.shared.updateHash (cdata.slice 4)⟩) (he : ∀ e, E e d) :
    wp (parseCommissionRate cdata display) Q E d := by
  simp only [parseCommissionRate, wp_bind, Fw.wp_eval, wp_updateHash, wp_pure]
  exact ⟨fun text _ => h _, fun e _ => he e⟩

/-- The first two commands display rates only. -/
theorem initialRates_spec (cdata : Ptr) (t : Device Context) :
    wp (SignUpdatePoolParameters.handleInitial cdata)
      (fun _ t' => putUp t.shared t'.shared = uxSignPoolParametersInitial t'.ctx)
      (fun _ t' => putUp t.shared t'.shared = []) t := by
  simp only [SignUpdatePoolParameters.handleInitial, wp_bind]
  refine wp_readUpdateHeader (fun s' hs => ?_) (fun e s' hs => putUp_nil hs)
  simp only [wp_bind, Fw.wp_modifyCtx, Fw.wp_getCtx]
  refine wp_parseCommissionRate (fun _ => ?_) fun _ => putUp_nil hs.flows
  simp only [wp_bind, Fw.wp_modifyCtx]
  refine wp_parseCommissionRate (fun _ => ?_) fun _ => putUp_nil (by simp [hs.flows])
  simp only [wp_bind, Fw.wp_modifyCtx]
  refine wp_parseCommissionRate (fun _ => ?_) fun _ => putUp_nil (by simp [hs.flows])
  exact putUp_uxFlowInit _ (by simp [hs.flows])

theorem rateRanges_spec (cdata : Ptr) (t : Device Context) :
    wp (handleCommissionRanges cdata)
      (fun _ t' => putUp t.shared t'.shared = uxSignPoolParametersCommissionRanges t'.ctx)
      (fun _ t' => putUp t.shared t'.shared = []) t := by
  simp only [handleCommissionRanges, wp_bind, Fw.wp_getCtx]
  refine wp_parseCommissionRate (fun _ => ?_) fun _ => putUp_nil rfl
  simp only [wp_bind, Fw.wp_modifyCtx]
  refine wp_parseCommissionRate (fun _ => ?_) fun _ => putUp_nil (by simp)
  simp only [wp_bind, Fw.wp_modifyCtx]
  refine wp_parseCommissionRate (fun _ => ?_) fun _ => putUp_nil (by simp)
  simp only [wp_bind, Fw.wp_modifyCtx]
  refine wp_parseCommissionRate (fun _ => ?_) fun _ => putUp_nil (by simp)
  simp only [wp_bind, Fw.wp_modifyCtx]
  refine wp_parseCommissionRate (fun _ => ?_) fun _ => putUp_nil (by simp)
  simp only [wp_bind, Fw.wp_modifyCtx]
  refine wp_parseCommissionRate (fun _ => ?_) fun _ => putUp_nil (by simp)
  exact putUp_uxFlowInit _ (by simp)

theorem equity_spec (cdata : Ptr) (t : Device Context) :
    wp (handleEquity cdata)
      (fun _ t' => putUp t.shared t'.shared = uxSignPoolParametersCommissionFinal t'.ctx ∧
        t'.shared.hash = t.shared.hash ++ cdata.slice 28 ∧
        t'.ctx.leverageBound = t.ctx.leverageBound.memmove 0
          (decimal (cdata.u8be 12).toNat ++ ascii " / " ++ decimal (cdata.u8be 20).toNat))
      (fun _ t' => putUp t.shared t'.shared = []) t := by
  simp only [handleEquity, wp_bind, Fw.wp_eval, Fw.wp_modifyCtx, wp_updateHash, Fw.wp_getCtx]
  refine ⟨fun capital _ => ?_, fun e _ => putUp_nil rfl⟩
  refine wp_parseCommissionRate (fun rate => ?_) fun _ => putUp_nil (by simp)
  simp only [wp_bind, Fw.wp_eval, Fw.wp_modifyCtx, wp_updateHash, Fw.wp_getCtx, wp_uxFlowInit,
    wp_waitForButton, u64RatioText_ok, Except.ok.injEq, forall_eq', reduceCtorEq,
    false_implies, implies_true, and_true]
  refine ⟨putUp_uxFlowInit _ (by simp), ?_, rfl⟩
  show t.shared.hash ++ cdata.slice 8 ++ (cdata.advance 8).slice 4 ++
    ((cdata.advance 8).advance 4).slice 8 ++ (((cdata.advance 8).advance 4).advance 8).slice 8 = _
  have hjoin : cdata.slice 28 = cdata.slice 8 ++ ((cdata.advance 8).slice 4 ++
      (((cdata.advance 8).advance 4).slice 8 ++
        (((cdata.advance 8).advance 4).advance 8).slice 8)) := by
    rw [← Ptr.slice_add, ← Ptr.slice_add, ← Ptr.slice_add]
  rw [hjoin]
  simp only [List.append_assoc]

theorem leverageBound_spec (cdata : Ptr) (p1 : UInt8) (b : Bool) (t : Device Context) :
    wp (handleSignUpdatePoolParameters cdata p1 b)
      (fun _ t' => ∀ st ∈ putUp t.shared t'.shared, st.title = "Leverage bound" →
        t'.shared.hash = t.shared.hash ++ cdata.slice 28 ∧
        st.text = (t.ctx.leverageBound.memmove 0 (decimal (cdata.u8be 12).toNat ++
          ascii " / " ++ decimal (cdata.u8be 20).toNat)).bytes)
      (fun _ t' => putUp t.shared t'.shared = []) t := by
  obtain ⟨t₀, ht₀, hs₀, hl₀⟩ : ∃ t₀ : Device Context,
      wp (Fw.when b (SignUpdatePoolParameters.setState .initial)) (fun _ t' => t' = t₀)
        (fun _ _ => False) t ∧ t₀.shared = t.shared ∧
        t₀.ctx.leverageBound = t.ctx.leverageBound := by
    cases b with
    | false => exact ⟨t, by simp, rfl, rfl⟩
    | true => exact ⟨⟨{ t.ctx with state := .initial }, t.shared⟩,
        by simp [SignUpdatePoolParameters.setState], rfl, rfl⟩
  simp only [handleSignUpdatePoolParameters, wp_bind]
  refine wp_mono ht₀ ?_ fun _ _ h => h.elim
  intro _ t' ht'
  rw [ht']
  simp only [wp_bind, Fw.wp_getCtx, wp_ite, Fw.wp_throw]
  rw [← hs₀, ← hl₀]
  refine ⟨fun _ => ?_, fun _ => ⟨fun _ => ?_, fun _ => ⟨fun _ => ?_, fun _ => putUp_nil rfl⟩⟩⟩
  · refine wp_mono (initialRates_spec cdata t₀) (fun _ t' h st hst ht => ?_) fun _ _ h => h
    rw [h] at hst
    simp only [uxSignPoolParametersInitial, List.mem_cons, List.not_mem_nil, or_false] at hst
    rcases hst with rfl | rfl | rfl | rfl | rfl <;> simp [uxSignFlowSharedReview, uxUpdateType] at ht
  · refine wp_mono (rateRanges_spec cdata t₀) (fun _ t' h st hst ht => ?_) fun _ _ h => h
    rw [h] at hst
    simp only [uxSignPoolParametersCommissionRanges, List.mem_cons, List.not_mem_nil,
      or_false] at hst
    rcases hst with rfl | rfl | rfl | rfl | rfl | rfl <;> simp at ht
  · refine wp_mono (equity_spec cdata t₀) (fun _ t' h st hst ht => ?_) fun _ _ h => h
    obtain ⟨hp, hh, hb⟩ := h
    rw [hp] at hst
    simp only [uxSignPoolParametersCommissionFinal, uxSignAndDecline, List.cons_append,
      List.nil_append, List.mem_cons, List.not_mem_nil, or_false] at hst
    rcases hst with rfl | rfl | rfl | rfl | rfl <;>
      simp [uxSignFlowSharedSign, uxSignFlowSharedDecline] at ht
    exact ⟨hh, congrArg Buffer.bytes hb⟩

end PoolParameters

section AnonymityRevoker

open SignAddAnonymityRevoker WithDescription

theorem arInitial_spec (cdata : Ptr) (t : Device Blob) :
    wp (SignAddAnonymityRevoker.handleInitial cdata)
      (fun _ t' => Displays cdata 8 t.shared t'.shared
          (uxSignAddAnonymityRevokerStart t'.ctx.inner) ∧
        (decimal ((updatePayload cdata).u4be 4).toNat).length ≤ 5 ∧
        t'.ctx.inner.updateTypeText = updateTypeText UpdateType.addAnonymityRevoker ∧
        t'.ctx.inner.arIdentity = t.ctx.inner.arIdentity.memmove 0
          (decimal ((updatePayload cdata).u4be 4).toNat))
      (fun _ t' => putUp t.shared t'.shared = []) t := by
  simp only [SignAddAnonymityRevoker.handleInitial, wp_bind]
  refine wp_readUpdateHeader (fun s' hs => ?_) (fun e s' hs => putUp_nil hs)
  simp only [wp_bind, wp_modifyInner, wp_updateHash, Fw.wp_eval, SignAddAnonymityRevoker.setState,
    setDescriptionState, wp_modifyDescription, wp_uxFlowInit, wp_waitForButton]
  refine ⟨fun text htext => ?_, fun _ _ => putUp_nil (by simp [hs.flows])⟩
  have hvalue : (((cdata.advance (1 + 4 * (cdata 0).toNat + 29)).advance 4).u4be 0).toUInt64.toNat =
      ((updatePayload cdata).u4be 4).toNat := by
    simp only [UInt32.toNat_toUInt64]
    rfl
  have hlen := (numberToText_length htext).2
  have hdec := numberToText_eq htext
  rw [hvalue] at hdec
  subst hdec
  refine ⟨⟨?_, putUp_uxFlowInit _ (by simp [hs.flows])⟩, hlen, trivial, rfl⟩
  show s'.hash ++ (updatePayload cdata).slice 4 ++ ((updatePayload cdata).advance 4).slice 4 = _
  rw [hs.hash, List.append_assoc, ← Ptr.slice_add]

/-- The title that is found in an array after a literal was copied there. -/
theorem titleOf_memmove {n : Nat} (b : Buffer n) {s : String} (h : 0 ∈ literal s)
    (hn : (literal s).length ≤ n) {text : List UInt8} (ht : cString (literal s) = some text) :
    titleOf (b.memmove 0 (literal s)).bytes = .ofList (text.map fun c => Char.ofNat c.toNat) := by
  rw [titleOf, cString_memmove_mem b h hn, ht]
  rfl

theorem displayDescriptionPart_spec (t : Device (WithDescription γ)) :
    wp displayDescriptionPart
      (fun _ t' => putUp t.shared t'.shared =
          DescriptionView.uxSignDescription t'.ctx.description ∧
        titleOf t'.ctx.description.header.bytes ∈ ["Name", "URL", "Description"])
      (fun _ t' => putUp t.shared t'.shared = []) t := by
  simp only [displayDescriptionPart, wp_bind, wp_getDescription]
  cases t.ctx.description.descriptionState with
  | stale => exact putUp_nil rfl
  | name | url | description =>
    simp only [wp_bind, setHeader, wp_modifyDescription, wp_uxFlowInit, wp_waitForButton]
    refine ⟨putUp_uxFlowInit _ (by simp), ?_⟩
    rw [titleOf_memmove _ (by decide) (by decide) (by rfl)]
    decide

theorem handleDescriptionPart_flows (t : Device (WithDescription γ)) :
    wp handleDescriptionPart (fun _ t' => flows t'.shared.log = flows t.shared.log)
      (fun _ t' => flows t'.shared.log = flows t.shared.log) t := by
  simp only [handleDescriptionPart, wp_bind, wp_getDescription, Fw.wp_when]
  refine ⟨fun _ => ?_, fun _ => by simp [flows]⟩
  cases t.ctx.description.descriptionState with
  | stale => simp
  | name | url | description => simp [setDescriptionState, flows]

theorem checkIfDescriptionPartIsDone_shared (t : Device Blob) :
    wp SignAddAnonymityRevoker.checkIfDescriptionPartIsDone (fun _ t' => t'.shared = t.shared)
      (fun _ t' => t'.shared = t.shared) t := by
  simp only [SignAddAnonymityRevoker.checkIfDescriptionPartIsDone, wp_bind, wp_getDescription,
    Fw.wp_when]
  refine ⟨fun _ => ?_, fun _ => trivial⟩
  cases t.ctx.description.descriptionState with
  | name | url | description | stale => rfl

/-- Reading the length of a part displays nothing. -/
theorem descriptionLength_flows (cdata : Ptr) (t : Device Blob) :
    wp (SignAddAnonymityRevoker.handleDescriptionLength cdata)
      (fun _ t' => flows t'.shared.log = flows t.shared.log)
      (fun _ t' => flows t'.shared.log = flows t.shared.log) t := by
  simp only [SignAddAnonymityRevoker.handleDescriptionLength, readTextLength, wp_bind,
    wp_modifyDescription, wp_updateHash, wp_modifyInner, SignAddAnonymityRevoker.setState]
  refine wp_mono (checkIfDescriptionPartIsDone_shared _) (fun _ t₁ h₁ => ?_)
    (fun _ t₁ h₁ => by rw [h₁]; simp)
  refine wp_mono (handleDescriptionPart_flows t₁) ?_ ?_ <;>
  · intro _ t₂ h₂
    rw [h₂, h₁]
    simp

/-- A part of the description is displayed under the header of the part. -/
theorem description_spec (cdata : Ptr) (lc : UInt8) (t : Device Blob) :
    wp (SignAddAnonymityRevoker.handleDescription cdata lc)
      (fun _ t' => putUp t.shared t'.shared =
          DescriptionView.uxSignDescription t'.ctx.description ∧
        titleOf t'.ctx.description.header.bytes ∈ ["Name", "URL", "Description"])
      (fun _ t' => putUp t.shared t'.shared = []) t := by
  have hdisplay : ∀ t₁ : Device Blob, flows t₁.shared.log = flows t.shared.log →
      wp (SignAddAnonymityRevoker.checkIfDescriptionPartIsDone >>= fun _ => displayDescriptionPart)
      (fun _ t' => putUp t.shared t'.shared =
          DescriptionView.uxSignDescription t'.ctx.description ∧
        titleOf t'.ctx.description.header.bytes ∈ ["Name", "URL", "Description"])
      (fun _ t' => putUp t.shared t'.shared = []) t₁ := by
    intro t₁ h₁
    rw [wp_bind]
    refine wp_mono (checkIfDescriptionPartIsDone_shared t₁) (fun _ t₂ h₂ => ?_)
      (fun _ t₂ h₂ => putUp_nil (by rw [h₂, h₁]))
    have hp : ∀ s, putUp t.shared s = putUp t₂.shared s := by
      intro s
      rw [putUp, putUp, h₂, h₁]
    simp only [hp]
    exact displayDescriptionPart_spec t₂
  simp only [SignAddAnonymityRevoker.handleDescription, readText, wp_bind, wp_getDescription,
    Fw.wp_throwIf, wp_updateHash, wp_modifyDescription, wp_modifyInner, Fw.wp_when]
  refine ⟨fun _ => putUp_nil rfl, fun _ => ⟨fun _ => ?_, fun _ => ?_⟩⟩
  · simpa only [wp_bind] using hdisplay _ (by simp)
  · simpa only [wp_bind] using hdisplay _ (by simp)

theorem publicKey_spec (cdata : Ptr) (t : Device Blob) :
    wp (SignAddAnonymityRevoker.handlePublicKey cdata)
      (fun _ t' => putUp t.shared t'.shared = uxSignAddAnonymityRevokerFinish t'.ctx.inner)
      (fun _ t' => putUp t.shared t'.shared = []) t := by
  simp only [SignAddAnonymityRevoker.handlePublicKey, wp_bind, wp_updateHash, wp_getInner,
    Fw.wp_eval, wp_modifyInner, wp_uxFlowInit, wp_waitForButton]
  exact ⟨fun _ _ => putUp_uxFlowInit _ (by simp), fun _ _ => putUp_nil (by simp)⟩

theorem arIdentity_spec (cdata : Ptr) (p1 lc : UInt8) (b : Bool) (t : Device Blob) :
    wp (handleSignAddAnonymityRevoker cdata p1 lc b)
      (fun _ t' => ∀ st ∈ putUp t.shared t'.shared, st.title = "AR Identity" →
        t'.shared.hash = updateHeaderOf cdata ++ (updatePayload cdata).slice 8 ∧
        (decimal ((updatePayload cdata).u4be 4).toNat).length ≤ 5 ∧
        st.text = (t.ctx.inner.arIdentity.memmove 0
            (decimal ((updatePayload cdata).u4be 4).toNat)).bytes ++
          (updateTypeText UpdateType.addAnonymityRevoker).bytes)
      (fun _ t' => putUp t.shared t'.shared = []) t := by
  obtain ⟨t₀, ht₀, hs₀, hl₀⟩ : ∃ t₀ : Device Blob,
      wp (Fw.when b (SignAddAnonymityRevoker.setState .initial)) (fun _ t' => t' = t₀)
        (fun _ _ => False) t ∧ t₀.shared = t.shared ∧
        t₀.ctx.inner.arIdentity = t.ctx.inner.arIdentity := by
    cases b with
    | false => exact ⟨t, by simp, rfl, rfl⟩
    | true => exact ⟨⟨{ t.ctx with inner := { t.ctx.inner with state := .initial } }, t.shared⟩,
        by simp [SignAddAnonymityRevoker.setState], rfl, rfl⟩
  simp only [handleSignAddAnonymityRevoker, wp_bind]
  refine wp_mono ht₀ ?_ fun _ _ h => h.elim
  intro _ t' ht'
  rw [ht']
  simp only [wp_bind, wp_getInner, wp_ite, Fw.wp_throw]
  rw [← hs₀, ← hl₀]
  refine ⟨fun _ => ?_, fun _ => ⟨fun _ => ?_, fun _ => ⟨fun _ => ?_, fun _ =>
    ⟨fun _ => ?_, fun _ => putUp_nil rfl⟩⟩⟩⟩
  · refine wp_mono (arInitial_spec cdata t₀) (fun _ t' h st hst ht => ?_) fun _ _ h => h
    obtain ⟨hd, hlen, htype, hid⟩ := h
    rw [hd.putUp] at hst
    simp only [uxSignAddAnonymityRevokerStart, List.mem_cons, List.not_mem_nil, or_false] at hst
    rcases hst with rfl | rfl | rfl <;> simp [uxSignFlowSharedReview, uxUpdateType] at ht
    exact ⟨hd.hash, hlen, by rw [hid, htype]⟩
  · refine wp_mono (descriptionLength_flows cdata t₀) (fun _ t' h st hst => ?_)
      fun _ _ h => putUp_nil h
    rw [putUp_nil h] at hst
    cases hst
  · refine wp_mono (description_spec cdata lc t₀) (fun _ t' h st hst ht => ?_) fun _ _ h => h
    obtain ⟨hp, htitle⟩ := h
    rw [hp, DescriptionView.uxSignDescription, List.mem_singleton] at hst
    subst hst
    have hheader : titleOf t'.ctx.description.header.bytes = "AR Identity" := ht
    rw [hheader] at htitle
    simp at htitle
  · refine wp_mono (publicKey_spec cdata t₀) (fun _ t' h st hst ht => ?_) fun _ _ h => h
    rw [h] at hst
    simp only [uxSignAddAnonymityRevokerFinish, uxSignAndDecline, List.mem_cons,
      List.not_mem_nil, or_false] at hst
    rcases hst with rfl | rfl | rfl <;>
      simp [uxSignFlowSharedSign, uxSignFlowSharedDecline] at ht

end AnonymityRevoker

end ConcordiumLedger
