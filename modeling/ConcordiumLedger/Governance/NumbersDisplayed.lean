import ConcordiumLedger.Governance.NumericFields
import ConcordiumLedger.Lib.Transition

/-!
# Governance.NumbersDisplayed

When the numbers of `Governance.NumericFields` are displayed exactly: whatever ran before, the byte
of the array right after the text must have been 0 before the command that displays it.
-/

namespace ConcordiumLedger

open CMem CProg CProg.Prog Transition

variable {μ ν γ : Type}

/-! ## From the handlers to the application -/

theorem putUp_congr {s₁ s₂ t₁ t₂ : Shared} (hs : flows s₁.log = flows s₂.log)
    (ht : flows t₁.log = flows t₂.log) : putUp s₁ t₁ = putUp s₂ t₂ := by
  rw [putUp, putUp, hs, ht]

theorem flows_catchOther (e : Error) (s : Shared) : flows (catchOther e s).log = flows s.log := by
  unfold catchOther
  split
  · simp only
    split <;> simp [flows]
  · rfl

/-- What a command puts on the display, its handler does. -/
theorem command_putUp {app : App μ} {P : Step → Shared → Prop} {d d' : Device μ} {apdu : Apdu}
    (h : step app d (.command apdu) = some d')
    (hh : ∀ b t, t.ctx = d.ctx →
      wp (app.handler apdu b) (fun _ t' => ∀ st ∈ putUp t.shared t'.shared, P st t'.shared)
        (fun _ t' => putUp t.shared t'.shared = []) t) :
    ∀ st ∈ putUp d.shared d'.shared, P st d'.shared := by
  have hrun : ∀ b t, t.ctx = d.ctx → flows t.shared.log = flows d.shared.log →
      wp (app.handler apdu b) (fun _ t' => ∀ st ∈ putUp d.shared t'.shared, P st t'.shared)
        (fun e t' => ∀ st ∈ putUp d.shared (catchOther e t'.shared),
          P st (catchOther e t'.shared)) t := by
    intro b t hctx hflows
    refine wp_mono (hh b t hctx) (fun _ t' h' st hst => ?_) (fun e t' h' st hst => ?_)
    · exact h' st (putUp_congr hflows.symm rfl ▸ hst)
    · rw [putUp_congr hflows.symm (flows_catchOther e t'.shared), h'] at hst
      cases hst
  have hquiet : ∀ e (t : Device μ), flows t.shared.log = flows d.shared.log →
      ∀ st ∈ putUp d.shared (catchOther e t.shared), P st (catchOther e t.shared) := by
    intro e t hflows st hst
    rw [putUp_nil ((flows_catchOther e t.shared).trans hflows)] at hst
    cases hst
  unfold step at h
  split at h
  · cases h
    refine finish_of_wp (P := fun t => ∀ st ∈ putUp d.shared t.shared, P st t.shared) ?_
    simp only [dispatch, wp_bind, Fw.wp_throwIf, Fw.wp_getShared]
    refine ⟨fun _ => hquiet _ (receivedCommand d) rfl, fun _ => ?_⟩
    cases (receivedCommand d).shared.currentInstruction with
    | none =>
      simp only [wp_bind, Fw.wp_modifyShared]
      exact hrun true _ rfl (by simp [receivedCommand, flows])
    | some i =>
      simp only [wp_bind, Fw.wp_throwIf, Fw.wp_modifyShared]
      exact ⟨fun _ => hquiet _ (receivedCommand d) rfl,
        fun _ => hrun false _ rfl (by simp [receivedCommand, flows])⟩
  · cases h

namespace NumericField

theorem slice_drop_take (p : Ptr) {a b n : Nat} (h : a + b ≤ n) :
    ((p.slice n).drop a).take b = (p.advance a).slice b := by
  obtain ⟨k, rfl⟩ := Nat.exists_eq_add_of_le h
  rw [Nat.add_assoc, Ptr.slice_add, Ptr.slice_add (p.advance a) b k]
  have ha : (p.slice a).length = a := Ptr.slice_length p a
  have hb : ((p.advance a).slice b).length = b := Ptr.slice_length _ b
  rw [List.drop_left' ha, List.take_left' hb]

/-- The bytes of the value in the hashed bytes are those of the command. -/
theorem hashed_eq_received {f : NumericField} {cdata : Ptr} {n : Nat} {hash : List UInt8}
    (hf : f ≠ leverageBound) (hn : f.place.1 + f.place.2 ≤ n)
    (h : hash = updateHeaderOf cdata ++ (updatePayload cdata).slice n) :
    f.hashed hash = f.received cdata := by
  rw [hashed, received, if_neg hf, if_neg hf, h, ← List.drop_drop,
    List.drop_left' (updateHeaderOf_length cdata), slice_drop_take _ hn]

theorem ratioText_slice (p : Ptr) (off : Nat) :
    ratioText ((p.advance off).slice 16) =
      decimal (p.u8be off).toNat ++ ascii " / " ++ decimal (p.u8be (off + 8)).toNat := by
  have htake := slice_drop_take (p.advance off) (a := 0) (b := 8) (n := 16) (by decide)
  have hdrop := slice_drop_take (p.advance off) (a := 8) (b := 8) (n := 16) (by decide)
  rw [List.drop_zero, Ptr.advance_zero] at htake
  rw [List.take_of_length_le (by rw [List.length_drop, Ptr.slice_length]), Ptr.advance_advance]
    at hdrop
  rw [ratioText, htake, hdrop, Ptr.u8be_toNat, Ptr.u8be_toNat]

/-- A number in an array with room for 20 digits. -/
theorem number_exact {n : Nat} (b : Buffer n) (p : Ptr) (off : Nat) (hn : 20 ≤ n) :
    cString (b.memmove 0 (decimal (p.u8be off).toNat)).bytes =
        some (decimal (beNat ((p.advance off).slice 8))) ↔
      b.bytes[(decimal (beNat ((p.advance off).slice 8))).length]? = some 0 := by
  have hlen := decimal_length (p.u8be off)
  have h20 := lengthOfNumber_le_twenty (p.u8be off)
  rw [← Ptr.u8be_toNat]
  exact cString_written_iff b (zero_not_mem_decimal _) (by omega)

/-- A ratio in an array of 44 bytes. -/
theorem ratio_exact (b : Buffer 44) (p : Ptr) (off : Nat) :
    cString (b.memmove 0 (decimal (p.u8be off).toNat ++ ascii " / " ++
        decimal (p.u8be (off + 8)).toNat)).bytes = some (ratioText ((p.advance off).slice 16)) ↔
      b.bytes[(ratioText ((p.advance off).slice 16)).length]? = some 0 := by
  have hm := decimal_length (p.u8be off)
  have hn := decimal_length (p.u8be (off + 8))
  have hm20 := lengthOfNumber_le_twenty (p.u8be off)
  have hn20 := lengthOfNumber_le_twenty (p.u8be (off + 8))
  have hsep : (ascii " / ").length = 3 := by decide
  rw [ratioText_slice]
  refine cString_written_iff b (zero_not_mem_ratio _ _) ?_
  rw [List.length_append, List.length_append]
  omega

/-- The mint rate is found terminated in its array. -/
theorem mintRate_exact (b : Buffer 35) (p : Ptr) :
    cString (b.memmove 0 (decimal (p.u4be 8).toNat ++ ascii "*10^(-" ++ decimal (p 12).toNat ++
        literal ")")).bytes = some (mintRate.rendering ((p.advance 8).slice 5)) := by
  have hslice : (p.advance 8).slice 5 = (p.advance 8).slice 4 ++ [p 12] :=
    Ptr.slice_add (p.advance 8) 4 1
  have hm : (p.u4be 8).toNat = beNat ((p.advance 8).slice 4) := Ptr.u4be_toNat p 8
  have he : (p 12).toNat = beNat [p 12] := by simp [beNat]
  have hlen : (decimal (p.u4be 8).toNat).length ≤ 10 := by
    have hl := decimal_length (p.u4be 8).toUInt64
    have hlt := (p.u4be 8).toNat_lt
    have hle := lengthOfNumber_le (p.u4be 8).toUInt64 (j := 10) (by decide)
      (by rw [UInt32.toNat_toUInt64]; omega)
    rw [UInt32.toNat_toUInt64] at hl
    omega
  have hlen' : (decimal (p 12).toNat).length ≤ 3 := by
    have hl := decimal_length (p 12).toUInt64
    have hlt := (p 12).toNat_lt
    have hle := lengthOfNumber_le (p 12).toUInt64 (j := 3) (by decide)
      (by rw [UInt8.toNat_toUInt64]; omega)
    rw [UInt8.toNat_toUInt64] at hl
    omega
  have hexp : (ascii "*10^(-").length = 6 := by decide
  have hclose : literal ")" = ascii ")" ++ [0] := rfl
  have h0 : (0 : UInt8) ∉ decimal (p.u4be 8).toNat ++ ascii "*10^(-" ++ decimal (p 12).toNat ++
      ascii ")" := by
    have h₁ := zero_not_mem_decimal (p.u4be 8).toNat
    have h₂ := zero_not_mem_decimal (p 12).toNat
    have h₃ : (0 : UInt8) ∉ ascii "*10^(-" := by decide
    have h₄ : (0 : UInt8) ∉ ascii ")" := by decide
    simp only [List.mem_append, not_or]
    exact ⟨⟨⟨h₁, h₃⟩, h₂⟩, h₄⟩
  have hparen : (ascii ")").length = 1 := by decide
  rw [hclose, ← List.append_assoc, cString_memmove _ _ h0
    (by simp only [List.length_append, hexp, hparen]; omega)]
  have htake : ((p.advance 8).slice 4 ++ [p 12]).take 4 = (p.advance 8).slice 4 :=
    List.take_left' (Ptr.slice_length _ 4)
  have hdrop : ((p.advance 8).slice 4 ++ [p 12]).drop 4 = [p 12] :=
    List.drop_left' (Ptr.slice_length _ 4)
  rw [hslice, rendering, htake, hdrop, hm, he]

/-! ## The steps that display them -/

section Handlers

variable {sdk : Sdk} {u : GovernanceContext μ ν} {apdu : Apdu} {b : Bool} {t : Device μ}

/-- A step that displays the field shows its value iff the array was cleared. -/
def ShownIff (u : GovernanceContext μ ν) (m : μ) (cdata : Ptr) (f : NumericField) (st : Step)
    (s : Shared) : Prop :=
  st.title ∈ f.titles → (cString st.text = some (f.rendering (f.hashed s.hash)) ↔
    f.Cleared u m cdata)

/-- For a field whose rendering is a text in its array. -/
theorem ShownIff.of_exact {m : μ} {cdata : Ptr} {f : NumericField} {st : Step} {s : Shared}
    (hf : f ≠ mintRate) (hh : f.hashed s.hash = f.received cdata)
    (h : cString st.text = some (f.rendering (f.received cdata)) ↔
      (f.array u m)[(f.rendering (f.received cdata)).length]? = some 0) :
    ShownIff u m cdata f st s := by
  intro _
  rw [hh, h, Cleared]
  exact ⟨.inr, fun hc => hc.resolve_left hf⟩

/-- For a step with another title. -/
theorem ShownIff.of_title {m : μ} {cdata : Ptr} {f : NumericField} {st : Step} {s : Shared}
    (h : st.title ∉ f.titles) : ShownIff u m cdata f st s := fun ht => absurd ht h

/-- What the handler of an instruction displays, once it is known which function handles it. -/
theorem shown_on {m : Member μ γ} {x : Fw γ PUnit} {f : NumericField}
    (hh : governanceHandler sdk u apdu b = Fw.on m x)
    (h : wp x (fun _ t' => ∀ st ∈ putUp t.shared t'.shared,
        ShownIff u t.ctx apdu.cdata f st t'.shared)
      (fun _ t' => putUp t.shared t'.shared = []) ⟨m.get t.ctx, t.shared⟩) :
    wp (governanceHandler sdk u apdu b)
      (fun _ t' => ∀ st ∈ putUp t.shared t'.shared, ShownIff u t.ctx apdu.cdata f st t'.shared)
      (fun _ t' => putUp t.shared t'.shared = []) t := by
  rw [hh, Fw.wp_on]
  exact h

/-- The steps that every flow here starts or ends with. -/
theorem shared_titles (f : NumericField) (text : Buffer 32) :
    uxSignFlowSharedReview.title ∉ f.titles ∧ (uxUpdateType text).title ∉ f.titles ∧
      uxSignFlowSharedSign.title ∉ f.titles ∧ uxSignFlowSharedDecline.title ∉ f.titles := by
  cases f <;> simp [titles, uxSignFlowSharedReview, uxUpdateType, uxSignFlowSharedSign,
    uxSignFlowSharedDecline]

/-- Of a flow with the shared steps around `own`, only the steps of `own` can display a field. -/
theorem shown_own {m : μ} {cdata : Ptr} {f : NumericField} {own : List Step} {s : Shared}
    {text : Buffer 32} (h : ∀ st ∈ own, ShownIff u m cdata f st s) :
    ∀ st ∈ [uxSignFlowSharedReview, uxUpdateType text] ++ own ++ uxSignAndDecline,
      ShownIff u m cdata f st s := by
  obtain ⟨hreview, htype, hsign, hdecline⟩ := shared_titles f text
  intro st hst
  simp only [uxSignAndDecline, List.mem_append, List.mem_cons, List.not_mem_nil, or_false] at hst
  rcases hst with ((rfl | rfl) | hown) | (rfl | rfl)
  · exact .of_title hreview
  · exact .of_title htype
  · exact h st hown
  · exact .of_title hsign
  · exact .of_title hdecline

theorem exchangeRate_shown (hins : apdu.ins = insUpdateExchangeRate) :
    wp (governanceHandler sdk u apdu b)
      (fun _ t' => ∀ st ∈ putUp t.shared t'.shared,
        ShownIff u t.ctx apdu.cdata exchangeRate st t'.shared)
      (fun _ t' => putUp t.shared t'.shared = []) t := by
  refine shown_on (m := u.signExchangeRateContext) (x := handleSignUpdateExchangeRate apdu.cdata)
    (by unfold governanceHandler; rw [hins]; rfl) ?_
  refine wp_mono (exchangeRate_spec _ _) (fun _ t' h st hst => ?_) fun _ _ h => h
  obtain ⟨hd, hratio⟩ := h
  obtain ⟨hreview, -, hsign, hdecline⟩ := shared_titles exchangeRate default
  rw [hd.putUp] at hst
  simp only [SignUpdateExchangeRate.uxSignExchangeRate, uxSignAndDecline, List.cons_append,
    List.nil_append, List.mem_cons, List.not_mem_nil, or_false] at hst
  rcases hst with rfl | rfl | rfl | rfl
  · exact .of_title hreview
  · refine .of_exact (by decide) (hashed_eq_received (by decide) (by decide) hd.hash) ?_
    rw [hratio]
    exact ratio_exact _ _ 0
  · exact .of_title hsign
  · exact .of_title hdecline

theorem timeParameters_shown (hins : apdu.ins = insUpdateTimeParameters) {f : NumericField}
    (hf : f = rewardPeriodLength ∨ f = mintRate) :
    wp (governanceHandler sdk u apdu b)
      (fun _ t' => ∀ st ∈ putUp t.shared t'.shared, ShownIff u t.ctx apdu.cdata f st t'.shared)
      (fun _ t' => putUp t.shared t'.shared = []) t := by
  refine shown_on (m := u.signTimeParameters) (x := handleSignUpdateTimeParameters apdu.cdata)
    (by unfold governanceHandler; rw [hins]; rfl) ?_
  refine wp_mono (timeParameters_spec _ _) (fun _ t' h => ?_) fun _ _ h => h
  obtain ⟨hd, hperiod, hmint⟩ := h
  rw [hd.putUp]
  refine shown_own fun st hst => ?_
  simp only [List.mem_cons, List.not_mem_nil, or_false] at hst
  rcases hf with rfl | rfl <;> rcases hst with rfl | rfl
  · refine .of_exact (by decide) (hashed_eq_received (by decide) (by decide) hd.hash) ?_
    rw [hperiod]
    exact number_exact _ _ 0 (by decide)
  · exact .of_title (by simp [titles])
  · exact .of_title (by simp [titles])
  · intro _
    rw [hashed_eq_received (by decide) (by decide) hd.hash, hmint]
    exact ⟨fun _ => .inl rfl, fun _ => mintRate_exact _ _⟩

theorem cooldownParameters_shown (hins : apdu.ins = insUpdateCooldownParameters)
    {f : NumericField} (hf : f = poolOwnerCooldown ∨ f = delegatorCooldown) :
    wp (governanceHandler sdk u apdu b)
      (fun _ t' => ∀ st ∈ putUp t.shared t'.shared, ShownIff u t.ctx apdu.cdata f st t'.shared)
      (fun _ t' => putUp t.shared t'.shared = []) t := by
  refine shown_on (m := u.signCooldownParameters)
    (x := handleSignUpdateCooldownParameters apdu.cdata)
    (by unfold governanceHandler; rw [hins]; rfl) ?_
  refine wp_mono (cooldownParameters_spec _ _) (fun _ t' h => ?_) fun _ _ h => h
  obtain ⟨hd, howner, hdelegator⟩ := h
  rw [hd.putUp]
  refine shown_own fun st hst => ?_
  simp only [List.mem_cons, List.not_mem_nil, or_false] at hst
  rcases hf with rfl | rfl <;> rcases hst with rfl | rfl
  · refine .of_exact (by decide) (hashed_eq_received (by decide) (by decide) hd.hash) ?_
    rw [howner]
    exact number_exact _ _ 0 (by decide)
  · exact .of_title (by simp [titles])
  · exact .of_title (by simp [titles])
  · refine .of_exact (by decide) (hashed_eq_received (by decide) (by decide) hd.hash) ?_
    rw [hdelegator]
    exact number_exact _ _ 8 (by decide)

theorem timeoutParameters_shown (hins : apdu.ins = insUpdateTimeoutParameters) {f : NumericField}
    (hf : f = timeoutBase ∨ f = increaseTimeoutRatio ∨ f = decreaseTimeoutRatio) :
    wp (governanceHandler sdk u apdu b)
      (fun _ t' => ∀ st ∈ putUp t.shared t'.shared, ShownIff u t.ctx apdu.cdata f st t'.shared)
      (fun _ t' => putUp t.shared t'.shared = []) t := by
  refine shown_on (m := u.signUpdateTimeoutParameters)
    (x := handleSignTimeoutParameters apdu.cdata)
    (by unfold governanceHandler; rw [hins]; rfl) ?_
  refine wp_mono (timeoutParameters_spec _ _) (fun _ t' h => ?_) fun _ _ h => h
  obtain ⟨hd, hbase, hincrease, hdecrease⟩ := h
  rw [hd.putUp]
  refine shown_own fun st hst => ?_
  simp only [List.mem_cons, List.not_mem_nil, or_false] at hst
  rcases hf with rfl | rfl | rfl <;> rcases hst with rfl | rfl | rfl
  · refine .of_exact (by decide) (hashed_eq_received (by decide) (by decide) hd.hash) ?_
    rw [hbase]
    exact number_exact _ _ 0 (by decide)
  · exact .of_title (by simp [titles])
  · exact .of_title (by simp [titles])
  · exact .of_title (by simp [titles])
  · refine .of_exact (by decide) (hashed_eq_received (by decide) (by decide) hd.hash) ?_
    rw [hincrease]
    exact ratio_exact _ _ 8
  · exact .of_title (by simp [titles])
  · exact .of_title (by simp [titles])
  · exact .of_title (by simp [titles])
  · refine .of_exact (by decide) (hashed_eq_received (by decide) (by decide) hd.hash) ?_
    rw [hdecrease]
    exact ratio_exact _ _ 24

theorem blockEnergyLimit_shown (hins : apdu.ins = insUpdateBlockEnergyLimit) :
    wp (governanceHandler sdk u apdu b)
      (fun _ t' => ∀ st ∈ putUp t.shared t'.shared,
        ShownIff u t.ctx apdu.cdata blockEnergyLimit st t'.shared)
      (fun _ t' => putUp t.shared t'.shared = []) t := by
  refine shown_on (m := u.signUpdateBlockEnergyLimit)
    (x := handleSignUpdateBlockEnergyLimit apdu.cdata)
    (by unfold governanceHandler; rw [hins]; rfl) ?_
  refine wp_mono (blockEnergyLimit_spec _ _) (fun _ t' h => ?_) fun _ _ h => h
  obtain ⟨hd, hlimit⟩ := h
  rw [hd.putUp]
  refine shown_own fun st hst => ?_
  cases List.mem_singleton.mp hst
  refine .of_exact (by decide) (hashed_eq_received (by decide) (by decide) hd.hash) ?_
  rw [hlimit]
  exact number_exact _ _ 0 (by decide)

theorem validatorScoreParameters_shown (hins : apdu.ins = insUpdateValidatorScoreParameters) :
    wp (governanceHandler sdk u apdu b)
      (fun _ t' => ∀ st ∈ putUp t.shared t'.shared,
        ShownIff u t.ctx apdu.cdata maxMissedRounds st t'.shared)
      (fun _ t' => putUp t.shared t'.shared = []) t := by
  refine shown_on (m := u.signUpdateValidatorScoreParameters)
    (x := handleSignUpdateValidatorScoreParameters apdu.cdata)
    (by unfold governanceHandler; rw [hins]; rfl) ?_
  refine wp_mono (validatorScoreParameters_spec _ _) (fun _ t' h => ?_) fun _ _ h => h
  obtain ⟨hd, hrounds⟩ := h
  rw [hd.putUp]
  refine shown_own fun st hst => ?_
  cases List.mem_singleton.mp hst
  refine .of_exact (by decide) (hashed_eq_received (by decide) (by decide) hd.hash) ?_
  rw [hrounds]
  exact number_exact _ _ 0 (by decide)

theorem poolParameters_shown (hins : apdu.ins = insUpdatePoolParameters) :
    wp (governanceHandler sdk u apdu b)
      (fun _ t' => ∀ st ∈ putUp t.shared t'.shared,
        ShownIff u t.ctx apdu.cdata leverageBound st t'.shared)
      (fun _ t' => putUp t.shared t'.shared = []) t := by
  refine shown_on (m := u.signPoolParameters)
    (x := handleSignUpdatePoolParameters apdu.cdata apdu.p1 b)
    (by unfold governanceHandler; rw [hins]; rfl) ?_
  refine wp_mono (leverageBound_spec _ _ _ _) (fun _ t' h st hst => ?_) fun _ _ h => h
  by_cases ht : st.title = "Leverage bound"
  · obtain ⟨hhash, htext⟩ := h st hst ht
    have hsent : leverageBound.hashed t'.shared.hash = leverageBound.received apdu.cdata := by
      have hlen : (t.shared.hash ++ apdu.cdata.slice 28).length - 16 = t.shared.hash.length + 12 := by
        rw [List.length_append, Ptr.slice_length]
        omega
      show t'.shared.hash.drop (t'.shared.hash.length - 16) = (apdu.cdata.advance 12).slice 16
      rw [hhash, hlen, ← List.drop_drop, List.drop_left, Ptr.slice_add _ 12 16,
        List.drop_left' (Ptr.slice_length _ 12)]
    refine .of_exact (by decide) hsent ?_
    rw [htext]
    exact ratio_exact _ _ 12
  · exact .of_title (by simpa [titles] using ht)

theorem anonymityRevoker_shown (hins : apdu.ins = insAddAnonymityRevoker) :
    wp (governanceHandler sdk u apdu b)
      (fun _ t' => ∀ st ∈ putUp t.shared t'.shared,
        ShownIff u t.ctx apdu.cdata arIdentity st t'.shared)
      (fun _ t' => putUp t.shared t'.shared = []) t := by
  refine shown_on (m := u.signAddAnonymityRevoker)
    (x := handleSignAddAnonymityRevoker apdu.cdata apdu.p1 apdu.lc b)
    (by unfold governanceHandler; rw [hins]; rfl) ?_
  refine wp_mono (arIdentity_spec _ _ _ _ _) (fun _ t' h st hst => ?_) fun _ _ h => h
  by_cases ht : st.title = "AR Identity"
  · obtain ⟨hhash, hlen, htext⟩ := h st hst ht
    have hvalue := Ptr.u4be_toNat (updatePayload apdu.cdata) 4
    refine .of_exact (by decide) (hashed_eq_received (by decide) (by decide) hhash) ?_
    rw [htext]
    show cString _ = some (decimal (beNat (((updatePayload apdu.cdata).advance 4).slice 4))) ↔
      _[(decimal (beNat (((updatePayload apdu.cdata).advance 4).slice 4))).length]? = _
    rw [← hvalue]
    exact cString_written_append_iff _ (zero_not_mem_decimal _) hlen (by decide)
  · exact .of_title (by simpa [titles] using ht)

/-- What every command of the application displays. -/
theorem handler_shown (f : NumericField) (hins : apdu.ins = f.ins) :
    wp (governanceHandler sdk u apdu b)
      (fun _ t' => ∀ st ∈ putUp t.shared t'.shared, ShownIff u t.ctx apdu.cdata f st t'.shared)
      (fun _ t' => putUp t.shared t'.shared = []) t := by
  cases f with
  | exchangeRate => exact exchangeRate_shown hins
  | rewardPeriodLength => exact timeParameters_shown hins (.inl rfl)
  | mintRate => exact timeParameters_shown hins (.inr rfl)
  | poolOwnerCooldown => exact cooldownParameters_shown hins (.inl rfl)
  | delegatorCooldown => exact cooldownParameters_shown hins (.inr rfl)
  | timeoutBase => exact timeoutParameters_shown hins (.inl rfl)
  | increaseTimeoutRatio => exact timeoutParameters_shown hins (.inr (.inl rfl))
  | decreaseTimeoutRatio => exact timeoutParameters_shown hins (.inr (.inr rfl))
  | blockEnergyLimit => exact blockEnergyLimit_shown hins
  | maxMissedRounds => exact validatorScoreParameters_shown hins
  | leverageBound => exact poolParameters_shown hins
  | arIdentity => exact anonymityRevoker_shown hins

end Handlers

/-! ## Whole runs -/

/-- The command `ev` puts up a step that displays the field. -/
def DisplayedBy (f : NumericField) (d : Device μ) (ev : Event) (d' : Device μ) (st : Step) : Prop :=
  ∃ apdu, ev = .command apdu ∧ apdu.ins = f.ins ∧ st ∈ putUp d.shared d'.shared ∧
    st.title ∈ f.titles

/-- Each number that the event puts on the display is shown as the value that was hashed. -/
def ShownExactly (d : Device μ) (ev : Event) (d' : Device μ) : Prop :=
  ∀ (f : NumericField) (st : Step), f.DisplayedBy d ev d' st →
    cString st.text = some (f.rendering (f.hashed d'.shared.hash))

/-- The array of each number that the event puts on the display was cleared behind the text. -/
def ClearedBefore (u : GovernanceContext μ ν) (d : Device μ) (ev : Event) (d' : Device μ) : Prop :=
  ∀ (f : NumericField) (st : Step) (apdu : Apdu), f.DisplayedBy d ev d' st → ev = .command apdu →
    f.Cleared u d.ctx apdu.cdata

theorem shownExactly_iff {sdk : Sdk} {u : GovernanceContext μ ν} {d d' : Device μ} {ev : Event}
    (h : step (governanceApp sdk u) d ev = some d') :
    ShownExactly d ev d' ↔ ClearedBefore u d ev d' := by
  have hshown : ∀ (f : NumericField) (st : Step) (apdu : Apdu), ev = .command apdu →
      f.DisplayedBy d ev d' st →
      (cString st.text = some (f.rendering (f.hashed d'.shared.hash)) ↔
        f.Cleared u d.ctx apdu.cdata) := by
    rintro f st apdu rfl ⟨_, hev, hins, hst, ht⟩
    cases hev
    refine command_putUp (P := ShownIff u d.ctx apdu.cdata f) h (fun b t hctx => ?_) st hst ht
    rw [← hctx]
    exact handler_shown f hins
  constructor
  · intro hs f st apdu hd hev
    exact (hshown f st apdu hev hd).mp (hs f st hd)
  · intro hc f st hd
    obtain ⟨apdu, hev, hrest⟩ := hd
    have hd : f.DisplayedBy d ev d' st := ⟨apdu, hev, hrest⟩
    exact (hshown f st apdu hev hd).mpr (hc f st apdu hd hev)

/-- In every run, from whatever state, the numbers are displayed exactly iff their arrays were
cleared each time. -/
theorem numbers_displayed_exactly_iff (sdk : Sdk) (u : GovernanceContext μ ν) (d₀ : Device μ)
    (es : List Event) :
    Always (step (governanceApp sdk u)) ShownExactly d₀ es ↔
      Always (step (governanceApp sdk u)) (ClearedBefore u) d₀ es :=
  Always.congr (P := ShownExactly) (Q := ClearedBefore u) fun _ _ _ h => shownExactly_iff h

/-- The block energy limit with a key path of no nodes, after an update header of zeroes. -/
def blockEnergyLimitCommand (value : List UInt8) : Apdu :=
  sent insUpdateBlockEnergyLimit 0 0
    ([0] ++ List.replicate 28 0 ++ [UpdateType.blockEnergyLimit] ++ value)

/-- The limit 10000 is displayed and declined. -/
def declinedLimit : List Event :=
  [.command (blockEnergyLimitCommand [0, 0, 0, 0, 0, 0, 0x27, 0x10]), .press 4]

/-- After it, the limit 7 is displayed as `70000`. -/
theorem limit_after_limit :
    ¬ Always (step (governanceApp zeroAddressSdk GovernanceContexts.layout)) ShownExactly
      bootedGovernance
      (declinedLimit ++ [.command (blockEnergyLimitCommand [0, 0, 0, 0, 0, 0, 0, 7])]) := by
  intro h
  have hex : ((exec (step (governanceApp zeroAddressSdk GovernanceContexts.layout))
      bootedGovernance declinedLimit).any fun d =>
        (step (governanceApp zeroAddressSdk GovernanceContexts.layout) d
          (.command (blockEnergyLimitCommand [0, 0, 0, 0, 0, 0, 0, 7]))).any fun d' =>
          (putUp d.shared d'.shared).any fun st =>
            st.title == "Block energy limit" && cString st.text == some (ascii "70000") &&
              blockEnergyLimit.rendering (blockEnergyLimit.hashed d'.shared.hash) == ascii "7")
      = true := by
    decide
  obtain ⟨d, hd, hex⟩ := (Option.any_eq_true _ _).mp hex
  obtain ⟨d', hd', hex⟩ := (Option.any_eq_true _ _).mp hex
  obtain ⟨st, hst, hex⟩ := List.any_eq_true.mp hex
  simp only [Bool.and_eq_true, beq_iff_eq] at hex
  obtain ⟨⟨ht, hshown⟩, hvalue⟩ := hex
  have hexact := h.last hd hd' blockEnergyLimit st ⟨_, rfl, rfl, hst, by simp [titles, ht]⟩
  rw [hshown, hvalue] at hexact
  revert hexact
  decide

end NumericField

end ConcordiumLedger
