import ConcordiumLedger.Common.Presses
import ConcordiumLedger.Common.ZeroAddress
import ConcordiumLedger.Main.App
import ConcordiumLedger.Main.CborText

/-!
# Main.RegisterData

Registered data is signed as it is shown, in every session whose first data command holds the whole
head of the item.

* `SignedAsShown` — the data commands have brought exactly one item of the declared length, and its
  text is on the display, that of a number with the NUL behind it.
* `Inv`           — the two counters of a session stand as `Memo.Reading` says.
* `signed_as_shown_iff` — the Sign screen is reached with `SignedAsShown` iff the head was complete.
-/

namespace ConcordiumLedger

open CMem CProg CProg.Prog Transition

namespace SignRegisterData

/-! ## What the session says -/

def dataOf : Action → Option (List UInt8)
  | .handler _ p1 _ data => if p1 = p1Data then some data else none
  | _ => none

/-- The data commands of the session. -/
def dataCommands (s : Shared) : List (List UInt8) := (sessionLog s.log).filterMap dataOf

def declaredLength (first : Apdu) : Nat := ((payloadOf first.cdata).u2be 0).toNat

/-- What is hashed of the initial command. -/
def initialBytes (first : Apdu) : List UInt8 :=
  headerOf first.cdata ++ [registerData] ++ (payloadOf first.cdata).slice 2

structure SignedAsShown (first : Apdu) (t : Device Blob) : Prop where
  hash : t.shared.hash = initialBytes first ++ (dataCommands t.shared).flatten
  length : (dataCommands t.shared).flatten.length = declaredLength first
  item : ∃ h rest, Cbor.head (dataCommands t.shared).flatten = some (h, rest) ∧ h.Closes rest ∧
    Memo.written h rest <+: t.ctx.cborContext.display.bytes
  complete : t.ctx.cborContext.cborLength = 0

/-- The first data command holds the whole head of the item. -/
def HeadArrives (s : Shared) : Prop := ((dataCommands s).head?.bind Cbor.head).isSome = true

instance (s : Shared) : Decidable (HeadArrives s) := inferInstanceAs (Decidable (_ = true))

/-! ## Sessions -/

/-- The application as the registration of data sees it. -/
def registerApp (sdk : Sdk) : App Blob where
  handler := fun apdu b => handleSignRegisterData sdk apdu.cdata apdu.p1 apdu.lc b
  callback := sharedCallback sdk fun
    | .handleData => handleData
    | _ => Pure.pure ⟨⟩

def Own (cb : Callback) : Prop := cb.isShared = true ∨ cb = .handleData

/-- What has come of the data in each state. -/
def Stage (first : Apdu) (t : Device Blob) : Prop :=
  match t.ctx.inner.state with
  | .payloadStart => dataCommands t.shared = [] ∧
      t.ctx.cborContext.cborLength.toNat = declaredLength first
  | .payload => ∃ b f more, dataCommands t.shared = f :: more ∧
      Memo.Reading b f more.flatten t.ctx.inner.dataLength.toNat t.ctx.cborContext
  | _ => False

/-- The screens of the session: the initial one until all data has come, and then the one with the
data or the Sign screen, while the last command has no reply. -/
def OnScreen (t : Device Blob) : Prop :=
  Only [.none, .sendSuccessNoIdle, .osSchedExit] t.shared.display ∧
      (t.shared.running = true → t.shared.currentInstruction ≠ none →
        t.ctx.inner.state = .payload → t.ctx.inner.dataLength ≠ 0) ∨
    t.ctx.inner.state = .payload ∧ t.ctx.inner.dataLength = 0 ∧
      (t.shared.running = true → t.shared.currentInstruction ≠ none →
        t.shared.replyOwed = true) ∧
      Only [.none, .handleData, .buildAndSignTransactionHash, .sendUserRejection] t.shared.display

structure Inv (first : Apdu) (t : Device Blob) : Prop where
  instruction : ∀ i, t.shared.currentInstruction = some i → i = first.ins
  length_le : declaredLength first ≤ 256
  hash : t.shared.hash = initialBytes first ++ (dataCommands t.shared).flatten
  left : (dataCommands t.shared).flatten.length + t.ctx.inner.dataLength.toNat =
    declaredLength first
  stage : Stage first t
  screen : OnScreen t

variable {sdk : Sdk} {t t' t₀ : Device Blob} {first apdu : Apdu}

theorem dataCommands_quiet {s s' : Shared} {as : List Action} (hl : s'.log = s.log ++ as)
    (hq : ∀ a ∈ as, a.quiet = true) : dataCommands s' = dataCommands s := by
  have hnone : as.filterMap dataOf = [] := by
    rw [List.filterMap_eq_nil_iff]
    intro a ha
    have ha := hq a ha
    cases a with
    | handler ins p1 _ data => cases ha
    | _ => rfl
  rw [dataCommands, hl, sessionLog_append_quiet hq, List.filterMap_append, hnone, List.append_nil,
    dataCommands]

theorem Stage.of_eq (h : Stage first t) (hc : t'.ctx = t.ctx)
    (hd : dataCommands t'.shared = dataCommands t.shared) : Stage first t' := by
  unfold Stage at h ⊢
  rwa [hc, hd]

/-- A press of a shared step. -/
theorem Inv.passed (h : Inv first t) (hp : Passed t t') (hs : OnScreen t') : Inv first t' := by
  obtain ⟨as, hl, hq⟩ := hp.log
  have hd := dataCommands_quiet hl hq
  exact {
    instruction := fun i hi => h.instruction i (hp.instruction i hi)
    length_le := h.length_le
    hash := by rw [hp.hash, hd]; exact h.hash
    left := by rw [hp.ctx, hd]; exact h.left
    stage := h.stage.of_eq hp.ctx hd
    screen := hs }

theorem uxSignFlowShared_only :
    Only [.none, .handleData, .buildAndSignTransactionHash, .sendUserRejection]
      uxSignFlowShared := by
  simp [Only, uxSignFlowShared, uxSignFlowSharedSign, uxSignFlowSharedDecline]

/-- What a press of a shared step leaves on the display; on the screen with the data and on the Sign
screen it sends no reply while the session goes on. -/
theorem OnScreen.passed (h : OnScreen t) (hp : Passed t t')
    (ho : t.ctx.inner.dataLength = 0 → t'.shared.running = true →
      t'.shared.currentInstruction ≠ none → t'.shared.replyOwed = t.shared.replyOwed) :
    OnScreen t' := by
  rcases hp.display with ⟨-, hd⟩ | hd
  · rcases h with ⟨h, hne⟩ | ⟨hst, hleft, howed, hon⟩
    · refine .inl ⟨hd ▸ h, fun hr hi => ?_⟩
      obtain ⟨-, hins, hrun, -⟩ := hp.goes_on hr hi
      rw [hp.ctx]
      exact hne hrun (hins ▸ hi)
    · refine .inr ⟨hp.ctx ▸ hst, hp.ctx ▸ hleft, fun hr hi => ?_, hd ▸ hon⟩
      obtain ⟨-, hins, hrun, -⟩ := hp.goes_on hr hi
      rw [ho hleft hr hi]
      exact howed hrun (hins ▸ hi)
  · refine .inl ⟨hd ▸ uxMenuIdleFlow_only.mono (by simp), fun hr hi hst hz => ?_⟩
    obtain ⟨hdisp, hins, hrun, -⟩ := hp.goes_on hr hi
    rw [hp.ctx] at hst hz
    rcases h with ⟨-, hne⟩ | ⟨-, -, -, hon⟩
    · exact hne hrun (hins ▸ hi) hst hz
    · have hexit : (uxMenuIdleFlow[1]).callback = .osSchedExit := rfl
      have := hon uxMenuIdleFlow[1] (by rw [← hdisp, hd]; simp)
      rw [hexit] at this
      simp at this

theorem press_inv {i : Nat} (h : Inv first t) :
    Inv first (finish ((registerApp sdk).callback (t.shared.pressed i) t)) := by
  have hpass (cb : Callback) (hcb : cb.isShared = true) :
      Passed t (finish ((registerApp sdk).callback cb t)) :=
    sharedCallback_passed t sdk hcb
  rcases h.screen with ⟨hs, hne⟩ | ⟨hst, hleft, howed, hon⟩
  · -- A step of the initial screen, or of the menu after the session.
    have hm := pressed_mem hs (by decide) i
    have hcb : (t.shared.pressed i).isShared = true := by
      simp only [List.mem_cons, List.not_mem_nil, or_false] at hm
      rcases hm with hm | hm | hm <;> rw [hm] <;> rfl
    have hp := hpass _ hcb
    refine h.passed hp ?_
    refine .inl ⟨?_, fun hr hi => ?_⟩
    · rcases hp.display with ⟨-, hd⟩ | hd
      · exact hd ▸ hs
      · exact hd ▸ uxMenuIdleFlow_only.mono (by simp)
    · obtain ⟨-, hins, hrun, -⟩ := hp.goes_on hr hi
      rw [hp.ctx]
      exact hne hrun (hins ▸ hi)
  · have hm := pressed_mem hon (by decide) i
    simp only [List.mem_cons, List.not_mem_nil, or_false] at hm
    rcases hm with hm | hm | hm | hm
    · have hp := hpass .none rfl
      rw [hm]
      exact h.passed hp (h.screen.passed hp fun _ _ _ => rfl)
    · -- The data is confirmed: none of it is left, so the Sign screen comes up.
      have hsign : finish ((registerApp sdk).callback .handleData t) =
          ⟨t.ctx, t.shared.uxFlowInit uxSignFlowShared⟩ := by
        apply finish_of_wp (P := fun t' => t' = _)
        show wp handleData _ _ t
        simp only [handleData, wp_bind, Fw.wp_getCtx, wp_ite, hleft]
        exact ⟨fun hc => absurd hc (by decide), fun _ => rfl⟩
      rw [hm, hsign]
      have hd : dataCommands (t.shared.uxFlowInit uxSignFlowShared) = dataCommands t.shared := by
        simp [dataCommands, sessionStep, dataOf]
      exact {
        instruction := h.instruction
        length_le := h.length_le
        hash := by rw [hd]; exact h.hash
        left := by rw [hd]; exact h.left
        stage := h.stage.of_eq rfl hd
        screen := .inr ⟨hst, hleft, howed, uxSignFlowShared_only⟩ }
    · have hp := hpass .buildAndSignTransactionHash rfl
      rw [hm]
      refine h.passed hp (h.screen.passed hp fun _ hr hi => ?_)
      exact absurd (buildAndSign_ended t sdk hr) hi
    · have hp := hpass .sendUserRejection rfl
      rw [hm]
      exact h.passed hp (h.screen.passed hp fun _ _ hi => absurd rfl hi)

theorem dataCommands_entered (t : Device Blob) (apdu : Apdu) (hp : apdu.p1 = p1Data) :
    dataCommands (entered t apdu).shared = dataCommands t.shared ++ [apdu.data] := by
  simp [dataCommands, entered, sessionStep, dataOf, hp]

theorem initial_inv (h : (registerApp sdk).handler first true (opened t₀ first) = .ok ⟨⟩ t) :
    Inv first t := by
  have hw : wp ((registerApp sdk).handler first true) (fun _ t => Inv first t) (fun _ _ => True)
      (opened t₀ first) := by
    simp only [registerApp, handleSignRegisterData, readData, setState, wp_bind, Fw.wp_when,
      Fw.wp_getCtx, Fw.wp_modifyCtx, Fw.wp_throw, wp_ite, and_true, true_implies,
      not_true_eq_false, false_implies, wp_parseKeyDerivationPath, wp_cxSha256Init, implies_true,
      true_and]
    refine ⟨fun hp1 _ => ?_, fun _ _ => by simp⟩
    refine wp_header (d := ⟨_, (opened t₀ first).shared⟩) fun s' hs => ?_
    simp only [Fw.wp_throwIf, implies_true, true_and, wp_bind, Fw.wp_modifyCtx, wp_updateHash,
      wp_uxFlowInit, wp_waitForButton]
    have hpl : (first.cdata.advance (1 + 4 * (first.cdata 0).toNat)).advance 61 =
        payloadOf first.cdata := by simp [payloadOf]
    rw [hpl]
    intro hle
    have hdata : dataCommands { (s'.updateHash ((payloadOf first.cdata).slice 2)).uxFlowInit
        (uxRegisterDataInitial (s'.updateHash ((payloadOf first.cdata).slice 2))) with
        asynchReply := true } = [] := by
      simp [dataCommands, hs.log, opened, sessionStep, dataOf, hp1, p1Initial, p1Data]
    have hlen : ((payloadOf first.cdata).u2be 0).toUInt32.toNat = declaredLength first := by
      simp [declaredLength]
    exact {
      instruction := by
        intro i hi
        have hins : s'.currentInstruction = some i := hi
        rw [hs.instruction] at hins
        cases hins
        rfl
      length_le := by
        have := UInt32.le_iff_toNat_le.mp (UInt32.not_lt.mp hle)
        rw [hlen] at this
        exact this
      hash := by
        rw [hdata]
        show s'.hash ++ _ = _
        rw [hs.hash]
        simp [initialBytes]
      left := by rw [hdata]; simp [declaredLength]
      stage := ⟨hdata, hlen⟩
      screen := by
        refine .inl ⟨?_, fun _ _ hst => by cases hst⟩
        show Only _ (uxRegisterDataInitial _)
        simp [Only, uxRegisterDataInitial, uxSignFlowSharedReview, uxSignFlowAccountSenderView] }
  exact ok_of_wp hw h

theorem sub_toNat {n : UInt16} {lc : UInt8} (h : ¬ n < lc.toUInt16) :
    lc.toNat ≤ n.toNat ∧ (n - lc.toUInt16).toNat = n.toNat - lc.toNat := by
  have hle := UInt16.le_iff_toNat_le.mp (UInt16.not_lt.mp h)
  rw [UInt8.toNat_toUInt16] at hle
  refine ⟨hle, ?_⟩
  rw [UInt16.toNat_sub_of_le _ _ (UInt16.not_lt.mp h), UInt8.toNat_toUInt16]

/-- The end of a data command: the data is shown when all of it has come. -/
theorem shown_inv {c : Blob} {s : Shared} (hi : ∀ i, s.currentInstruction = some i → i = first.ins)
    (hle : declaredLength first ≤ 256)
    (hh : s.hash = initialBytes first ++ (dataCommands s).flatten)
    (hl : (dataCommands s).flatten.length + c.inner.dataLength.toNat = declaredLength first)
    (hst : c.inner.state = .payload) (hs : Stage first ⟨c, s⟩)
    (hd : Only [.none, .sendSuccessNoIdle, .osSchedExit] s.display) (ho : s.replyOwed = true) :
    wp (do
        let ctx ← Fw.getCtx
        if ctx.inner.dataLength = 0 then do
          uxFlowInit fun d => uxRegisterDataPayload d.ctx.cborContext
          waitForButton
        else sendSuccessNoIdle : Fw Blob PUnit.{1})
      (fun _ t => Inv first t) (fun _ _ => True) ⟨c, s⟩ := by
  simp only [wp_bind, Fw.wp_getCtx, wp_ite, wp_uxFlowInit, wp_waitForButton, wp_sendSuccessNoIdle]
  refine ⟨fun hz => ?_, fun _ => ?_⟩
  · have hdata : dataCommands { s.uxFlowInit (uxRegisterDataPayload c.cborContext) with
        asynchReply := true } = dataCommands s := by
      simp [dataCommands, sessionStep, dataOf]
    exact {
      instruction := hi
      length_le := hle
      hash := by rw [hdata]; exact hh
      left := by rw [hdata]; exact hl
      stage := hs.of_eq rfl hdata
      screen := by
        refine .inr ⟨hst, hz, fun _ _ => ho, ?_⟩
        show Only _ (uxRegisterDataPayload c.cborContext)
        simp [Only, uxRegisterDataPayload] }
  · rename_i hne
    have hdata : dataCommands (s.reply [] success) = dataCommands s := by
      simp [dataCommands, sessionStep, dataOf]
    exact {
      instruction := hi
      length_le := hle
      hash := by rw [hdata]; exact hh
      left := by rw [hdata]; exact hl
      stage := hs.of_eq rfl hdata
      screen := .inl ⟨hd, fun _ _ _ => hne⟩ }

theorem command_inv (h : Inv first t)
    (hstep : SessionStep (registerApp sdk) t (.command apdu) t') : Inv first t' := by
  obtain ⟨hcur, hr, ho, hh⟩ := hstep
  -- Without a reply owed the data is not on the display yet.
  have hcur' : t.shared.currentInstruction ≠ none := by rw [hcur]; simp
  have hd : Only [.none, .sendSuccessNoIdle, .osSchedExit] t.shared.display ∧
      (t.ctx.inner.state = .payload → t.ctx.inner.dataLength ≠ 0) := by
    rcases h.screen with ⟨hs, hne⟩ | ⟨-, -, howed, -⟩
    · exact ⟨hs, hne hr hcur'⟩
    · rw [howed hr hcur'] at ho; cases ho
  have hw : wp ((registerApp sdk).handler apdu false) (fun _ t => Inv first t) (fun _ _ => True)
      (entered t apdu) := by
    have hstage : Stage first t := h.stage
    have hin : (entered t apdu).ctx = t.ctx := rfl
    have hne : t.ctx.inner.state ≠ .initial := by
      intro hst; unfold Stage at hstage; rw [hst] at hstage; exact hstage
    simp only [registerApp, handleSignRegisterData, wp_bind, Fw.wp_when, Fw.wp_getCtx, Fw.wp_throw,
      wp_ite, Bool.false_eq_true, false_implies, true_and, not_false_eq_true, true_implies,
      implies_true, and_true, hin, hne, and_false]
    intro hp
    simp only [Fw.wp_throwIf, implies_true, true_and, Fw.wp_modifyCtx, wp_updateHash, wp_bind]
    intro hlt
    obtain ⟨hlc, hsub⟩ := sub_toNat (n := t.ctx.inner.dataLength) hlt
    let s := (entered t apdu).shared.updateHash (apdu.cdata.slice apdu.lc.toNat)
    have hdata : dataCommands s = dataCommands t.shared ++ [apdu.data] := by
      rw [← dataCommands_entered t apdu hp]
      simp [s, dataCommands, sessionStep, dataOf]
    have hlen : apdu.data.length = apdu.lc.toNat := Ptr.slice_length _ _
    have hhash : s.hash = initialBytes first ++ (dataCommands s).flatten := by
      have he : (entered t apdu).shared.hash = t.shared.hash := rfl
      rw [hdata, List.flatten_append, ← List.append_assoc, ← h.hash]
      simp [s, he, Apdu.data]
    have hleft : (dataCommands s).flatten.length +
        (t.ctx.inner.dataLength - apdu.lc.toUInt16).toNat = declaredLength first := by
      have := h.left
      rw [hdata, hsub]
      simp only [List.flatten_append, List.flatten_cons, List.flatten_nil, List.append_nil,
        List.length_append, hlen]
      omega
    have hins : ∀ i, s.currentInstruction = some i → i = first.ins := fun i hi =>
      h.instruction i hi
    unfold Stage at hstage
    cases hst : t.ctx.inner.state with
    | payloadStart =>
      rw [hst] at hstage
      obtain ⟨hnone, hc⟩ := hstage
      have hst' : (entered t apdu).ctx.inner.state = .payloadStart := hst
      simp only [readData, setState, Fw.onCbor, wp_bind, Fw.wp_getCtx, hst', Fw.wp_modifyCtx,
        wp_zoom]
      refine wp_mono (Memo.readCborInitial_item _ _) ?_ (fun _ _ _ => trivial)
      rintro _ ⟨c, s'⟩ ⟨rfl, sz, n, hread⟩
      have hleft0 : t.ctx.inner.dataLength.toNat = declaredLength first := by
        have := h.left
        rw [hnone] at this
        simpa using this
      have hreading := Memo.reading_first hread hc h.length_le (by omega)
      refine shown_inv (c := ⟨⟨t.ctx.inner.dataLength - apdu.lc.toUInt16, .payload⟩, c⟩) hins
        h.length_le hhash hleft rfl ?_ hd.1 rfl
      refine ⟨t.ctx.cborContext.display, apdu.data, [], by rw [hdata, hnone]; rfl, ?_⟩
      show Memo.Reading _ apdu.data [] (t.ctx.inner.dataLength - apdu.lc.toUInt16).toNat c
      rw [hsub, hleft0]
      exact hreading
    | payload =>
      rw [hst] at hstage
      obtain ⟨b, f, more, hcmds, hreading⟩ := hstage
      have hst' : (entered t apdu).ctx.inner.state = .payload := hst
      simp only [readData, Fw.onCbor, wp_bind, Fw.wp_getCtx, hst', Fw.wp_throwIf, implies_true,
        true_and, wp_zoom, not_not]
      intro hzero
      have hz : (t.ctx.inner.dataLength - apdu.lc.toUInt16).toNat = 0 :=
        congrArg UInt16.toNat hzero
      have hne0 : t.ctx.inner.dataLength.toNat ≠ 0 := fun e =>
        hd.2 hst (UInt16.toNat_inj.mp e)
      refine wp_mono (hreading.content hne0 (by omega) fun c hc => ?_) (fun _ _ h => h)
        (fun _ _ _ => trivial)
      refine shown_inv (c := ⟨⟨t.ctx.inner.dataLength - apdu.lc.toUInt16, .payload⟩, c⟩) hins
        h.length_le hhash hleft rfl ?_ hd.1 rfl
      refine ⟨b, f, more ++ [apdu.data], by rw [hdata, hcmds]; rfl, ?_⟩
      show Memo.Reading b f _ (t.ctx.inner.dataLength - apdu.lc.toUInt16).toNat c
      rw [hz, List.flatten_append, List.flatten_singleton]
      exact hc
    | initial => exact absurd hst hne
    | stale => rw [hst] at hstage; exact hstage.elim
  exact ok_of_wp hw hh

theorem session_inv {ev : Event} (h : Inv first t)
    (hstep : SessionStep (registerApp sdk) t ev t') : Inv first t' := by
  cases ev with
  | command apdu => exact command_inv h hstep
  | press i =>
    obtain ⟨-, -, rfl⟩ := hstep
    exact press_inv h
  | noApdu => exact hstep.elim

theorem embeds {μ : Type} (sdk : Sdk) (u : InstructionContext μ) :
    Embeds (mainApp sdk u) u.signRegisterData (registerApp sdk) insRegisterData Own where
  handler := by
    intro apdu b hins
    have hh : (mainApp sdk u).handler apdu b = Fw.on u.signRegisterData
        (handleSignRegisterData sdk apdu.cdata apdu.p1 apdu.lc b) := by
      simp only [mainApp, mainHandler, hins]
      rfl
    rw [hh]
    exact Views.on _ _
  callback := by
    rintro cb (hs | rfl)
    · exact Views.sharedCallback _ sdk hs
    · exact Views.on _ _

theorem Inv.pressed (h : Inv first t) (i : Nat) : Own (t.shared.pressed i) := by
  have hon : Only [.none, .sendSuccessNoIdle, .osSchedExit, .handleData,
      .buildAndSignTransactionHash, .sendUserRejection] t.shared.display := by
    rcases h.screen with ⟨hs, -⟩ | ⟨-, -, -, hs⟩
    · exact hs.mono (by simp)
    · exact hs.mono (by simp)
  have hm := pressed_mem hon (by decide) i
  simp only [List.mem_cons, List.not_mem_nil, or_false] at hm
  rcases hm with hm | hm | hm | hm | hm | hm <;> rw [hm]
  · exact .inl rfl
  · exact .inl rfl
  · exact .inl rfl
  · exact .inr rfl
  · exact .inl rfl
  · exact .inl rfl

section Session

variable {μ : Type} {u : InstructionContext μ} {d₀ d₁ d : Device μ}

theorem run_inv (hb : begins (mainApp sdk u) insRegisterData d₀ first d₁)
    (hrun : Run (lockStep (mainApp sdk u)) (fun _ _ => True) d₁ d) :
    Inv first (d.view u.signRegisterData) := by
  have hins : first.ins = insRegisterData := hb.2.1
  refine (embeds sdk u).invariant (C := fun _ _ => True) hb hrun ?_ ?_ ?_ ?_
  · exact fun t h => initial_inv h
  · exact fun t hP i hi => hins ▸ hP.instruction i hi
  · exact fun t i hP _ => hP.pressed i
  · exact fun t e t' hP _ hs => session_inv hP hs

/-- When the Sign screen is reached the data is signed as shown, unless the first data command was
shorter than the head of the item. -/
theorem signed_as_shown_iff (hb : begins (mainApp sdk u) insRegisterData d₀ first d₁)
    (hrun : Run (lockStep (mainApp sdk u)) (fun _ _ => True) d₁ d)
    (hs : offersSign d.shared.display = true) :
    SignedAsShown first (d.view u.signRegisterData) ↔ HeadArrives d.shared := by
  have hinv := run_inv hb hrun
  rcases hinv.screen with ⟨hon, -⟩ | ⟨hst, hleft, -, -⟩
  · have hno : offersSign d.shared.display = false := hon.not_offersSign (by decide)
    rw [hno] at hs
    cases hs
  · have hstage := hinv.stage
    unfold Stage at hstage
    rw [hst] at hstage
    obtain ⟨b, f, more, hcmds, hreading⟩ := hstage
    rw [hleft] at hreading
    have hview : dataCommands d.shared = f :: more := hcmds
    have hflat : (dataCommands d.shared).flatten = f ++ more.flatten := by
      rw [hview, List.flatten_cons]
    have hhead : HeadArrives d.shared ↔ (Cbor.head f).isSome = true := by
      rw [HeadArrives, hview]
      rfl
    have hlen := hinv.left
    rw [hleft] at hlen
    obtain ⟨hiff, hitem⟩ := hreading.complete_iff
    rw [hhead, ← hiff]
    constructor
    · intro h
      exact h.complete
    · intro hzero
      obtain ⟨h, rest, hh, hcloses, hfits, hdisp⟩ := (hitem hzero).item
      refine ⟨hinv.hash, hlen, ⟨h, rest, by rw [← hh]; exact congrArg Cbor.head hflat, hcloses, ?_⟩,
        hzero⟩
      rw [hdisp]
      exact Buffer.prefix_memmove _ hfits

end Session

/-- The key path with one node, the header and a declared length of one byte. -/
def initialCommand (node : List UInt8) : Apdu :=
  sent insRegisterData p1Initial 0
    ([1] ++ node ++ List.replicate 60 0 ++ [registerData] ++ [0, 1])

/-- A data command of one byte; the buffer still holds the key path behind it. -/
def dataCommand (node : List UInt8) (b : UInt8) : Apdu :=
  { sent insRegisterData p1Data 0 [b] with cdata := Ptr.ofBytes ([b] ++ node) }

/-- The initial screen is confirmed, one byte of data is sent, and the data is confirmed. -/
def events (node : List UInt8) (b : UInt8) : List Event :=
  [.press 2, .command (dataCommand node b), .press 0]

/-- The device after the initial command and the events above. -/
def afterEvents (node : List UInt8) (b : UInt8) : Option (Device Contexts × Device Contexts) := do
  let app := mainApp zeroAddressSdk Contexts.layout
  let d₁ ← accepted (dispatch app (initialCommand node) (receivedCommand bootedDevice))
  let d ← exec (guarded (lockStep app) fun _ _ => True) d₁ (events node b)
  return (d₁, d)

theorem afterEvents_run {node : List UInt8} {b : UInt8} {d₁ d : Device Contexts}
    (h : afterEvents node b = some (d₁, d)) :
    begins (mainApp zeroAddressSdk Contexts.layout) insRegisterData bootedDevice
        (initialCommand node) d₁ ∧
      Run (lockStep (mainApp zeroAddressSdk Contexts.layout)) (fun _ _ => True) d₁ d := by
  simp only [afterEvents, Option.bind_eq_bind, Option.bind_eq_some_iff] at h
  obtain ⟨d₁', hd₁, d', hd, he⟩ := h
  cases he
  exact ⟨⟨⟨rfl, rfl, rfl⟩, rfl, hd₁⟩, exec_run hd⟩

/-- The number 5. -/
theorem signed_as_shown_five :
    ∃ d₁ d : Device Contexts,
      begins (mainApp zeroAddressSdk Contexts.layout) insRegisterData bootedDevice
        (initialCommand [0, 0, 0, 0]) d₁ ∧
      Run (lockStep (mainApp zeroAddressSdk Contexts.layout)) (fun _ _ => True) d₁ d ∧
      offersSign d.shared.display = true ∧
      SignedAsShown (initialCommand [0, 0, 0, 0]) (d.view Contexts.layout.signRegisterData) := by
  have hex : (afterEvents [0, 0, 0, 0] 5).any (fun p =>
      offersSign p.2.shared.display && HeadArrives p.2.shared) = true := by
    delta afterEvents mainApp mainHandler
    simp only [handleSignRegisterData, hashAccountTransactionHeaderAndKind,
      addressText_zeroAddressSdk]
    decide
  obtain ⟨⟨d₁, d⟩, hp, hc⟩ := (Option.any_eq_true _ _).mp hex
  simp only [Bool.and_eq_true, decide_eq_true_eq] at hc
  obtain ⟨hb, hrun⟩ := afterEvents_run hp
  exact ⟨d₁, d, hb, hrun, hc.1, (signed_as_shown_iff hb hrun hc.1).mpr hc.2⟩

/-- The data is one byte, which announces a text whose length is read from the key path that is
still in the buffer. -/
theorem stale_length_signed :
    ∃ d₁ d : Device Contexts,
      begins (mainApp zeroAddressSdk Contexts.layout) insRegisterData bootedDevice
        (initialCommand [0xFF, 0xFF, 0xFF, 0xFC]) d₁ ∧
      Run (lockStep (mainApp zeroAddressSdk Contexts.layout)) (fun _ _ => True) d₁ d ∧
      offersSign d.shared.display = true ∧
      ¬ SignedAsShown (initialCommand [0xFF, 0xFF, 0xFF, 0xFC])
        (d.view Contexts.layout.signRegisterData) := by
  have hex : (afterEvents [0xFF, 0xFF, 0xFF, 0xFC] 0x7A).any (fun p =>
      offersSign p.2.shared.display &&
        p.2.ctx.signRegisterData.cborContext.cborLength != 0) = true := by
    delta afterEvents mainApp mainHandler
    simp only [handleSignRegisterData, hashAccountTransactionHeaderAndKind,
      addressText_zeroAddressSdk]
    decide
  obtain ⟨⟨d₁, d⟩, hp, hc⟩ := (Option.any_eq_true _ _).mp hex
  simp only [Bool.and_eq_true, bne_iff_ne] at hc
  obtain ⟨hb, hrun⟩ := afterEvents_run hp
  exact ⟨d₁, d, hb, hrun, hc.1, fun h => hc.2 h.complete⟩

end SignRegisterData
end ConcordiumLedger
