import ConcordiumLedger.Common.ZeroAddress
import ConcordiumLedger.Main.App
import ConcordiumLedger.Main.BakerFields

/-!
# Main.ConfigureBaker

A baker configuration is serialised as its bitmap announces, for every bitmap of eight bits but
one: with exactly the four fields of the first screen announced, the steps of that screen and the
end marker do not fit its array. A bitmap with a bit above the eighth is accepted, although no
field belongs to it.

* `Announced`  — the bytes that are signed are what the bitmap announces, and are shown.
* `Collecting` — what has been received and shown before each kind of packet.
* `Inv`        — the invariant of a session.
-/

namespace ConcordiumLedger

open CMem CProg CProg.Prog Transition

namespace SignConfigureBaker

/-- The application as the baker configuration sees it. -/
def bakerApp (sdk : Sdk) : App Context where
  handler := fun apdu b => handleSignConfigureBaker sdk apdu.cdata apdu.p1 apdu.lc b
  callback := sharedCallback sdk fun _ => Pure.pure ⟨⟩

def bitmapOf (first : Apdu) : UInt16 := (payloadOf first.cdata).u2be 0

def fieldsOf (first : Apdu) : Fields := Fields.ofBitmap (bitmapOf first)

/-- The hash input before the fields. -/
def initialBytes (first : Apdu) : List UInt8 :=
  headerOf first.cdata ++ [configureBaker] ++ (payloadOf first.cdata).slice 2

/-- What has been received of the fields: each one is hashed after the initial bytes, and
shown. -/
def Upto (first : Apdu) (xs : List Field) (s : Shared) : Prop :=
  ∃ rs, Collected (fieldsOf first) xs rs ∧ (∀ r ∈ rs, Shown s r.1 r.2) ∧
    s.hash = initialBytes first ++ payload rs

/-- The transaction is what the bitmap announces: the announced fields are hashed in order and
shown, every bit belongs to a field, and the screens fit their arrays. -/
structure Announced (first : Apdu) (s : Shared) : Prop where
  fields : Upto first Field.all s
  bits : ∀ i, (bitmapOf first).toNat.testBit i = true → ∃ x : Field, x.bit = i
  arrays : ∀ flow ∈ screens s, FitsArray flow

/-- What the property says about a state: if the Sign step is displayed, the transaction is what
the bitmap announces. -/
def SignsAnnounced {μ : Type} (first : Apdu) (d : Device μ) : Prop :=
  offersSign d.shared.display = true → Announced first d.shared

/-- What has been received and shown when the next packet is awaited. -/
def Collecting (first : Apdu) (t : Device Context) : Prop :=
  match t.ctx.state with
  | .first => screens t.shared = [] ∧ t.shared.hash = initialBytes first
  | .aggregationKey => (fieldsOf first).hasKeys = true ∧ screens t.shared = [] ∧ ∃ rs keys,
      Collected (fieldsOf first) [.capital, .restakeEarnings, .openForDelegation] rs ∧
      Holds t.ctx rs ∧ keys.length = 192 ∧
      t.shared.hash = initialBytes first ++ payload rs ++ keys
  | .urlLength => urlTexts (screens t.shared).flatten = [] ∧ Upto first firstFields t.shared
  | .url => (fieldsOf first).hasMetadataUrl = true ∧ 0 < t.ctx.url.urlLength.toNat ∧
      ∃ rs size part, Collected (fieldsOf first) firstFields rs ∧
      (∀ r ∈ rs, Shown t.shared r.1 r.2) ∧ size.length = 2 ∧
      part.length + t.ctx.url.urlLength.toNat = beNat size ∧
      Pages part (urlTexts (screens t.shared).flatten) ∧
      t.shared.hash = initialBytes first ++ payload rs ++ (size ++ part)
  | .commissionRates => (fieldsOf first).hasCommissionRate = true ∧
      Upto first (firstFields ++ [.metadataUrl]) t.shared
  | .finished => False
  | .stale => False

/-- A session that waits for the next packet or for the user at the Sign screen. -/
structure Active (first : Apdu) (t : Device Context) : Prop where
  fields : t.ctx.fields = fieldsOf first
  stage : Signing t ∨ offersSign t.shared.display = false ∧ Collecting first t

structure Inv (first : Apdu) (t : Device Context) : Prop where
  instruction : ∀ i, t.shared.currentInstruction = some i → i = first.ins
  screen : screens t.shared ≠ [] → ∀ st ∈ t.shared.display, st.callback.isShared = true
  active : t.shared.running = true → t.shared.currentInstruction ≠ none → Active first t
  sign : offersSign t.shared.display = true → Upto first Field.all t.shared ∧
    ((fieldsOf first).firstOnly = true → ∃ flow ∈ screens t.shared, ¬ FitsArray flow)
  arrays : (fieldsOf first).firstOnly = false → ∀ flow ∈ screens t.shared, FitsArray flow

variable {sdk : Sdk} {t t' t₀ : Device Context} {first apdu : Apdu}

theorem Upto.congr {xs : List Field} {s s' : Shared} (h : Upto first xs s)
    (hh : s'.hash = s.hash) (hs : screens s' = screens s) : Upto first xs s' := by
  obtain ⟨rs, hcol, hshown, hhash⟩ := h
  exact ⟨rs, hcol, fun r hr => (hshown r hr).congr hs, hh.trans hhash⟩

theorem Collecting.ofUrlLength (hst : t.ctx.state = .urlLength)
    (hurl : urlTexts (screens t.shared).flatten = []) (h : Upto first firstFields t.shared) :
    Collecting first t := by
  unfold Collecting
  rw [hst]
  exact ⟨hurl, h⟩

theorem Collecting.ofUrl (hst : t.ctx.state = .url) (hu : (fieldsOf first).hasMetadataUrl = true)
    (hleft : 0 < t.ctx.url.urlLength.toNat) {rs : List (Field × List UInt8)}
    (size part : List UInt8) (hcol : Collected (fieldsOf first) firstFields rs)
    (hshown : ∀ r ∈ rs, Shown t.shared r.1 r.2) (hsize : size.length = 2)
    (hpart : part.length + t.ctx.url.urlLength.toNat = beNat size)
    (hpages : Pages part (urlTexts (screens t.shared).flatten))
    (hh : t.shared.hash = initialBytes first ++ payload rs ++ (size ++ part)) :
    Collecting first t := by
  unfold Collecting
  rw [hst]
  exact ⟨hu, hleft, rs, size, part, hcol, hshown, hsize, hpart, hpages, hh⟩

theorem Collecting.ofCommissionRates (hst : t.ctx.state = .commissionRates)
    (hr : (fieldsOf first).hasCommissionRate = true)
    (h : Upto first (firstFields ++ [.metadataUrl]) t.shared) : Collecting first t := by
  unfold Collecting
  rw [hst]
  exact ⟨hr, h⟩

/-! ## Presses -/

theorem Collecting.of_eq (h : Collecting first t) (hc : t'.ctx = t.ctx)
    (hh : t'.shared.hash = t.shared.hash) (hs : screens t'.shared = screens t.shared) :
    Collecting first t' := by
  unfold Collecting at h ⊢
  rw [hc]
  split at h
  · rwa [hs, hh]
  · rwa [hs, hh]
  · exact ⟨hs ▸ h.1, h.2.congr hh hs⟩
  · obtain ⟨hu, hleft, rs, size, part, hcol, hshown, h⟩ := h
    rw [hs, hh]
    exact ⟨hu, hleft, rs, size, part, hcol, fun r hr => (hshown r hr).congr hs, h⟩
  · exact ⟨h.1, h.2.congr hh hs⟩
  · exact h
  · exact h

/-- The parts of the invariant that hold after a press whether or not the session goes on. -/
theorem Inv.passed (h : Inv first t) (hp : Passed t t')
    (ha : t'.shared.running = true → t'.shared.currentInstruction ≠ none → Active first t') :
    Inv first t' where
  instruction := fun i hi => h.instruction i (hp.instruction i hi)
  screen := hp.own_screen (fun _ h => h) h.screen
  active := ha
  sign := by
    intro ho
    obtain ⟨hd, hs⟩ := hp.of_offersSign ho
    obtain ⟨hu, hfit⟩ := h.sign (hd ▸ ho)
    rw [hs]
    exact ⟨hu.congr hp.hash hs, hfit⟩
  arrays := by
    intro hf flow hflow
    rcases hp.mem_screens hflow with h' | rfl
    · exact h.arrays hf flow h'
    · decide

theorem press_inv {i : Nat} (h : Inv first t) (hc : OwnScreens t (.press i))
    (hr : t.shared.running = true) (hne : t.shared.currentInstruction ≠ none) :
    Inv first (finish ((bakerApp sdk).callback (t.shared.pressed i) t)) := by
  have hs : (t.shared.pressed i).isShared = true := hc.own (fun _ h => h) h.screen
  have hp : Passed t (finish ((bakerApp sdk).callback (t.shared.pressed i) t)) :=
    sharedCallback_passed t sdk hs
  refine h.passed hp fun hr' hne' => ?_
  obtain ⟨hfields, hstage⟩ := h.active hr hne
  refine ⟨by rw [hp.ctx]; exact hfields, ?_⟩
  rcases hstage with hsig | ⟨hno, hcol⟩
  · rcases hsig.press sdk (fun _ => Pure.pure ⟨⟩) i with heq | hend
    · refine .inl ?_
      show Signing (finish (sharedCallback sdk (fun _ => Pure.pure ⟨⟩) (t.shared.pressed i) t))
      rw [heq]
      exact hsig
    · exact absurd (hend hr') hne'
  · obtain ⟨hd, -, -, hscr⟩ := hp.goes_on hr' hne'
    exact .inr ⟨by rw [hd]; exact hno, hcol.of_eq hp.ctx hp.hash hscr⟩

/-! ## Replies and screens -/

/-- A session between two commands is not at the Sign screen. -/
theorem Inv.collecting (h : Inv first t) (hr : t.shared.running = true)
    (hc : t.shared.currentInstruction ≠ none) (ho : t.shared.replyOwed = false) :
    t.ctx.fields = fieldsOf first ∧ offersSign t.shared.display = false ∧ Collecting first t := by
  obtain ⟨hf, hsig | hcol⟩ := h.active hr hc
  · rw [hsig.owed] at ho; cases ho
  · exact ⟨hf, hcol⟩

variable {bytes : List UInt8} {c : Context} {s : Shared}

/-- A packet that is answered under the same screen. -/
theorem Inv.replied (h : Inv first t) (hno : offersSign t.shared.display = false)
    (hs : Hashes bytes (entered t apdu).shared s) (hf : c.fields = fieldsOf first)
    (hc : Collecting first ⟨c, s⟩) : Inv first ⟨c, s.reply [] success⟩ := by
  have hscr : screens (s.reply [] success) = screens t.shared := by
    rw [screens_reply, hs.screens, screens_entered]
  have hd : (s.reply [] success).display = t.shared.display := hs.display
  have hoff : offersSign (s.reply [] success).display = false := by rw [hd]; exact hno
  exact {
    instruction := fun i hi => h.instruction i (hs.instruction ▸ hi)
    screen := by rw [hscr, hd]; exact h.screen
    active := fun _ _ => ⟨hf, .inr ⟨hoff, hc.of_eq rfl rfl (screens_reply _ _ _)⟩⟩
    sign := fun ho => absurd ho (by rw [hoff]; exact Bool.false_ne_true)
    arrays := by rw [hscr]; exact h.arrays }

/-- A packet after which a screen asks for the next one. -/
theorem Inv.shownMore {flow : List Step} (h : Inv first t)
    (hs : Hashes bytes (entered t apdu).shared s) (hf : c.fields = fieldsOf first)
    (honly : Only [.none, .sendSuccessNoIdle] flow)
    (hfits : (fieldsOf first).firstOnly = false → FitsArray flow)
    (hc : Collecting first ⟨c, s.uxFlowInit flow⟩) :
    Inv first ⟨c, { s.uxFlowInit flow with asynchReply := true }⟩ := by
  have hscr : screens (s.uxFlowInit flow) = screens t.shared ++ [flow] := by
    rw [screens_uxFlowInit, hs.screens, screens_entered]
  have hoff : offersSign (s.uxFlowInit flow).display = false := honly.not_offersSign (by decide)
  exact {
    instruction := fun i hi => h.instruction i (hs.instruction ▸ hi)
    screen := by
      intro _ st hst
      have := honly st hst
      simp only [List.mem_cons, List.not_mem_nil, or_false] at this
      rcases this with h | h <;> rw [h] <;> rfl
    active := fun _ _ => ⟨hf, .inr ⟨hoff, hc.of_eq rfl rfl rfl⟩⟩
    sign := fun ho => absurd ho (by rw [hoff]; exact Bool.false_ne_true)
    arrays := by
      intro hfo flow' hflow'
      have hmem : flow' ∈ screens t.shared ++ [flow] := hscr ▸ hflow'
      rcases List.mem_append.mp hmem with h' | h'
      · exact h.arrays hfo flow' h'
      · rw [List.mem_singleton.mp h']; exact hfits hfo }

/-- The packet after which the Sign screen is put up. -/
theorem Inv.shownLast {flow : List Step} (h : Inv first t)
    (hs : Hashes bytes (entered t apdu).shared s) (hf : c.fields = fieldsOf first)
    (honly : Only [.none, .buildAndSignTransactionHash, .sendUserRejection] flow)
    (hfits : (fieldsOf first).firstOnly = false ↔ FitsArray flow)
    (hu : Upto first Field.all (s.uxFlowInit flow)) :
    Inv first ⟨c, { s.uxFlowInit flow with asynchReply := true }⟩ := by
  have hscr : screens (s.uxFlowInit flow) = screens t.shared ++ [flow] := by
    rw [screens_uxFlowInit, hs.screens, screens_entered]
  have hmem : flow ∈ screens (s.uxFlowInit flow) := by rw [hscr]; simp
  exact {
    instruction := fun i hi => h.instruction i (hs.instruction ▸ hi)
    screen := by
      intro _ st hst
      have := honly st hst
      simp only [List.mem_cons, List.not_mem_nil, or_false] at this
      rcases this with h | h | h <;> rw [h] <;> rfl
    active := fun _ _ => ⟨hf, .inl ⟨hs.replyOwed, honly⟩⟩
    sign := by
      refine fun _ => ⟨hu.congr rfl rfl, fun hfo => ⟨flow, hmem, fun hfit => ?_⟩⟩
      rw [hfits.mpr hfit] at hfo
      cases hfo
    arrays := by
      intro hfo flow' hflow'
      have hmem : flow' ∈ screens t.shared ++ [flow] := hscr ▸ hflow'
      rcases List.mem_append.mp hmem with h' | h'
      · exact h.arrays hfo flow' h'
      · rw [List.mem_singleton.mp h']; exact hfits.mp hfo }

/-- Fields that are not announced add nothing. -/
theorem Upto.skip {xs : List Field} {x : Field} (h : Upto first xs s)
    (hx : (fieldsOf first).has x = false) : Upto first (xs ++ [x]) s := by
  obtain ⟨rs, hcol, hshown, hh⟩ := h
  exact ⟨rs, hcol.skip hx, hshown, hh⟩

theorem noRates {f : Fields} (h : f.hasCommissionRate = false) :
    ∀ x ∈ commissionFields, f.has x = false := by
  simp only [Fields.hasCommissionRate, Bool.or_eq_false_iff] at h
  obtain ⟨⟨h1, h2⟩, h3⟩ := h
  intro x hx
  simp only [commissionFields, List.mem_cons, List.not_mem_nil, or_false] at hx
  rcases hx with rfl | rfl | rfl
  · exact h1
  · exact h2
  · exact h3

/-- Without commission rates the URL is the last field. -/
theorem Upto.all (h : Upto first (firstFields ++ [.metadataUrl]) s)
    (hr : (fieldsOf first).hasCommissionRate = false) : Upto first Field.all s := by
  have hn := noRates hr
  exact ((h.skip (hn _ (by decide))).skip (hn _ (by decide))).skip (hn _ (by decide))

/-- The first screen, which all of `firstFields` are shown on. -/
theorem display_first (h : Inv first t) (hs : Hashes bytes (entered t apdu).shared s)
    (hf : c.fields = fieldsOf first) (hnone : screens t.shared = [])
    {rs : List (Field × List UInt8)} (hcol : Collected (fieldsOf first) firstFields rs)
    (hholds : Holds c rs) (hh : s.hash = initialBytes first ++ payload rs) :
    wp (do setState c.fields.afterFirst; startConfigureBakerDisplay; waitForButton :
        Fw Context PUnit.{1})
      (fun _ t' => Inv first t') (fun _ _ => True) ⟨c, s⟩ := by
  simp only [setState, startConfigureBakerDisplay, clearFirstDisplay, wp_bind, Fw.wp_modifyCtx,
    wp_uxFlowInit, wp_waitForButton]
  let d : Device Context := ⟨{ c with state := c.fields.afterFirst }, s⟩
  have hfd : d.ctx.fields = fieldsOf first := hf
  have hfits := first_fits d
  rw [hfd] at hfits
  have hupto : Upto first firstFields (s.uxFlowInit (uxSignConfigureBakerFirst d)) := by
    refine ⟨rs, hcol, fun r hr => ?_, hh⟩
    have hx := hcol.mem hr
    have hhas : d.ctx.fields.has r.1 = true := by
      rw [hfd]
      exact hcol.has hr
    exact .of_step (uxFirst_step d hx hhas) (fun hu => firstFields_ne _ hx hu.1) (hholds r hr)
  by_cases hu : (fieldsOf first).hasMetadataUrl = true
  · refine h.shownMore hs hf (uxFirst_only d (by decide) ?_) hfits.mpr ?_
    · rw [hfd, hu]
      exact closingSteps_only_more (by decide)
    · have hst : c.fields.afterFirst = .urlLength := by simp [Fields.afterFirst, hf, hu]
      refine .ofUrlLength hst ?_ hupto
      have hscr : screens s = [] := by rw [hs.screens, screens_entered, hnone]
      show urlTexts (screens (s.uxFlowInit (uxSignConfigureBakerFirst d))).flatten = []
      rw [urlTexts_uxFlowInit, hscr, urlTexts_first]
      rfl
  · have hu' : (fieldsOf first).hasMetadataUrl = false := by simpa using hu
    have hupto' := hupto.skip (x := .metadataUrl) hu'
    by_cases hr : (fieldsOf first).hasCommissionRate = true
    · refine h.shownMore hs hf (uxFirst_only d (by decide) ?_) hfits.mpr ?_
      · rw [hfd, hr, Bool.or_true]
        exact closingSteps_only_more (by decide)
      · have hst : c.fields.afterFirst = .commissionRates := by
          simp [Fields.afterFirst, hf, hu', hr]
        exact .ofCommissionRates hst hr hupto'
    · have hr' : (fieldsOf first).hasCommissionRate = false := by simpa using hr
      refine h.shownLast hs hf (uxFirst_only d (by decide) ?_) hfits.symm (hupto'.all hr')
      rw [hfd, hu', hr']
      exact closingSteps_only_last (by decide) (by decide)

/-- The last page of the URL, or the screen of an empty one. -/
theorem display_url (h : Inv first t) (hs : Hashes bytes (entered t apdu).shared s)
    (hf : c.fields = fieldsOf first) (hu : (fieldsOf first).hasMetadataUrl = true)
    {rs : List (Field × List UInt8)} {url : List UInt8}
    (hcol : Collected (fieldsOf first) firstFields rs) (hfmt : Field.metadataUrl.Format url)
    (hshown : ∀ r ∈ rs, Shown s r.1 r.2) (hh : s.hash = initialBytes first ++ payload rs ++ url)
    (hurl : ∀ d : Device Context, d.ctx.url = c.url →
      Shown (s.uxFlowInit (uxSignConfigureBakerUrl true d)) .metadataUrl url) :
    wp (do setState c.fields.afterUrl; startConfigureBakerUrlDisplay true; waitForButton :
        Fw Context PUnit.{1})
      (fun _ t' => Inv first t') (fun _ _ => True) ⟨c, s⟩ := by
  simp only [setState, startConfigureBakerUrlDisplay, clearFirstDisplay, wp_bind, Fw.wp_modifyCtx,
    wp_uxFlowInit, wp_waitForButton]
  let d : Device Context := ⟨{ c with state := c.fields.afterUrl }, s⟩
  have hfd : d.ctx.fields = fieldsOf first := hf
  have hfo : (fieldsOf first).firstOnly = false := by simp [Fields.firstOnly, hu]
  have hfits := url_fits true d
  have hupto : Upto first (firstFields ++ [.metadataUrl])
      (s.uxFlowInit (uxSignConfigureBakerUrl true d)) := by
    have hhas : (fieldsOf first).has .metadataUrl = true := hu
    refine ⟨rs ++ [(.metadataUrl, url)], hcol.append (.present hhas hfmt), ?_, ?_⟩
    · refine List.forall_mem_append.mpr ⟨fun r hr => ?_, ?_⟩
      · exact (hshown r hr).mono fun hx => absurd hx (firstFields_ne _ (hcol.mem hr))
      · exact List.forall_mem_singleton.mpr (hurl d rfl)
    · rw [payload_append, payload_singleton, ← List.append_assoc]
      exact hh
  by_cases hr : (fieldsOf first).hasCommissionRate = true
  · refine h.shownMore hs hf (uxUrl_only d (by decide) ?_) (fun _ => hfits) ?_
    · rw [hfd, hr]
      exact closingSteps_only_more (by decide)
    · have hst : c.fields.afterUrl = .commissionRates := by simp [Fields.afterUrl, hf, hr]
      exact .ofCommissionRates hst hr hupto
  · have hr' : (fieldsOf first).hasCommissionRate = false := by simpa using hr
    refine h.shownLast hs hf (uxUrl_only d (by decide) ?_) ⟨fun _ => hfits, fun _ => hfo⟩
      (hupto.all hr')
    rw [hfd, hr']
    exact closingSteps_only_last (by decide) (by decide)

/-! ## Commands -/

theorem firstBatch_inv (h : Inv first t) (hf : t.ctx.fields = fieldsOf first)
    (hno : offersSign t.shared.display = false) (hnone : screens t.shared = [])
    (hh : t.shared.hash = initialBytes first) :
    wp (handleFirstBatch apdu.cdata apdu.lc) (fun _ t' => Inv first t') (fun _ _ => True)
      (entered t apdu) := by
  have hf₀ : (entered t apdu).ctx.fields = fieldsOf first := hf
  unfold handleFirstBatch
  rw [wp_bind]
  refine wp_mono (readCapital_took _ _) (fun n₁ t₁ h₁ => ?_) fun _ _ _ => trivial
  obtain ⟨rs₁, h₁⟩ := h₁
  rw [wp_bind]
  refine wp_mono (readRestake_took _ _) (fun n₂ t₂ h₂ => ?_) fun _ _ _ => trivial
  obtain ⟨rs₂, h₂⟩ := h₂
  rw [wp_bind]
  refine wp_mono (readOpenForDelegation_took _ _) (fun n₃ t₃ h₃ => ?_) fun _ _ _ => trivial
  obtain ⟨rs₃, h₃⟩ := h₃
  have htook := (h₁.append h₂ (by decide) (by decide)).append h₃ (by decide) (by decide)
  have hcol := htook.fields
  rw [hf₀] at hcol
  have hf₃ : t₃.ctx.fields = fieldsOf first := htook.kept.fields.trans hf₀
  have hhash : t₃.shared.hash = initialBytes first ++ payload (rs₁ ++ rs₂ ++ rs₃) := by
    rw [htook.hash.hash, ← hh]
    rfl
  simp only [wp_bind, Fw.wp_getCtx, wp_ite]
  refine ⟨fun hk => ?_, fun hk => ?_⟩
  · simp only [readKeys, setState, wp_bind, Fw.wp_throwIf, implies_true, true_and, wp_updateHash,
      Fw.wp_modifyCtx, wp_sendSuccessNoIdle]
    intro _
    let keys := apdu.cdata.advance n₁ |>.advance n₂ |>.advance n₃
    have hup := ((((Hashes.update t₃.shared (keys.slice 32)).trans
      (.update _ ((keys.advance 32).slice 64))).trans
      (.update _ ((keys.advance 96).slice 32))).trans (.update _ ((keys.advance 128).slice 64)))
    have hs := htook.hash.trans hup
    refine h.replied hno hs hf₃ ⟨hf₃ ▸ hk, ?_, _, _, hcol, ?_, ?_, hup.hash.trans (by rw [hhash])⟩
    · exact hs.screens.trans ((screens_entered _ _).trans hnone)
    · exact htook.holds
    · simp
  · simp only [Fw.wp_throwIf, implies_true, true_and]
    intro _
    have hk' : (fieldsOf first).has .keys = false := by
      rw [← hf₃]
      show t₃.ctx.fields.hasKeys = false
      simpa using hk
    exact display_first h htook.hash hf₃ hnone (hcol.skip hk') htook.holds hhash

theorem aggregationKey_inv (h : Inv first t) (hf : t.ctx.fields = fieldsOf first)
    (hk : (fieldsOf first).hasKeys = true) (hnone : screens t.shared = [])
    {rs : List (Field × List UInt8)} {keys : List UInt8}
    (hcol : Collected (fieldsOf first) [.capital, .restakeEarnings, .openForDelegation] rs)
    (hholds : Holds t.ctx rs) (hlen : keys.length = 192)
    (hh : t.shared.hash = initialBytes first ++ payload rs ++ keys) :
    wp (handleAggregationKey apdu.cdata apdu.lc) (fun _ t' => Inv first t') (fun _ _ => True)
      (entered t apdu) := by
  simp only [handleAggregationKey, wp_bind, Fw.wp_getCtx, Fw.wp_throwIf, implies_true, true_and,
    wp_updateHash]
  intro _
  have hs := (Hashes.update (entered t apdu).shared (apdu.cdata.slice 96)).trans
    (.update _ ((apdu.cdata.advance 96).slice 64))
  have hfmt : Field.keys.Format
      (keys ++ (apdu.cdata.slice 96 ++ (apdu.cdata.advance 96).slice 64)) := by
    show List.length _ = 192 + 160
    simp [hlen]
  refine display_first h hs hf hnone (hcol.append (.present hk hfmt)) ?_ ?_
  · exact List.forall_mem_append.mpr ⟨hholds, List.forall_mem_singleton.mpr
      (congrArg _ (cString_literal "keys" (by decide)))⟩
  · have he : (entered t apdu).shared.hash = t.shared.hash := rfl
    rw [hs.hash, he, hh, payload_append, payload_singleton]
    simp only [List.append_assoc]

theorem urlLength_inv (h : Inv first t) (hf : t.ctx.fields = fieldsOf first)
    (hno : offersSign t.shared.display = false)
    (hnone : urlTexts (screens t.shared).flatten = []) (hu : Upto first firstFields t.shared) :
    wp (handleUrlLength apdu.cdata) (fun _ t' => Inv first t') (fun _ _ => True)
      (entered t apdu) := by
  simp only [handleUrlLength, wp_bind, Fw.wp_getCtx, Fw.wp_throwIf, Fw.wp_modifyCtx, implies_true,
    true_and, wp_updateHash, wp_ite]
  intro hurl _
  have hurl' : (fieldsOf first).hasMetadataUrl = true := by
    have hne : t.ctx.fields.hasMetadataUrl ≠ false := hurl
    rw [← hf]
    simpa using hne
  have hs := Hashes.update (entered t apdu).shared (apdu.cdata.slice 2)
  have hscr : screens ((entered t apdu).shared.updateHash (apdu.cdata.slice 2)) =
      screens t.shared := by rw [hs.screens, screens_entered]
  obtain ⟨rs, hcol, hshown, hh⟩ := hu
  have hshown' : ∀ r ∈ rs,
      Shown ((entered t apdu).shared.updateHash (apdu.cdata.slice 2)) r.1 r.2 :=
    fun r hr => (hshown r hr).congr hscr
  have hhash : ((entered t apdu).shared.updateHash (apdu.cdata.slice 2)).hash =
      initialBytes first ++ payload rs ++ apdu.cdata.slice 2 := by
    rw [← hh]
    rfl
  have hsize : beNat (apdu.cdata.slice 2) = (apdu.cdata.u2be 0).toNat := by
    rw [Ptr.u2be_toNat, Ptr.advance_zero]
  have hlen : (Context.setUrlLength (apdu.cdata.u2be 0) t.ctx).url.urlLength =
      apdu.cdata.u2be 0 := Context.setUrlLength_urlLength _ _
  refine ⟨fun hz => ?_, fun hnz => ?_⟩
  · have hzero : beNat (apdu.cdata.slice 2) = 0 := by rw [hsize, hz]; rfl
    refine display_url h hs hf hurl' hcol ⟨apdu.cdata.slice 2, [], ?_, ?_, ?_⟩ hshown' hhash ?_
    · rw [List.append_nil]
    · exact Ptr.slice_length _ _
    · rw [hzero]
      rfl
    · intro d hd
      have hdz : d.ctx.url.urlLength = 0 := (congrArg Url.urlLength hd).trans (hlen.trans hz)
      refine .of_step (uxUrl_empty d hdz) (fun hx => hx.2 hzero) ?_
      exact congrArg _ (cString_literal "" (by decide))
  · simp only [setState, Fw.wp_modifyCtx, wp_sendSuccessNoIdle]
    have hpos : 0 < (apdu.cdata.u2be 0).toNat := by
      refine Nat.pos_of_ne_zero fun h0 => hnz ?_
      exact UInt16.toNat_inj.mp h0
    have hleft := congrArg UInt16.toNat hlen
    refine h.replied hno hs hf ⟨hurl', ?_, rs, apdu.cdata.slice 2, [], hcol, hshown', ?_, ?_, ?_,
      ?_⟩
    · exact hleft.symm ▸ hpos
    · exact Ptr.slice_length _ _
    · rw [hsize]
      exact (Nat.zero_add _).trans hleft
    · refine ⟨[], rfl, ?_⟩
      rw [hscr, hnone]
      exact .nil
    · rw [List.append_nil]
      exact hhash

/-- A page of the URL that is not the last one. -/
theorem urlPage_inv (h : Inv first t) (hf : t.ctx.fields = fieldsOf first)
    (hurl : (fieldsOf first).hasMetadataUrl = true)
    {rs : List (Field × List UInt8)} {size part : List UInt8}
    (hcol : Collected (fieldsOf first) firstFields rs) (hshown : ∀ r ∈ rs, Shown t.shared r.1 r.2)
    (hsize : size.length = 2) (hpart : part.length + t.ctx.url.urlLength.toNat = beNat size)
    (hpages : Pages part (urlTexts (screens t.shared).flatten))
    (hh : t.shared.hash = initialBytes first ++ payload rs ++ (size ++ part))
    (hstate : t.ctx.state = .url) (hmore : t.ctx.url.urlLength > apdu.lc.toUInt16) :
    wp (do
        updateHash apdu.cdata apdu.lc.toNat
        Fw.modifyCtx (Context.setUrlLength (t.ctx.url.urlLength - apdu.lc.toUInt16))
        Fw.modifyCtx (Context.write offUrlDisplay (apdu.cdata.slice apdu.lc.toNat))
        startConfigureBakerUrlDisplay false
        waitForButton : Fw Context PUnit.{1})
      (fun _ t' => Inv first t') (fun _ _ => True) (entered t apdu) := by
  simp only [startConfigureBakerUrlDisplay, clearFirstDisplay, wp_bind, wp_updateHash,
    Fw.wp_modifyCtx, wp_uxFlowInit, wp_waitForButton]
  have hslice := Ptr.slice_length apdu.cdata apdu.lc.toNat
  have h255 : (apdu.cdata.slice apdu.lc.toNat).length ≤ 255 := by
    have := apdu.lc.toNat_lt
    omega
  have hs := Hashes.update (entered t apdu).shared (apdu.cdata.slice apdu.lc.toNat)
  have hscr : screens ((entered t apdu).shared.updateHash (apdu.cdata.slice apdu.lc.toNat)) =
      screens t.shared := by rw [hs.screens, screens_entered]
  let c := (t.ctx.setUrlLength (t.ctx.url.urlLength - apdu.lc.toUInt16)).write offUrlDisplay
    (apdu.cdata.slice apdu.lc.toNat)
  have hleft : c.url.urlLength = t.ctx.url.urlLength - apdu.lc.toUInt16 := by
    rw [Context.write_urlLength _ _ _ (by decide), Context.setUrlLength_urlLength]
  have hlt : apdu.lc.toNat < t.ctx.url.urlLength.toNat := by
    rw [← UInt8.toNat_toUInt16]
    exact UInt16.lt_iff_toNat_lt.mp hmore
  have hsub : c.url.urlLength.toNat = t.ctx.url.urlLength.toNat - apdu.lc.toNat := by
    rw [hleft, UInt16.toNat_sub_of_le _ _ (UInt16.le_of_lt hmore), UInt8.toNat_toUInt16]
  have hpage : apdu.cdata.slice apdu.lc.toNat <+: c.url.urlDisplay.bytes := by
    rw [Context.write_urlDisplay]
    exact Buffer.prefix_memmove _ (by omega)
  refine h.shownMore hs hf (uxUrlPage_only _) (fun _ => url_fits _ _) ?_
  have hleft' : 0 < c.url.urlLength.toNat := by omega
  refine .ofUrl hstate hurl hleft' size (part ++ apdu.cdata.slice apdu.lc.toNat) hcol ?_ hsize ?_ ?_
    ?_
  · intro r hr
    exact ((hshown r hr).congr hscr).mono fun hx => absurd hx (firstFields_ne _ (hcol.mem hr))
  · show (part ++ apdu.cdata.slice apdu.lc.toNat).length + c.url.urlLength.toNat = _
    rw [List.length_append, hslice]
    omega
  · rw [urlTexts_uxFlowInit, hscr, urlTexts_page _ _ (fun h => (by cases h))]
    exact hpages.append hpage
  · show t.shared.hash ++ apdu.cdata.slice apdu.lc.toNat = _
    rw [hh]
    simp only [List.append_assoc]

theorem url_inv (h : Inv first t) (hf : t.ctx.fields = fieldsOf first)
    (hurl : (fieldsOf first).hasMetadataUrl = true) (hleft : 0 < t.ctx.url.urlLength.toNat)
    {rs : List (Field × List UInt8)} {size part : List UInt8}
    (hcol : Collected (fieldsOf first) firstFields rs) (hshown : ∀ r ∈ rs, Shown t.shared r.1 r.2)
    (hsize : size.length = 2) (hpart : part.length + t.ctx.url.urlLength.toNat = beNat size)
    (hpages : Pages part (urlTexts (screens t.shared).flatten))
    (hh : t.shared.hash = initialBytes first ++ payload rs ++ (size ++ part))
    (hstate : t.ctx.state = .url) :
    wp (handleUrl apdu.cdata apdu.lc) (fun _ t' => Inv first t') (fun _ _ => True)
      (entered t apdu) := by
  simp only [handleUrl, wp_bind, Fw.wp_getCtx, wp_ite]
  refine ⟨fun hgt => ?_, fun _ => ⟨fun heq => ?_, fun _ => trivial⟩⟩
  · have hw := urlPage_inv h hf hurl hcol hshown hsize hpart hpages hh hstate hgt
    rw [wp_bind] at hw
    exact hw
  · simp only [wp_bind, Fw.wp_modifyCtx, wp_updateHash]
    let chunk := apdu.cdata.slice t.ctx.url.urlLength.toNat
    have hchunk : chunk.length = t.ctx.url.urlLength.toNat := Ptr.slice_length _ _
    have h255 : chunk.length ≤ 255 := by
      have heq' : t.ctx.url.urlLength.toNat = apdu.lc.toNat := by
        have hlc : t.ctx.url.urlLength = apdu.lc.toUInt16 := heq
        rw [hlc, UInt8.toNat_toUInt16]
      have := apdu.lc.toNat_lt
      omega
    have hs := Hashes.update (entered t apdu).shared chunk
    have hscr : screens ((entered t apdu).shared.updateHash chunk) = screens t.shared := by
      rw [hs.screens, screens_entered]
    have hlast := t.ctx.prefix_lastPage chunk h255
    rw [hchunk] at hlast
    have hlength : ((t.ctx.write offUrlDisplay chunk).write
        (offUrlDisplay + t.ctx.url.urlLength.toNat) [0]).url.urlLength = t.ctx.url.urlLength := by
      rw [Context.write_urlLength _ _ _ (by rw [offUrlDisplay]; omega),
        Context.write_urlLength _ _ _ (by decide)]
    refine display_url h hs hf hurl hcol ⟨size, part ++ chunk, rfl, hsize, ?_⟩
      (fun r hr => (hshown r hr).congr hscr) ?_ ?_
    · rw [List.length_append, hchunk]
      exact hpart
    · show t.shared.hash ++ chunk = _
      rw [hh]
      simp only [List.append_assoc]
    · intro d hd
      have htake : (size ++ (part ++ chunk)).take 2 = size := by rw [← hsize, List.take_left]
      have hdrop : (size ++ (part ++ chunk)).drop 2 = part ++ chunk := by
        rw [← hsize, List.drop_left]
      rw [Shown, htake, hdrop, if_pos ⟨rfl, by omega⟩]
      refine ⟨part, chunk, _, d.ctx.url.urlDisplay.bytes, rfl, ?_, hpages, by rw [hd]; exact hlast⟩
      have hne : d.ctx.url.urlLength ≠ 0 := by
        rw [hd]
        intro h0
        have hzero : t.ctx.url.urlLength = 0 := hlength.symm.trans h0
        rw [hzero] at hleft
        exact absurd hleft (by decide)
      refine (urlTexts_uxFlowInit _ _).trans ?_
      rw [urlTexts_page d true fun _ => hne]
      exact congrArg (fun flows => urlTexts flows.flatten ++ _) hscr

theorem commissionRates_inv (h : Inv first t) (hf : t.ctx.fields = fieldsOf first)
    (hr : (fieldsOf first).hasCommissionRate = true)
    (hu : Upto first (firstFields ++ [.metadataUrl]) t.shared) :
    wp (do handleCommissionRates apdu.cdata apdu.lc; waitForButton : Fw Context PUnit.{1})
      (fun _ t' => Inv first t') (fun _ _ => True) (entered t apdu) := by
  have hfo : (fieldsOf first).firstOnly = false := by simp [Fields.firstOnly, hr]
  have hf₀ : (entered t apdu).ctx.fields = fieldsOf first := hf
  simp only [handleCommissionRates, wp_bind, Fw.wp_getCtx]
  rw [hf₀]
  refine wp_mono (readRate_took (x := .transactionFeeCommission) _ _ (by decide)
    (congrArg Fields.hasTransactionFeeCommission hf₀.symm) (fun _ h h' => ⟨h, h'⟩) (fun _ => rfl)
    fun _ => rfl) (fun n₁ t₁ h₁ => ?_) fun _ _ _ => trivial
  obtain ⟨rs₁, h₁⟩ := h₁
  have hf₁ : t₁.ctx.fields = fieldsOf first := h₁.kept.fields.trans hf₀
  rw [wp_bind]
  refine wp_mono (readRate_took (x := .bakingRewardCommission) _ _ (by decide)
    (congrArg Fields.hasBakingRewardCommission hf₁.symm) (fun _ h h' => ⟨h, h'⟩) (fun _ => rfl)
    fun _ => rfl) (fun n₂ t₂ h₂ => ?_) fun _ _ _ => trivial
  obtain ⟨rs₂, h₂⟩ := h₂
  have hf₂ : t₂.ctx.fields = fieldsOf first := h₂.kept.fields.trans hf₁
  rw [wp_bind]
  refine wp_mono (readRate_took (x := .finalizationRewardCommission) _ _ (by decide)
    (congrArg Fields.hasFinalizationRewardCommission hf₂.symm) (fun _ h h' => ⟨h, h'⟩)
    (fun _ => rfl) fun _ => rfl) (fun n₃ t₃ h₃ => ?_) fun _ _ _ => trivial
  obtain ⟨rs₃, h₃⟩ := h₃
  have hf₃ : t₃.ctx.fields = fieldsOf first := h₃.kept.fields.trans hf₂
  have htook := (h₁.append h₂ (by decide) (by decide)).append h₃ (by decide) (by decide)
  have hnew := htook.fields
  rw [hf₀] at hnew
  simp only [Fw.wp_throwIf, startConfigureBakerCommissionDisplay, clearFirstDisplay, wp_bind,
    implies_true, true_and, wp_uxFlowInit, Fw.wp_modifyCtx, wp_waitForButton]
  intro _
  have hscr : screens t₃.shared = screens t.shared := by
    rw [htook.hash.screens, screens_entered]
  have hfits := commission_fits t₃
  obtain ⟨rs, hcol, hshown, hh⟩ := hu
  refine h.shownLast htook.hash hf₃ (uxCommission_only _) ⟨fun _ => hfits, fun _ => hfo⟩
    ⟨rs ++ (rs₁ ++ rs₂ ++ rs₃), hcol.append hnew, ?_, ?_⟩
  · refine List.forall_mem_append.mpr ⟨fun r hr => ?_, fun r hr => ?_⟩
    · exact ((hshown r hr).congr hscr).mono fun _ => urlTexts_commission t₃
    · have hx := hnew.mem hr
      have hhas : t₃.ctx.fields.has r.1 = true := by
        rw [hf₃]
        exact hnew.has hr
      exact .of_step (uxCommission_step t₃ hx hhas) (fun hu => commissionFields_ne _ hx hu.1)
        (htook.holds r hr)
  · show t₃.shared.hash = _
    have he : (entered t apdu).shared.hash = t.shared.hash := rfl
    rw [htook.hash.hash, he, hh]
    simp only [payload_append, List.append_assoc]

theorem command_inv (h : Inv first t) (hstep : SessionStep (bakerApp sdk) t (.command apdu) t') :
    Inv first t' := by
  obtain ⟨hins, hr, ho, hstep⟩ := hstep
  obtain ⟨hf, hno, hcol⟩ := h.collecting hr (by rw [hins]; simp) ho
  have hw : wp ((bakerApp sdk).handler apdu false) (fun _ t => Inv first t) (fun _ _ => True)
      (entered t apdu) := by
    have hst : (entered t apdu).ctx.state = t.ctx.state := rfl
    simp only [bakerApp, handleSignConfigureBaker, wp_bind, Fw.wp_getCtx, wp_ite, Fw.wp_throw,
      Bool.false_eq_true, and_false, false_implies, not_false_eq_true, true_implies, true_and,
      implies_true, hst]
    unfold Collecting at hcol
    cases hs : t.ctx.state <;> rw [hs] at hcol <;>
      simp only [and_true, reduceCtorEq, and_false, false_implies, true_implies,
        not_false_eq_true, true_and, implies_true] at hcol ⊢ <;> intro _
    · exact firstBatch_inv h hf hno hcol.1 hcol.2
    · obtain ⟨hk, hnone, rs, keys, hcol, hholds, hlen, hh⟩ := hcol
      exact aggregationKey_inv h hf hk hnone hcol hholds hlen hh
    · exact urlLength_inv h hf hno hcol.1 hcol.2
    · obtain ⟨hurl, hleft, rs, size, part, hcol, hshown, hsize, hpart, hpages, hh⟩ := hcol
      exact url_inv h hf hurl hleft hcol hshown hsize hpart hpages hh hs
    · have hw : wp (do handleCommissionRates apdu.cdata apdu.lc; waitForButton : Fw Context PUnit.{1})
          (fun _ t' => Inv first t') (fun _ _ => True) (entered t apdu) :=
        commissionRates_inv h hf hcol.1 hcol.2
      rwa [wp_bind] at hw
  exact ok_of_wp hw hstep

theorem session_inv {ev : Event} (h : Inv first t) (hc : OwnScreens t ev)
    (hstep : SessionStep (bakerApp sdk) t ev t') : Inv first t' := by
  cases ev with
  | command apdu => exact command_inv h hstep
  | press i =>
    obtain ⟨hne, hr, rfl⟩ := hstep
    exact press_inv h hc hr hne
  | noApdu => exact hstep.elim

/-! ## The initial packet -/

theorem testBit_high {n i : Nat} (h : n < 256) (hi : 8 ≤ i) : n.testBit i = false := by
  have hpow : 2 ^ 8 ≤ 2 ^ i := Nat.pow_le_pow_right Nat.two_pos hi
  exact Nat.testBit_lt_two_pow (by omega)

/-- Bitmaps of eight bits that announce the same fields are the same. -/
theorem bitmap_ext {b b' : UInt16} (h : b.toNat < 256) (h' : b'.toNat < 256)
    (hx : ∀ x, (Fields.ofBitmap b).has x = (Fields.ofBitmap b').has x) : b = b' := by
  simp only [ofBitmap_has] at hx
  refine UInt16.toNat_inj.mp (Nat.eq_of_testBit_eq fun i => ?_)
  match i with
  | 0 => exact hx .capital
  | 1 => exact hx .restakeEarnings
  | 2 => exact hx .openForDelegation
  | 3 => exact hx .keys
  | 4 => exact hx .metadataUrl
  | 5 => exact hx .transactionFeeCommission
  | 6 => exact hx .bakingRewardCommission
  | 7 => exact hx .finalizationRewardCommission
  | i + 8 => rw [testBit_high h (by omega), testBit_high h' (by omega)]

/-- A bitmap of eight bits that is not empty announces a field. -/
theorem exists_field {bitmap : UInt16} (h : bitmap.toNat < 256) (h0 : bitmap ≠ 0) :
    ∃ x : Field, (Fields.ofBitmap bitmap).has x = true := by
  by_contra hn
  refine h0 (bitmap_ext h (by decide) fun x => ?_)
  have hzero : (Fields.ofBitmap 0).has x = false := by cases x <;> rfl
  rw [hzero]
  cases hx : (Fields.ofBitmap bitmap).has x with
  | false => rfl
  | true => exact absurd ⟨x, hx⟩ hn

theorem upto_firstFields (hh : s.hash = initialBytes first)
    (hn : ∀ x ∈ firstFields, (fieldsOf first).has x = false) : Upto first firstFields s := by
  have hcol : Collected (fieldsOf first) firstFields [] :=
    (((Collected.nil.skip (hn .capital (by decide))).skip
      (hn .restakeEarnings (by decide))).skip (hn .openForDelegation (by decide))).skip
      (hn .keys (by decide))
  exact ⟨[], hcol, fun _ h => (by cases h), by rw [hh]; exact (List.append_nil _).symm⟩

/-- The state after the initial packet awaits the first announced field. -/
theorem collecting_initial {state : State} (hh : t.shared.hash = initialBytes first)
    (hnone : screens t.shared = [])
    (hx : ∃ x : Field, (fieldsOf first).has x = true)
    (hst : t.ctx.state = (fieldsOf first).afterInitial state) : Collecting first t := by
  unfold Fields.afterInitial at hst
  split at hst
  · unfold Collecting
    rw [hst]
    exact ⟨hnone, hh⟩
  · rename_i hn
    simp only [Bool.or_eq_true, not_or, Bool.not_eq_true] at hn
    have hfirst : ∀ x ∈ firstFields, (fieldsOf first).has x = false := by
      intro x hx
      simp only [firstFields, List.mem_cons, List.not_mem_nil, or_false] at hx
      rcases hx with rfl | rfl | rfl | rfl
      · exact hn.1.1.1
      · exact hn.1.1.2
      · exact hn.1.2
      · exact hn.2
    have hupto := upto_firstFields hh hfirst
    split at hst
    · exact .ofUrlLength hst (by rw [hnone]; rfl) hupto
    · rename_i hu
      have hu' : (fieldsOf first).hasMetadataUrl = false := by simpa using hu
      split at hst
      · rename_i hr
        exact .ofCommissionRates hst hr (hupto.skip hu')
      · rename_i hr
        obtain ⟨x, hx⟩ := hx
        have hr' := noRates (by simpa using hr : (fieldsOf first).hasCommissionRate = false)
        have hall : (fieldsOf first).has x = false := by
          cases x with
          | capital => exact hfirst _ (by decide)
          | restakeEarnings => exact hfirst _ (by decide)
          | openForDelegation => exact hfirst _ (by decide)
          | keys => exact hfirst _ (by decide)
          | metadataUrl => exact hu'
          | transactionFeeCommission => exact hr' _ (by decide)
          | bakingRewardCommission => exact hr' _ (by decide)
          | finalizationRewardCommission => exact hr' _ (by decide)
        rw [hall] at hx
        cases hx

/-- What the initial packet does. -/
structure Begun (first : Apdu) (t₀ t : Device Context) : Prop where
  fields : t.ctx.fields = fieldsOf first
  state : ∃ state, t.ctx.state = (fieldsOf first).afterInitial state
  announces : bitmapOf first ≠ 0
  hash : t.shared.hash = initialBytes first
  display : t.shared.display = t₀.shared.display
  screens : screens t.shared = []
  instruction : t.shared.currentInstruction = some first.ins

theorem initial_begun (hp : first.p1 = p1Initial)
    (h : (bakerApp sdk).handler first true (opened t₀ first) = .ok ⟨⟩ t) : Begun first t₀ t := by
  have hw : wp ((bakerApp sdk).handler first true) (fun _ t => Begun first t₀ t) (fun _ _ => True)
      (opened t₀ first) := by
    simp only [bakerApp, handleSignConfigureBaker, handleInitial, hp, wp_bind, Fw.wp_getCtx, wp_ite,
      and_true, true_implies, not_true_eq_false, false_implies, wp_parseKeyDerivationPath,
      wp_cxSha256Init, implies_true, true_and]
    intro _
    refine wp_header fun s' hs => ?_
    simp only [wp_bind, Fw.wp_modifyCtx, wp_updateHash, Fw.wp_throwIf, implies_true, true_and,
      wp_sendSuccessNoIdle]
    have hpl : (first.cdata.advance (1 + 4 * (first.cdata 0).toNat)).advance 61 =
        payloadOf first.cdata := by simp [payloadOf]
    rw [hpl]
    intro hne
    exact {
      fields := rfl
      state := ⟨_, rfl⟩
      announces := fun h0 => hne (.inl h0)
      hash := by
        show s'.hash ++ (payloadOf first.cdata).slice 2 = initialBytes first
        rw [hs.hash]
        rfl
      display := hs.display
      screens := by
        rw [screens_reply, screens_updateHash]
        simp [ConcordiumLedger.screens, hs.log, opened, sessionStep, flows]
      instruction := hs.instruction }
  exact ok_of_wp hw h

theorem initial_inv (hp : first.p1 = p1Initial) (hb : (bitmapOf first).toNat < 256)
    (hd : offersSign t₀.shared.display = false)
    (h : (bakerApp sdk).handler first true (opened t₀ first) = .ok ⟨⟩ t) : Inv first t := by
  have hbegun := initial_begun hp h
  have hoff : offersSign t.shared.display = false := by rw [hbegun.display]; exact hd
  obtain ⟨state, hstate⟩ := hbegun.state
  exact {
    instruction := by
      intro i hi
      rw [hbegun.instruction] at hi
      cases hi
      rfl
    screen := fun hn => absurd hbegun.screens hn
    active := fun _ _ => ⟨hbegun.fields, .inr ⟨hoff, collecting_initial hbegun.hash hbegun.screens
      (exists_field hb hbegun.announces) hstate⟩⟩
    sign := fun ho => absurd ho (by rw [hoff]; exact Bool.false_ne_true)
    arrays := by
      rw [hbegun.screens]
      intro _ flow hf
      cases hf }

theorem embeds {μ : Type} (sdk : Sdk) (u : InstructionContext μ) :
    Embeds (mainApp sdk u) u.signConfigureBaker (bakerApp sdk) insConfigureBaker
      (fun cb => cb.isShared = true) where
  handler := by
    intro apdu b hins
    have hh : (mainApp sdk u).handler apdu b = Fw.on u.signConfigureBaker
        (handleSignConfigureBaker sdk apdu.cdata apdu.p1 apdu.lc b) := by
      simp only [mainApp, mainHandler, hins]
      rfl
    rw [hh]
    exact Views.on _ _
  callback := fun _ hs => Views.sharedCallback _ sdk hs

section Session

variable {μ : Type} {u : InstructionContext μ} {d₀ d₁ d : Device μ}

theorem run_inv (hb : begins (mainApp sdk u) insConfigureBaker d₀ first d₁)
    (hp : first.p1 = p1Initial) (hd : offersSign d₀.shared.display = false)
    (h256 : (bitmapOf first).toNat < 256)
    (hrun : Run (lockStep (mainApp sdk u)) OwnScreens d₁ d) :
    Inv first (d.view u.signConfigureBaker) := by
  have hins : first.ins = insConfigureBaker := hb.2.1
  refine (embeds sdk u).invariant (C := OwnScreens) hb
    (hrun.mono fun d ev h => ?_) ?_ ?_ ?_ ?_
  · cases ev with
    | press i => exact h
    | command apdu => trivial
    | noApdu => trivial
  · exact fun t h => initial_inv hp h256 hd h
  · exact fun t hP i hi => hins ▸ hP.instruction i hi
  · exact fun t i hP hc => hc.own (fun _ h => h) hP.screen
  · exact fun t e t' hP hc hs => session_inv hP hc hs

theorem bit_lt (x : Field) : x.bit < 8 := by
  cases x <;> decide

theorem bits_iff {n : Nat} : (∀ i, n.testBit i = true → ∃ x : Field, x.bit = i) ↔ n < 256 := by
  constructor
  · intro h
    by_contra hn
    obtain ⟨i, hi, hbit⟩ := Nat.exists_ge_and_testBit_of_ge_two_pow (n := 8) (x := n) (by omega)
    obtain ⟨x, hx⟩ := h i hbit
    have := bit_lt x
    omega
  · intro h i hi
    have hlt : i < 8 := by
      by_contra hn
      rw [testBit_high h (by omega)] at hi
      cases hi
    match i with
    | 0 => exact ⟨.capital, rfl⟩
    | 1 => exact ⟨.restakeEarnings, rfl⟩
    | 2 => exact ⟨.openForDelegation, rfl⟩
    | 3 => exact ⟨.keys, rfl⟩
    | 4 => exact ⟨.metadataUrl, rfl⟩
    | 5 => exact ⟨.transactionFeeCommission, rfl⟩
    | 6 => exact ⟨.bakingRewardCommission, rfl⟩
    | 7 => exact ⟨.finalizationRewardCommission, rfl⟩

/-- Among the bitmaps of eight bits only one announces exactly the fields of the first screen. -/
theorem firstOnly_iff {bitmap : UInt16} (h : bitmap.toNat < 256) :
    (Fields.ofBitmap bitmap).firstOnly = true ↔ bitmap = 0x0F := by
  constructor
  · intro hf
    simp only [Fields.firstOnly, Bool.and_eq_true, Bool.not_eq_true'] at hf
    obtain ⟨⟨⟨⟨⟨h1, h2⟩, h3⟩, h4⟩, hu⟩, hr⟩ := hf
    have hn := noRates hr
    refine bitmap_ext h (by decide) fun x => ?_
    cases x with
    | capital => exact h1
    | restakeEarnings => exact h2
    | openForDelegation => exact h3
    | keys => exact h4
    | metadataUrl => exact hu
    | transactionFeeCommission => exact hn _ (by decide)
    | bakingRewardCommission => exact hn _ (by decide)
    | finalizationRewardCommission => exact hn _ (by decide)
  · rintro rfl
    decide

/-- A Sign step that an earlier session has left on the display comes too early: the first field is
still to be received. -/
theorem not_announced_at_first (hb : begins (mainApp sdk u) insConfigureBaker d₀ first d₁)
    (hp : first.p1 = p1Initial) (hd : offersSign d₀.shared.display = true) :
    ¬ SignsAnnounced first d₁ := by
  obtain ⟨-, hi, hh⟩ := begins_handler hb
  have hbegun : Begun first (d₀.view u.signConfigureBaker) (d₁.view u.signConfigureBaker) :=
    initial_begun hp ((embeds sdk u).handler_ok (d := opened d₀ first) hi hh)
  intro hs
  have ha : Announced first d₁.shared := hs (by
    have hdisplay : d₁.shared.display = d₀.shared.display := hbegun.display
    rw [hdisplay]
    exact hd)
  have h256 := bits_iff.mp ha.bits
  obtain ⟨x, hx⟩ := exists_field h256 hbegun.announces
  obtain ⟨rs, hcol, hshown, -⟩ := ha.fields
  obtain ⟨bs, hr⟩ := hcol.exists_of_has (Field.mem_all x) hx
  exact not_shown hbegun.screens (hshown _ hr)

/-- A session that comes to a Sign step. If no Sign step was on the display when it began, the
transaction is what the bitmap announces whenever a Sign step is displayed, unless the bitmap has a
bit that no field belongs to or announces exactly the fields of the first screen. -/
theorem announced_iff {es : List Event}
    (hb : begins (mainApp sdk u) insConfigureBaker d₀ first d₁) (hp : first.p1 = p1Initial)
    (hes : exec (lockStep (mainApp sdk u)) d₁ es = some d)
    (hown : Always (lockStep (mainApp sdk u)) (fun d ev _ => OwnScreens d ev) d₁ es)
    (ho : offersSign d.shared.display = true) :
    (SignsAnnounced first d₁ ∧
      Always (lockStep (mainApp sdk u)) (fun _ _ d' => SignsAnnounced first d') d₁ es) ↔
    offersSign d₀.shared.display = false ∧ (bitmapOf first).toNat < 256 ∧
      bitmapOf first ≠ 0x0F := by
  constructor
  · rintro ⟨h₁, hall⟩
    have ha : Announced first d.shared := hall.at_end h₁ hes ho
    have h256 := bits_iff.mp ha.bits
    have hd : offersSign d₀.shared.display = false := by
      cases hd : offersSign d₀.shared.display with
      | false => rfl
      | true => exact absurd h₁ (not_announced_at_first hb hp hd)
    refine ⟨hd, h256, fun h15 => ?_⟩
    obtain ⟨-, hfit⟩ := (run_inv hb hp hd h256 (run_of_exec hes hown)).sign ho
    obtain ⟨flow, hflow, hno⟩ := hfit ((firstOnly_iff h256).mpr h15)
    exact hno (ha.arrays flow hflow)
  · rintro ⟨hd, h256, h15⟩
    have hfo : (fieldsOf first).firstOnly = false := by
      cases hf : (fieldsOf first).firstOnly with
      | false => rfl
      | true => exact absurd ((firstOnly_iff h256).mp hf) h15
    have hann {t : Device μ} (ht : Run (lockStep (mainApp sdk u)) OwnScreens d₁ t) :
        SignsAnnounced first t := by
      intro hs
      have hinv := run_inv hb hp hd h256 ht
      exact ⟨(hinv.sign hs).1, bits_iff.mpr h256, hinv.arrays hfo⟩
    refine ⟨hann .refl, ?_⟩
    -- each state of the session is reached by steps that meet the condition
    have hboth : Always (lockStep (mainApp sdk u))
        (fun t ev t' => OwnScreens t ev ∧ SignsAnnounced first t') d₁ es := by
      refine (Always.congr_of_invariant
        (I := fun t => Run (lockStep (mainApp sdk u)) OwnScreens d₁ t)
        (fun t ev t' ht hs => ?_) .refl).mpr hown
      exact ⟨⟨fun h => h.1, fun h => ⟨h, hann (.tail ht h hs)⟩⟩, fun h => .tail ht h hs⟩
    exact (always_and.mp hboth).2

end Session

/-- The initial packet with the given bitmap. -/
def initialPacket (high low : UInt8) : Apdu :=
  sent insConfigureBaker p1Initial 0
    ([0] ++ List.replicate 60 0 ++ [configureBaker] ++ [high, low])

/-- The device after the initial packet and the given events. -/
def afterEvents (high low : UInt8) (es : List Event) :
    Option (Device Contexts × Device Contexts) := do
  let app := mainApp zeroAddressSdk Contexts.layout
  let d₁ ← accepted (dispatch app (initialPacket high low) (receivedCommand bootedDevice))
  let d ← exec (guarded (lockStep app) OwnScreens) d₁ es
  return (d₁, d)

/-- The session comes to a Sign step. -/
structure ComesToSign (high low : UInt8) (es : List Event) (d₁ d : Device Contexts) : Prop where
  begins : begins (mainApp zeroAddressSdk Contexts.layout) insConfigureBaker bootedDevice
    (initialPacket high low) d₁
  exec : exec (lockStep (mainApp zeroAddressSdk Contexts.layout)) d₁ es = some d
  own : Always (lockStep (mainApp zeroAddressSdk Contexts.layout))
    (fun d ev _ => OwnScreens d ev) d₁ es
  offers : offersSign d.shared.display = true

theorem comesToSign {high low : UInt8} {es : List Event} {d₁ d : Device Contexts}
    (h : afterEvents high low es = some (d₁, d)) (ho : offersSign d.shared.display = true) :
    ComesToSign high low es d₁ d := by
  simp only [afterEvents, Option.bind_eq_bind, Option.bind_eq_some_iff] at h
  obtain ⟨d₁', hd₁, d', hd, he⟩ := h
  cases he
  obtain ⟨hes, hown⟩ := exec_guarded hd
  exact ⟨⟨⟨rfl, rfl, rfl⟩, rfl, hd₁⟩, hes, hown, ho⟩

/-- The capital alone. -/
def capitalPacket : Event := .command (sent insConfigureBaker p1FirstBatch 0 (List.replicate 8 0))

theorem announced_capital :
    ∃ d₁ d : Device Contexts, ComesToSign 0 1 [capitalPacket] d₁ d ∧
      SignsAnnounced (initialPacket 0 1) d₁ ∧
      Always (lockStep (mainApp zeroAddressSdk Contexts.layout))
        (fun _ _ d' => SignsAnnounced (initialPacket 0 1) d') d₁ [capitalPacket] := by
  have hex : (afterEvents 0 1 [capitalPacket]).any (fun p => offersSign p.2.shared.display) =
      true := by
    delta afterEvents mainApp mainHandler
    simp only [handleSignConfigureBaker, SignConfigureBaker.handleInitial,
      hashAccountTransactionHeaderAndKind, addressText_zeroAddressSdk]
    decide
  obtain ⟨⟨d₁, d⟩, hr, ho⟩ := (Option.any_eq_true _ _).mp hex
  have h := comesToSign hr ho
  exact ⟨d₁, d, h, (announced_iff h.begins rfl h.exec h.own h.offers).mpr (by decide)⟩

/-- All fields of the first screen. -/
def firstScreenPackets : List Event :=
  [ .command (sent insConfigureBaker p1FirstBatch 0 (List.replicate (8 + 1 + 1 + 192) 0)),
    .command (sent insConfigureBaker p1AggregationKey 0 (List.replicate 160 0)) ]

/-- The Sign screen is offered for a bitmap with a ninth bit, and in an array that is too short. -/
theorem not_announced :
    (∃ d₁ d : Device Contexts, ComesToSign 1 1 [capitalPacket] d₁ d ∧
      ¬ SignsAnnounced (initialPacket 1 1) d) ∧
    ∃ d₁ d : Device Contexts, ComesToSign 0 0x0F firstScreenPackets d₁ d ∧
      ¬ SignsAnnounced (initialPacket 0 0x0F) d := by
  have hninth : (afterEvents 1 1 [capitalPacket]).any (fun p => offersSign p.2.shared.display) =
      true := by
    delta afterEvents mainApp mainHandler
    simp only [handleSignConfigureBaker, SignConfigureBaker.handleInitial,
      hashAccountTransactionHeaderAndKind, addressText_zeroAddressSdk]
    decide
  have harray : (afterEvents 0 0x0F firstScreenPackets).any (fun p =>
      offersSign p.2.shared.display && !(screens p.2.shared).all (fun flow => FitsArray flow))
        = true := by
    delta afterEvents mainApp mainHandler
    simp only [handleSignConfigureBaker, SignConfigureBaker.handleInitial,
      hashAccountTransactionHeaderAndKind, addressText_zeroAddressSdk]
    decide +kernel
  refine ⟨?_, ?_⟩
  · obtain ⟨⟨d₁, d⟩, hr, ho⟩ := (Option.any_eq_true _ _).mp hninth
    refine ⟨d₁, d, comesToSign hr ho, fun hs => ?_⟩
    exact absurd (bits_iff.mp (hs ho).bits) (by decide)
  · obtain ⟨⟨d₁, d⟩, hr, hc⟩ := (Option.any_eq_true _ _).mp harray
    simp only [Bool.and_eq_true, Bool.not_eq_true'] at hc
    refine ⟨d₁, d, comesToSign hr hc.1, fun hs => ?_⟩
    have hall : (screens d.shared).all (fun flow => FitsArray flow) = true :=
      List.all_eq_true.mpr fun flow hf => by simpa using (hs hc.1).arrays flow hf
    rw [hall] at hc
    cases hc.2

end SignConfigureBaker
end ConcordiumLedger
