import ConcordiumLedger.Common.ZeroAddress
import ConcordiumLedger.Main.KeysSeen

/-!
# Main.UpdatedKeys

The last screen of an update of credentials has the new threshold of the account, and neither the
last key of a credential nor its thresholds. So an update shows what it hashes of credentials only
when it announces none.

* `Aside`         — what a command does that is not one of a credential.
* `UpdateSeen`    — the invariant of an update.
* `keys_seen_iff` — the three instructions together.
-/

namespace ConcordiumLedger

open CMem CProg CProg.Prog Transition

variable {μ : Type}

namespace SignCredentialDeployment

/-- How many credentials an update announces. -/
def credentialsOf (first : Apdu) : UInt8 := payloadOf first.cdata 0

/-- The states after the last credential. -/
def UpdateCredentialState.past : UpdateCredentialState → Bool
  | .idCount | .id | .threshold => true
  | _ => false

/-- No step has the threshold of a credential. -/
def Silent (flow : List Step) : Prop := ∀ st ∈ flow, st.title ≠ "Signature threshold"

/-! ## One command -/

/-- A command leaves the screen up, or puts up one without the threshold of a credential. -/
def Puts (t t' : Device Context) : Prop :=
  screens t'.shared = screens t.shared ∧ t'.shared.display = t.shared.display ∨
    ∃ flow, screens t'.shared = screens t.shared ++ [flow] ∧ t'.shared.display = flow ∧
      (∀ st ∈ flow, Own st.callback) ∧ Silent flow

/-- A command that is not one of a credential. -/
structure Aside (t t' : Device Context) : Prop where
  state : t'.ctx.state = t.ctx.state
  instruction : t'.shared.currentInstruction = t.shared.currentInstruction
  atHand : ∀ c cs, AtHand c cs t.shared → AtHand c cs t'.shared
  puts : Puts t t'
  next : t.ctx.updateCredentialState = .credentialIndex ∧
      t'.ctx.updateCredentialState = .credential ∧ t'.shared.display = t.shared.display ∨
    t.ctx.updateCredentialState.past = true ∧ t'.ctx.updateCredentialState.past = true

section Packets

variable {t : Device Context} {buf : Ptr}

theorem credentialIndex_aside (hu : t.ctx.updateCredentialState = .credentialIndex) :
    wp (do updateHash buf 1; setUpdateState .credential; sendSuccessNoIdle : Fw Context PUnit)
      (fun _ t' => Aside t t') (fun _ _ => True) t := by
  simp only [setUpdateState, wp_bind, wp_updateHash, Fw.wp_modifyCtx, wp_sendSuccessNoIdle]
  exact ⟨rfl, rfl, fun _ _ h => (h.updateHash _).reply, .inl ⟨by simp, rfl⟩, .inl ⟨hu, rfl, rfl⟩⟩

theorem handleCredentialIdCount_aside (hu : t.ctx.updateCredentialState = .idCount) :
    wp (handleCredentialIdCount buf) (fun _ t' => Aside t t') (fun _ _ => True) t := by
  simp only [handleCredentialIdCount, setUpdateState, wp_bind, wp_updateHash, Fw.wp_modifyCtx,
    wp_sendSuccessNoIdle]
  refine ⟨rfl, rfl, fun _ _ h => (h.updateHash _).reply, .inl ⟨by simp, rfl⟩,
    .inr ⟨by rw [hu]; rfl, ?_⟩⟩
  by_cases hz : buf 0 = 0 <;> simp [hz, UpdateCredentialState.past]

theorem handleCredentialId_aside (hu : t.ctx.updateCredentialState = .id) :
    wp (handleCredentialId buf) (fun _ t' => Aside t t') (fun _ _ => True) t := by
  have haside {c c' : Context} (hs : c.state = t.ctx.state)
      (hp : c.updateCredentialState.past = true) :
      Aside t ⟨c, { (t.shared.updateHash (buf.slice 48)).uxFlowInit (uxSignCredentialUpdateId c')
        with asynchReply := true }⟩ := by
    refine ⟨hs, rfl, fun _ _ h => (h.updateHash _).congr (taken_uxFlowInit _ _),
      .inr ⟨uxSignCredentialUpdateId c', ?_, rfl, ?_, ?_⟩, .inr ⟨by rw [hu]; rfl, hp⟩⟩
    · show screens (Shared.uxFlowInit _ _) = _
      simp
    · simp [uxSignCredentialUpdateId, Own, Callback.isShared]
    · simp [uxSignCredentialUpdateId, Silent]
  simp only [handleCredentialId, setUpdateState, wp_bind, Fw.wp_getCtx, wp_updateHash, Fw.wp_eval,
    Fw.wp_when, Fw.wp_modifyCtx, wp_uxFlowInit, wp_waitForButton, implies_true, and_true]
  intro hex _
  constructor
  · intro _
    exact haside rfl rfl
  · intro _
    refine haside rfl ?_
    show t.ctx.updateCredentialState.past = true
    rw [hu]
    rfl

theorem handleUpdateThreshold_aside (hu : t.ctx.updateCredentialState = .threshold) :
    wp (handleUpdateThreshold buf) (fun _ t' => Aside t t') (fun _ _ => True) t := by
  simp only [handleUpdateThreshold, wp_bind, wp_updateHash, Fw.wp_eval, Fw.wp_modifyCtx,
    wp_uxFlowInit, wp_waitForButton, implies_true, and_true]
  intro text _
  have hpast : t.ctx.updateCredentialState.past = true := by
    rw [hu]
    rfl
  refine ⟨rfl, rfl, fun _ _ h => (h.updateHash _).congr (taken_uxFlowInit _ _),
    .inr ⟨_, ?_, rfl, ?_, ?_⟩, .inr ⟨hpast, hpast⟩⟩
  · show screens (Shared.uxFlowInit _ _) = _
    rw [screens_uxFlowInit, screens_updateHash]
    rfl
  · simp [uxSignCredentialUpdateThreshold, uxSignFlowSharedSign, uxSignFlowSharedDecline, Own,
      Callback.isShared]
  · simp [uxSignCredentialUpdateThreshold, uxSignFlowSharedSign, uxSignFlowSharedDecline, Silent]

/-- What a later command of an update does. -/
theorem handleSignUpdateCredential_takes (sdk : Sdk) (buf : Ptr) (p1 p2 : UInt8)
    (hu : t.ctx.updateCredentialState ≠ .initial) :
    wp (handleSignUpdateCredential sdk buf p1 p2 false)
      (fun _ t' => Updates t.ctx p2 ∧ Takes buf p1 p2 t t' ∨
        p2 ≠ p2CredentialCredential ∧ Aside t t')
      (fun _ _ => True) t := by
  unfold handleSignUpdateCredential
  rw [wp_bind, Fw.wp_when]
  refine ⟨fun h => absurd h (by decide), fun _ => ?_⟩
  rw [wp_bind, Fw.wp_getCtx]
  refine (wp_ite _ _ _).mpr ⟨fun h => absurd h.2 hu, fun _ => ?_⟩
  refine (wp_ite _ _ _).mpr ⟨?_, fun _ => ?_⟩
  · rintro ⟨rfl, hs, _⟩
    exact wp_mono (credentialIndex_aside hs) (fun _ _ h => .inr ⟨by decide, h⟩) fun _ _ h => h
  refine (wp_ite _ _ _).mpr ⟨?_, fun _ => ?_⟩
  · rintro ⟨hp2, hs, hcount⟩
    exact wp_mono (handleSignCredentialDeployment_takes sdk buf p1 p2 t)
      (fun _ _ h => .inl ⟨⟨hp2, hs, hcount⟩, h⟩) fun _ _ h => h
  refine (wp_ite _ _ _).mpr ⟨?_, fun _ => ?_⟩
  · rintro ⟨rfl, hs⟩
    exact wp_mono (handleCredentialIdCount_aside hs) (fun _ _ h => .inr ⟨by decide, h⟩)
      fun _ _ h => h
  refine (wp_ite _ _ _).mpr ⟨?_, fun _ => ?_⟩
  · rintro ⟨rfl, hs⟩
    exact wp_mono (handleCredentialId_aside hs) (fun _ _ h => .inr ⟨by decide, h⟩) fun _ _ h => h
  refine (wp_ite _ _ _).mpr ⟨?_, fun _ => trivial⟩
  rintro ⟨rfl, hs⟩
  exact wp_mono (handleUpdateThreshold_aside hs) (fun _ _ h => .inr ⟨by decide, h⟩) fun _ _ h => h

end Packets

/-! ## Sessions -/

/-- The session has hashed the thresholds of a credential. -/
def TookThresholds (s : Shared) : Prop := ∃ c ∈ taken s, c.bringsThresholds = true

/-- Where an update of `count` credentials is. -/
structure UpdatePhase (count : UInt8) (t : Device Context) : Prop where
  started : t.ctx.updateCredentialState ≠ .initial
  state : t.ctx.state ≠ .newOrExisting
  empty : count = 0 → t.ctx.updateCredentialState.past = true
  reading : count ≠ 0 → TookThresholds t.shared ∨
    t.ctx.updateCredentialState.past = false ∧ t.ctx.state.rank ≤ State.signatureThreshold.rank

/-- The invariant of an update of `count` credentials. -/
structure UpdateSeen (count : UInt8) (t : Device Context) : Prop where
  instruction : ∀ i, t.shared.currentInstruction = some i → i = insSignUpdateCredential
  own : screens t.shared ≠ [] → ∀ st ∈ t.shared.display, Own st.callback
  silent : ∀ flow ∈ screens t.shared, Silent flow
  bare : count = 0 → ∀ c ∈ taken t.shared, c.bringsKey = false ∧ c.bringsThresholds = false
  active : t.shared.running = true → t.shared.currentInstruction ≠ none → UpdatePhase count t
  signed : offersSign t.shared.display = true → count ≠ 0 → TookThresholds t.shared

section Update

variable {t t' : Device Context} {a : Apdu} {count : UInt8}

theorem State.early {st : State} (h : st.rank ≤ State.signatureThreshold.rank) :
    st ≠ .newOrExisting := by
  rintro rfl
  exact absurd h (by decide)

theorem update_atHand (ha : a.ins = insSignUpdateCredential) :
    AtHand ⟨insSignUpdateCredential, a.p1, a.p2, []⟩ (taken t.shared) (entered t a).shared :=
  ⟨[], by rw [taken_entered, ha]⟩

theorem TookThresholds.atHand {c : Taken} {s s' : Shared} (h : TookThresholds s)
    (hc : AtHand c (taken s) s') : TookThresholds s' := by
  obtain ⟨b, hb, hthr⟩ := h
  obtain ⟨bytes, hc⟩ := hc
  exact ⟨b, by rw [hc]; exact List.mem_cons_of_mem _ hb, hthr⟩

/-- A command keeps what does not depend on the phase. -/
theorem UpdateSeen.keep (h : UpdateSeen count t)
    (hi : t'.shared.currentInstruction = t.shared.currentInstruction)
    (hat : AtHand ⟨insSignUpdateCredential, a.p1, a.p2, []⟩ (taken t.shared) t'.shared)
    (hputs : Puts (entered t a) t') (hphase : UpdatePhase count t')
    (hother : count = 0 → a.p2 ≠ p2CredentialCredential)
    (hsign : offersSign t'.shared.display = true → count ≠ 0 →
      t'.shared.display = t.shared.display ∨ TookThresholds t.shared) : UpdateSeen count t' where
  instruction := by
    rw [hi]
    exact h.instruction
  own := by
    rcases hputs with ⟨hscr, hdisp⟩ | ⟨flow, _, hdisp, hown, _⟩
    · rw [hscr, screens_entered, hdisp]
      exact h.own
    · rw [hdisp]
      exact fun _ => hown
  silent := by
    rcases hputs with ⟨hscr, _⟩ | ⟨flow, hscr, _, _, hsilent⟩
    · rw [hscr, screens_entered]
      exact h.silent
    · intro f hf
      rw [hscr, screens_entered] at hf
      rcases List.mem_append.mp hf with hf | hf
      · exact h.silent f hf
      · rw [List.mem_singleton.mp hf]
        exact hsilent
  bare := by
    intro hz c hc
    have hp2 := hother hz
    rcases hat.brings hc with ⟨hkey, hthr⟩ | hc
    · rw [hkey, hthr]
      have hins : insSignUpdateCredential ≠ insPublicInfoForIp ∧
          insSignUpdateCredential ≠ insCredentialDeployment := by decide
      simp [Taken.bringsKey, Taken.bringsThresholds, Taken.ofCredential, hins, hp2]
    · exact h.bare hz c hc
  active := fun _ _ => hphase
  signed := by
    intro hs hne
    rcases hsign hs hne with hdisp | htook
    · rw [hdisp] at hs
      exact (h.signed hs hne).atHand hat
    · exact htook.atHand hat

/-- The update state after a packet of a credential. -/
theorem Packet.next {p1 p2 : UInt8} (hp : Packet p1 p2 t t')
    (hu : t.ctx.updateCredentialState = .credential) :
    t'.ctx.updateCredentialState ≠ .initial ∧
      (t.ctx.state.rank ≤ State.signatureThreshold.rank →
        t'.ctx.updateCredentialState.past = false) := by
  have hsame (h : t'.ctx.updateCredentialState = t.ctx.updateCredentialState) :
      t'.ctx.updateCredentialState ≠ .initial ∧ t'.ctx.updateCredentialState.past = false := by
    rw [h, hu]
    exact ⟨by decide, rfl⟩
  rcases hp with ⟨_, hb⟩ | ⟨s, _, hread | ⟨_, hf⟩⟩
  · exact ⟨(hsame hb.update).1, fun _ => (hsame hb.update).2⟩
  · exact ⟨(hsame hread.update).1, fun _ => (hsame hread.update).2⟩
  · refine ⟨?_, fun hle => ?_⟩
    · by_cases hone : t.ctx.credentialDeploymentCount = 1
      · rw [(hf.last hone).2]
        decide
      · rw [(hf.more hone).2]
        decide
    · rw [hf.state] at hle
      exact absurd hle (by decide)

/-- A packet of a credential. -/
theorem UpdateSeen.credential (h : UpdateSeen count t)
    (hi : t.shared.currentInstruction = some insSignUpdateCredential)
    (hr : t.shared.running = true) (ha : a.ins = insSignUpdateCredential) (hup : Updates t.ctx a.p2)
    (ht : Takes a.cdata a.p1 a.p2 (entered t a) t') (hp : Packet a.p1 a.p2 (entered t a) t') :
    UpdateSeen count t' := by
  obtain ⟨started, state, empty, reading⟩ := h.active hr (by rw [hi]; simp)
  have hcredential : t.ctx.updateCredentialState = .credential := hup.2.1
  have hne : count ≠ 0 := by
    intro hz
    have hpast := empty hz
    rw [hcredential] at hpast
    cases hpast
  have hnext := hp.next hcredential
  have htook := reading hne
  -- after the thresholds some have been taken
  have hlate (hs : State.signatureThreshold.rank < t.ctx.state.rank) : TookThresholds t.shared :=
    htook.resolve_right fun h => absurd h.2 (Nat.not_le_of_lt hs)
  -- when the screen stays up
  have hquiet (hq : Quiet (entered t a) t') (hs : t'.ctx.state ≠ .newOrExisting)
      (hread : TookThresholds t.shared ∨ t'.ctx.updateCredentialState.past = false ∧
        t'.ctx.state.rank ≤ State.signatureThreshold.rank) : UpdateSeen count t' := by
    have hat := hq.atHand _ _ (update_atHand ha)
    exact h.keep hq.instruction hat (.inl ⟨hq.screens, hq.display⟩)
      ⟨hnext.1, hs, fun hz => absurd hz hne, fun _ => hread.imp_left fun h => h.atHand hat⟩
      (fun hz => absurd hz hne) fun _ _ => .inl hq.display
  cases ht with
  | first hs hp1 hq hs' =>
    have hearly := hs'.trans (Nat.le_succ _)
    exact hquiet hq (State.early hearly) (.inr ⟨hnext.2 ((Nat.le_of_lt hs).trans (Nat.le_succ _)),
      hearly⟩)
  | key hp1 hk =>
    have hat := hk.adds.atHand (update_atHand ha)
    have hpast := hnext.2 (by rw [hk.state]; decide)
    rcases hk.next with ⟨_, hstate, flow, hscr, hdisp, hflow⟩ | ⟨_, hstate, hscr, hdisp⟩
    · refine h.keep hk.instruction hat (.inr ⟨flow, hscr, hdisp, hflow.own, hflow.silent⟩)
        ⟨hnext.1, by rw [hstate]; decide, fun hz => absurd hz hne,
          fun _ => .inr ⟨hpast, by rw [hstate]; decide⟩⟩ (fun hz => absurd hz hne) fun hs _ => ?_
      rw [hdisp, hflow.unsigned] at hs
      cases hs
    · exact h.keep hk.instruction hat (.inl ⟨hscr, hdisp⟩)
        ⟨hnext.1, by rw [hstate]; decide, fun hz => absurd hz hne,
          fun _ => .inr ⟨hpast, by rw [hstate]⟩⟩ (fun hz => absurd hz hne) fun _ _ => .inl hdisp
  | thresholds hp1 hs hk =>
    have hat := hk.quiet.atHand _ _ (update_atHand ha)
    have hnew : TookThresholds t'.shared := by
      obtain ⟨bytes, htaken⟩ := hat
      refine ⟨_, by rw [htaken]; exact List.mem_cons_self, ?_⟩
      simp [Taken.bringsThresholds, Taken.ofCredential, hp1, hup.1]
    exact h.keep hk.quiet.instruction hat (.inl ⟨hk.quiet.screens, hk.quiet.display⟩)
      ⟨hnext.1, by rw [hk.state]; decide, fun hz => absurd hz hne, fun _ => .inl hnew⟩
      (fun hz => absurd hz hne) fun _ _ => .inl hk.quiet.display
  | later hs hlast hp1 hl =>
    exact hquiet hl.toQuiet (fun hst => hl.last hst hup) (.inl (hlate hs))
  | back hp1 hs hb hq hs' =>
    have hst : t.ctx.state = .proofs := hs
    exact hquiet hq (by rw [hs']; decide) (.inl (hlate (by rw [hst]; decide)))
  | final hs hp1 hf => exact absurd hs state

/-- Another command. -/
theorem UpdateSeen.aside (h : UpdateSeen count t)
    (hi : t.shared.currentInstruction = some insSignUpdateCredential)
    (hr : t.shared.running = true) (ha : a.ins = insSignUpdateCredential)
    (hp2 : a.p2 ≠ p2CredentialCredential) (hs : Aside (entered t a) t') : UpdateSeen count t' := by
  obtain ⟨started, state, empty, reading⟩ := h.active hr (by rw [hi]; simp)
  have hat := hs.atHand _ _ (update_atHand ha)
  have hstate : t'.ctx.state = t.ctx.state := hs.state
  -- the last credential has been read, if there was one
  have hlate (hpast : t.ctx.updateCredentialState.past = true) (hne : count ≠ 0) :
      TookThresholds t.shared := by
    refine (reading hne).resolve_right fun h => ?_
    rw [hpast] at h
    cases h.1
  refine h.keep hs.instruction hat hs.puts ⟨?_, by rw [hstate]; exact state, fun hz => ?_,
    fun hne => ?_⟩ (fun _ => hp2) fun _ hne => ?_
  · rcases hs.next with ⟨_, hu, _⟩ | ⟨_, hpast⟩
    · rw [hu]
      decide
    · rintro hu
      rw [hu] at hpast
      cases hpast
  · rcases hs.next with ⟨hu, _, _⟩ | ⟨_, hpast⟩
    · have hu' : t.ctx.updateCredentialState = .credentialIndex := hu
      have hpast := empty hz
      rw [hu'] at hpast
      cases hpast
    · exact hpast
  · rcases hs.next with ⟨_, hu, _⟩ | ⟨hpast, _⟩
    · refine (reading hne).imp (fun h => h.atHand hat) fun h => ⟨by rw [hu]; rfl, ?_⟩
      rw [hstate]
      exact h.2
    · exact .inl ((hlate hpast hne).atHand hat)
  · rcases hs.next with ⟨_, _, hdisp⟩ | ⟨hpast, _⟩
    · exact .inl hdisp
    · exact .inr (hlate hpast hne)

/-- A command of an update. -/
theorem UpdateSeen.command (h : UpdateSeen count t) (sdk : Sdk)
    (hi : t.shared.currentInstruction = some insSignUpdateCredential)
    (hr : t.shared.running = true) (ha : a.ins = insSignUpdateCredential)
    (hh : handleSignUpdateCredential sdk a.cdata a.p1 a.p2 false (entered t a) = .ok ⟨⟩ t') :
    UpdateSeen count t' := by
  have hstarted := (h.active hr (by rw [hi]; simp)).started
  have hboth := of_wp_ok (wp_and
    (handleSignUpdateCredential_takes (t := entered t a) sdk a.cdata a.p1 a.p2 hstarted)
    (handleSignUpdateCredential_packet sdk a.cdata a.p1 a.p2 (entered t a))) hh
  obtain ⟨⟨hup, ht⟩ | ⟨hp2, hs⟩, hp⟩ := hboth
  · rcases hp with ⟨_, _, hp⟩ | hout
    · exact h.credential hi hr ha hup ht hp
    · exact absurd hup.1 hout.other
  · exact h.aside hi hr ha hp2 hs

/-- A press of a shared step. -/
theorem UpdateSeen.passed (h : UpdateSeen count t) (hp : Passed t t') : UpdateSeen count t' := by
  have htaken := taken_passed hp
  have htook : TookThresholds t'.shared ↔ TookThresholds t.shared := by
    unfold TookThresholds
    rw [htaken]
  refine ⟨fun i hi => h.instruction i (hp.instruction i hi), hp.own_screen (fun _ h => .inl h) h.own,
    fun flow hf => ?_, ?_, fun hr hne => ?_, fun hs hne => ?_⟩
  · rcases hp.mem_screens hf with hf | rfl
    · exact h.silent flow hf
    · simp [Silent, uxMenuIdleFlow]
  · rw [htaken]
    exact h.bare
  · obtain ⟨_, hins, hrun, _⟩ := hp.goes_on hr hne
    obtain ⟨started, state, empty, reading⟩ := h.active hrun (hins ▸ hne)
    refine ⟨?_, ?_, ?_, ?_⟩
    · rw [hp.ctx]
      exact started
    · rw [hp.ctx]
      exact state
    · rw [hp.ctx]
      exact empty
    · rw [hp.ctx, htook]
      exact reading
  · rw [(hp.of_offersSign hs).1] at hs
    exact htook.mpr (h.signed hs hne)

/-- Continue, also when it is confirmed late. -/
theorem UpdateSeen.next (h : UpdateSeen count t) (hr : t.shared.running = true)
    (hi : t.shared.currentInstruction ≠ none) :
    UpdateSeen count (finish (processNextVerificationKey t)) := by
  have hpassed := h.passed (.reply t [] success)
  by_cases hz : t.ctx.numberOfVerificationKeys = 0
  · rw [processNext_last hz]
    obtain ⟨started, _, empty, reading⟩ := hpassed.active hr hi
    exact ⟨hpassed.instruction, hpassed.own, hpassed.silent, hpassed.bare,
      fun _ _ => ⟨started, State.early (le_refl _), empty, fun hne =>
        (reading hne).imp_right fun h => ⟨h.1, le_refl _⟩⟩, hpassed.signed⟩
  · rw [processNext_more hz]
    exact hpassed

/-- What the first command hashes is no part of a credential. -/
theorem opened_bare {s : Shared} {p1 p2 : UInt8} {bytes : List UInt8}
    (hs : taken s = [⟨insSignUpdateCredential, p1, p2, bytes⟩]) (hp2 : p2 ≠ p2CredentialCredential) :
    ∀ c ∈ taken s, c.bringsKey = false ∧ c.bringsThresholds = false := by
  intro c hc
  rw [hs, List.mem_singleton] at hc
  subst hc
  have hins : insSignUpdateCredential ≠ insPublicInfoForIp ∧
      insSignUpdateCredential ≠ insCredentialDeployment := by decide
  simp [Taken.bringsKey, Taken.bringsThresholds, Taken.ofCredential, hins, hp2]

theorem handleUpdateInitial_seen (sdk : Sdk) {c : Context} (ha : a.ins = insSignUpdateCredential)
    (hp2 : a.p2 = p2CredentialInitial) (hc : c.state = .verificationKeysLength) :
    wp (handleUpdateInitial sdk a.cdata) (fun _ t' => UpdateSeen (credentialsOf a) t')
      (fun _ _ => True) ⟨c, (opened t a).shared⟩ := by
  simp only [handleUpdateInitial, setUpdateState, wp_bind, wp_parseKeyDerivationPath,
    wp_cxSha256Init, implies_true, true_and]
  intro _
  refine wp_header (d := ⟨c, (opened t a).shared⟩) fun s hs => ?_
  have hcount : ((a.cdata.advance (1 + 4 * (a.cdata 0).toNat)).advance 61) 0 =
      credentialsOf a := by
    simp [credentialsOf, payloadOf]
  simp only [wp_bind, wp_updateHash, Fw.wp_modifyCtx, wp_uxFlowInit, wp_waitForButton]
  let s' := s.updateHash (((a.cdata.advance (1 + 4 * (a.cdata 0).toNat)).advance 61).slice 1)
  let flow := uxUpdateCredentialsInitialFlow s'
  have hshared : ∀ st ∈ flow, st.callback.isShared = true := by
    simp [flow, uxUpdateCredentialsInitialFlow, uxSignFlowSharedReview, uxSignFlowAccountSenderView,
      Callback.isShared]
  have hno : offersSign flow = false := by
    simp [flow, uxUpdateCredentialsInitialFlow, uxSignFlowSharedReview, uxSignFlowAccountSenderView,
      offersSign, Step.signs]
  have hscr : screens (s'.uxFlowInit flow) = [flow] := by
    have hnone : screens s = [] := by
      simp [screens, hs.log, opened, sessionStep, flows]
    rw [screens_uxFlowInit, screens_updateHash, hnone, List.nil_append]
  have htaken : ∃ bytes, taken (s'.uxFlowInit flow) =
      [⟨insSignUpdateCredential, a.p1, a.p2, bytes⟩] := by
    refine ⟨headerOf a.cdata ++ [updateCredentials] ++
      ((a.cdata.advance (1 + 4 * (a.cdata 0).toNat)).advance 61).slice 1, ?_⟩
    rw [taken_uxFlowInit, taken_updateHash]
    simp [taken, hs.log, opened, sessionStep, takenStep, ha]
  obtain ⟨bytes, htaken⟩ := htaken
  refine ⟨fun i hi => ?_, fun _ st hst => .inl (hshared st hst), fun f hf => ?_,
    fun _ => opened_bare htaken (by rw [hp2]; decide), fun _ _ => ?_, fun hsign => ?_⟩
  · have hi' : s.currentInstruction = some i := hi
    rw [hs.instruction] at hi'
    exact (Option.some.inj ((congrArg some ha).symm.trans hi')).symm
  · have hf' : f ∈ screens (s'.uxFlowInit flow) := hf
    rw [hscr, List.mem_singleton] at hf'
    subst hf'
    simp [Silent, flow, uxUpdateCredentialsInitialFlow, uxSignFlowSharedReview,
      uxSignFlowAccountSenderView]
  · refine ⟨?_, ?_, fun hz => ?_, fun hne => .inr ⟨?_, ?_⟩⟩
    · show (if _ = 0 then UpdateCredentialState.idCount else _) ≠ _
      split <;> decide
    · show c.state ≠ _
      rw [hc]
      decide
    · show UpdateCredentialState.past (if _ = 0 then _ else _) = true
      rw [hcount, if_pos hz]
      rfl
    · show UpdateCredentialState.past (if _ = 0 then _ else _) = false
      rw [hcount, if_neg hne]
      rfl
    · show c.state.rank ≤ _
      rw [hc]
      decide
  · have hsign' : offersSign flow = true := hsign
    rw [hno] at hsign'
    cases hsign'

/-- The first command of an update. -/
theorem UpdateSeen.begun (sdk : Sdk) (ha : a.ins = insSignUpdateCredential) :
    wp (handleSignUpdateCredential sdk a.cdata a.p1 a.p2 true)
      (fun _ t' => UpdateSeen (credentialsOf a) t') (fun _ _ => True) (opened t a) := by
  unfold handleSignUpdateCredential
  rw [wp_bind, Fw.wp_when]
  refine ⟨fun _ => ?_, fun h => absurd rfl h⟩
  rw [Fw.wp_modifyCtx, wp_bind, Fw.wp_getCtx]
  refine (wp_ite _ _ _).mpr ⟨fun h => handleUpdateInitial_seen sdk ha h.1 rfl, fun _ => ?_⟩
  -- every other command needs another state
  refine (wp_ite _ _ _).mpr ⟨fun h => (by cases h.2.1), fun _ => ?_⟩
  refine (wp_ite _ _ _).mpr ⟨fun h => (by cases h.2.1), fun _ => ?_⟩
  refine (wp_ite _ _ _).mpr ⟨fun h => (by cases h.2), fun _ => ?_⟩
  refine (wp_ite _ _ _).mpr ⟨fun h => (by cases h.2), fun _ => ?_⟩
  exact (wp_ite _ _ _).mpr ⟨fun h => (by cases h.2), fun _ => trivial⟩

end Update

/-! ## Runs -/

/-- The application as an instruction that reads credentials sees it. -/
def credentialApp (sdk : Sdk) (handler : Sdk → Ptr → UInt8 → UInt8 → Bool → Fw Context PUnit) :
    App Context where
  handler := fun a b => handler sdk a.cdata a.p1 a.p2 b
  callback := sharedCallback sdk fun _ => processNextVerificationKey

section Runs

variable {sdk : Sdk} {u : InstructionContext μ} {d₀ d₁ d : Device μ} {first : Apdu} {ins : UInt8}

theorem callback_views (sdk : Sdk) (u : InstructionContext μ) {cb : Callback} (h : Own cb)
    (handler : Sdk → Ptr → UInt8 → UInt8 → Bool → Fw Context PUnit) :
    Views u.signCredentialDeploymentContext ((mainApp sdk u).callback cb)
      ((credentialApp sdk handler).callback cb) := by
  rcases h with hs | rfl
  · exact Views.sharedCallback _ sdk hs
  · exact Views.on _ _

theorem deployment_embeds (sdk : Sdk) (u : InstructionContext μ) :
    Embeds (mainApp sdk u) u.signCredentialDeploymentContext
      (credentialApp sdk handleSignCredentialDeployment) insCredentialDeployment Own where
  handler := by
    intro a b ha
    rw [mainHandler_credential sdk u ha]
    exact Views.on _ _
  callback := fun _ h => callback_views sdk u h _

theorem update_embeds (sdk : Sdk) (u : InstructionContext μ) :
    Embeds (mainApp sdk u) u.signCredentialDeploymentContext
      (credentialApp sdk handleSignUpdateCredential) insSignUpdateCredential Own where
  handler := by
    intro a b ha
    rw [mainHandler_update ha]
    exact Views.on _ _
  callback := fun _ h => callback_views sdk u h _

theorem InPlace.own {t : Device Context} {i : Nat} (h : InPlace t (.press i))
    (hs : screens t.shared ≠ [] → ∀ st ∈ t.shared.display, Own st.callback) :
    Own (t.shared.pressed i) :=
  OwnScreens.own h.1 (fun _ h => .inl h) hs

/-- A deployment. -/
theorem run_details (hb : begins (mainApp sdk u) insCredentialDeployment d₀ first d₁)
    (hd : offersSign d₀.shared.display = false)
    (hrun : Run (lockStep (mainApp sdk u))
      (fun d e => InPlace (d.view u.signCredentialDeploymentContext) e) d₁ d) :
    DetailsSeen (d.view u.signCredentialDeploymentContext) := by
  obtain ⟨_, ha, _⟩ := begins_handler hb
  refine (deployment_embeds sdk u).invariant (C := InPlace) hb hrun ?_ ?_ ?_ ?_
  · intro t ht
    have htakes := of_wp_ok (handleSignCredentialDeployment_takes sdk first.cdata first.p1 first.p2
      ⟨{ (d₀.view u.signCredentialDeploymentContext).ctx with state := .initial },
        (opened (d₀.view u.signCredentialDeploymentContext) first).shared⟩) ht
    exact .begun (t := d₀.view u.signCredentialDeploymentContext) ha hd htakes
  · exact fun t hP => hP.instruction
  · exact fun t i hP hC => hC.own hP.own
  · intro t e t' hP hC hstep
    cases e with
    | command a =>
      obtain ⟨hi, hr, _, hh⟩ := hstep
      have ha := hP.instruction _ hi
      rw [ha] at hi
      have htakes := of_wp_ok (handleSignCredentialDeployment_takes sdk a.cdata a.p1 a.p2 _) hh
      exact hP.command hi hr ha hC htakes
    | press i =>
      obtain ⟨hi, hr, rfl⟩ := hstep
      rcases hC.own hP.own with hs | hcb
      · exact hP.passed (sharedCallback_passed t sdk hs)
      · have hscr : screens t.shared ≠ [] := by
          rcases hC.1 with hs | hscr
          · rw [hcb] at hs
            cases hs
          · exact hscr
        rw [hcb]
        exact hP.next hr hi hscr (hC.2 hcb)
    | noApdu => exact hstep.elim

/-- An update. -/
theorem run_update (hb : begins (mainApp sdk u) insSignUpdateCredential d₀ first d₁)
    (hrun : Run (lockStep (mainApp sdk u))
      (fun d e => InPlace (d.view u.signCredentialDeploymentContext) e) d₁ d) :
    UpdateSeen (credentialsOf first) (d.view u.signCredentialDeploymentContext) := by
  obtain ⟨_, ha, _⟩ := begins_handler hb
  refine (update_embeds sdk u).invariant (C := InPlace) hb hrun ?_ ?_ ?_ ?_
  · intro t ht
    have hbegun := of_wp_ok
      (UpdateSeen.begun (t := d₀.view u.signCredentialDeploymentContext) sdk ha) ht
    exact hbegun
  · exact fun t hP => hP.instruction
  · exact fun t i hP hC => hC.own hP.own
  · intro t e t' hP hC hstep
    cases e with
    | command a =>
      obtain ⟨hi, hr, _, hh⟩ := hstep
      have ha := hP.instruction _ hi
      rw [ha] at hi
      exact hP.command sdk hi hr ha hh
    | press i =>
      obtain ⟨hi, hr, rfl⟩ := hstep
      rcases hC.own hP.own with hs | hcb
      · exact hP.passed (sharedCallback_passed t sdk hs)
      · rw [hcb]
        exact hP.next hr hi
    | noApdu => exact hstep.elim

/-- The packets of a credential with one more key, up to the end of its proofs: one anonymity
revoker, no attributes, and four bytes of proofs. -/
def lastKeyToProofs (command : UInt8 → List UInt8 → Apdu) : List Event :=
  [ .command (command p1VerificationKey (List.replicate 34 1)),
    .command (command p1SignatureThreshold (1 :: List.replicate 52 0 ++ [1, 0, 1])),
    .command (command p1ArIdentity (List.replicate 100 0)),
    .command (command p1CredentialDates (List.replicate 8 0)),
    .command (command p1LengthOfProofs [0, 0, 0, 4]),
    .command (command p1Proofs (List.replicate 4 0)) ]

/-- A deployment with two keys on a new account. -/
def deployed : List Event :=
  [ .command (credentialCommand p1VerificationKeyLength 0 [2]),
    .command (credentialCommand p1VerificationKey 0 (List.replicate 34 0)),
    .press 2 ] ++
  lastKeyToProofs (credentialCommand · 0 ·) ++
  [ .command (credentialCommand p1NewOrExisting 0 (List.replicate 9 0)) ]

def updateCommand (p1 p2 : UInt8) (data : List UInt8) : Apdu :=
  sent insSignUpdateCredential p1 p2 data

/-- An update that announces one credential. -/
def updatePacket : Apdu :=
  updateCommand 0 p2CredentialInitial ([0] ++ List.replicate 60 0 ++ [updateCredentials, 1])

/-- The new credential has one key, and none is removed. -/
def updated : List Event :=
  [ .press 2,
    .command (updateCommand 0 p2CredentialCredentialIndex [0]),
    .command (updateCommand p1VerificationKeyLength p2CredentialCredential [1]) ] ++
  lastKeyToProofs (updateCommand · p2CredentialCredential ·) ++
  [ .command (updateCommand 0 p2CredentialIdCount [0]),
    .command (updateCommand 0 p2Threshold [1]) ]

end Runs

end SignCredentialDeployment
end ConcordiumLedger
