import ConcordiumLedger.Main.CredentialOrder
import ConcordiumLedger.Main.VerificationKeys

/-!
# Main.KeysSeen

The keys and the thresholds of a deployment: each key but the last is shown when it comes, and the
last one and the thresholds on the last screen.

* `Takes`       — what a packet of a credential does, in a deployment or an update.
* `InPlace`     — the events that do not lead a deployment back.
* `DetailsSeen` — the invariant of a deployment.
-/

namespace ConcordiumLedger

open CMem CProg CProg.Prog Transition

variable {μ : Type}

namespace SignCredentialDeployment

/-- The events that do not lead back: Continue is not confirmed when the last key has been followed
by the thresholds, and a deployment does not take the end of its proofs for that of a credential of
an update. A screen of an earlier session is only used for its shared steps. -/
def InPlace (t : Device Context) : Event → Prop
  | .press i => OwnScreens t (.press i) ∧ (t.shared.pressed i = .processNextVerificationKey →
      t.ctx.numberOfVerificationKeys = 0 → t.ctx.state.rank ≤ State.signatureThreshold.rank)
  | .command a => ¬ MistakenForUpdate t.ctx a
  | .noApdu => True

instance (t : Device Context) (ev : Event) : Decidable (InPlace t ev) :=
  match ev with
  | .press i => inferInstanceAs (Decidable (OwnScreens t (.press i) ∧ (_ → _ → _)))
  | .command _ => inferInstanceAs (Decidable (¬ (_ ∧ _ ∧ _ ∧ _ ∧ _ ∧ _)))
  | .noApdu => inferInstanceAs (Decidable True)

/-! ## One packet -/

/-- A packet that only hashes and replies. -/
structure Quiet (t t' : Device Context) : Prop where
  display : t'.shared.display = t.shared.display
  screens : screens t'.shared = screens t.shared
  instruction : t'.shared.currentInstruction = t.shared.currentInstruction
  atHand : ∀ c cs, AtHand c cs t.shared → AtHand c cs t'.shared

/-- The arrays that the final screen shows, and the number of keys left. -/
structure SameTexts (c c' : Context) : Prop where
  numberOfVerificationKeys : c'.numberOfVerificationKeys = c.numberOfVerificationKeys
  accountVerificationKey : c'.accountVerificationKey = c.accountVerificationKey
  signatureThreshold : c'.signatureThreshold = c.signatureThreshold
  anonymityRevocationThreshold : c'.anonymityRevocationThreshold = c.anonymityRevocationThreshold

/-- A packet after the thresholds and before the last one. -/
structure Later (p2 : UInt8) (t t' : Device Context) : Prop extends Quiet t t' where
  texts : SameTexts t.ctx t'.ctx
  rank : State.signatureThreshold.rank < t'.ctx.state.rank
  last : t'.ctx.state = .newOrExisting → ¬ Updates t.ctx p2

section Packets

variable {t t' : Device Context} {buf : Ptr} {p2 : UInt8}

/-- A packet that moves the state to `st`. -/
theorem Later.move (st : State) (hq : Quiet t t') (htexts : SameTexts t.ctx t'.ctx)
    (hst : t'.ctx.state = st) (hrank : State.signatureThreshold.rank < st.rank)
    (hlast : st ≠ .newOrExisting) : Later p2 t t' where
  toQuiet := hq
  texts := htexts
  rank := by
    rw [hst]
    exact hrank
  last := by
    rw [hst]
    exact fun h => absurd h hlast

theorem handleArIdentity_later (hs : t.ctx.state = .arIdentity) :
    wp (handleArIdentity buf) (fun _ t' => Later p2 t t') (fun _ _ => True) t := by
  simp only [handleArIdentity, setState, wp_bind, Fw.wp_getCtx, Fw.wp_throwIf, wp_updateHash,
    Fw.wp_when, Fw.wp_modifyCtx, wp_sendSuccessNoIdle, implies_true, true_and]
  intro _
  have hquiet {c : Context} : Quiet t ⟨c, ((t.shared.updateHash (buf.slice 4)).updateHash
      ((buf.advance 4).slice 96)).reply [] success⟩ :=
    ⟨rfl, by simp, rfl, fun _ _ h => ((h.updateHash _).updateHash _).reply⟩
  constructor
  · intro _
    exact .move .credentialDates hquiet ⟨rfl, rfl, rfl, rfl⟩ rfl (by decide) (by decide)
  · intro _
    exact .move .arIdentity hquiet ⟨rfl, rfl, rfl, rfl⟩ hs (by decide) (by decide)

theorem handleCredentialDates_later :
    wp (handleCredentialDates buf) (fun _ t' => Later p2 t t') (fun _ _ => True) t := by
  simp only [handleCredentialDates, setState, wp_bind, wp_updateHash, Fw.wp_modifyCtx,
    wp_sendSuccessNoIdle]
  have hquiet {c : Context} : Quiet t ⟨c, ((t.shared.updateHash (buf.slice 6)).updateHash
      ((buf.advance 6).slice 2)).reply [] success⟩ :=
    ⟨rfl, by simp, rfl, fun _ _ h => ((h.updateHash _).updateHash _).reply⟩
  by_cases hz : (buf.advance 6).u2be 0 = 0
  · exact .move .lengthOfProofs hquiet ⟨rfl, rfl, rfl, rfl⟩ (if_pos hz) (by decide) (by decide)
  · exact .move .attributeTag hquiet ⟨rfl, rfl, rfl, rfl⟩ (if_neg hz) (by decide) (by decide)

theorem handleAttributeTag_later :
    wp (handleAttributeTag buf) (fun _ t' => Later p2 t t') (fun _ _ => True) t := by
  simp only [handleAttributeTag, setState, wp_bind, Fw.wp_getCtx, Fw.wp_throwIf, wp_updateHash,
    Fw.wp_modifyCtx, wp_sendSuccessNoIdle, implies_true, true_and]
  intro _
  exact .move .attributeValue
    ⟨rfl, by simp, rfl, fun _ _ h => ((h.updateHash _).updateHash _).reply⟩
    ⟨rfl, rfl, rfl, rfl⟩ rfl (by decide) (by decide)

theorem handleAttributeValue_later :
    wp (handleAttributeValue buf) (fun _ t' => Later p2 t t') (fun _ _ => True) t := by
  simp only [handleAttributeValue, setState, wp_bind, Fw.wp_getCtx, wp_updateHash,
    Fw.wp_modifyCtx, wp_sendSuccessNoIdle]
  have hquiet {c : Context} : Quiet t ⟨c, (t.shared.updateHash
      (buf.slice t.ctx.attributeValueLength.toNat)).reply [] success⟩ :=
    ⟨rfl, by simp, rfl, fun _ _ h => (h.updateHash _).reply⟩
  by_cases hz : t.ctx.attributeListLength - 1 = 0
  · exact .move .lengthOfProofs hquiet ⟨rfl, rfl, rfl, rfl⟩ (if_pos hz) (by decide) (by decide)
  · exact .move .attributeTag hquiet ⟨rfl, rfl, rfl, rfl⟩ (if_neg hz) (by decide) (by decide)

theorem handleLengthOfProofs_later :
    wp (handleLengthOfProofs buf p2) (fun _ t' => Later p2 t t') (fun _ _ => True) t := by
  simp only [handleLengthOfProofs, setState, wp_bind, wp_updateHash, Fw.wp_modifyCtx, Fw.wp_when,
    wp_sendSuccessNoIdle]
  constructor
  · intro _
    exact .move .proofs ⟨rfl, by simp, rfl, fun _ _ h => (h.updateHash _).reply⟩
      ⟨rfl, rfl, rfl, rfl⟩ rfl (by decide) (by decide)
  · intro _
    exact .move .proofs ⟨rfl, by simp, rfl, fun _ _ h => h.reply⟩ ⟨rfl, rfl, rfl, rfl⟩ rfl
      (by decide) (by decide)

theorem finishCredential_texts (c : Context) (p2 : UInt8) :
    SameTexts c (c.finishCredential p2) := by
  unfold Context.finishCredential
  split
  · split <;> exact ⟨rfl, rfl, rfl, rfl⟩
  · exact ⟨rfl, rfl, rfl, rfl⟩

/-- The last proof bytes of a credential of an update with another one to come lead back. -/
def LeadsBack (c : Context) (p2 : UInt8) : Prop :=
  c.proofLength.toNat ≤ maxCdataLength ∧ Updates c p2 ∧ c.credentialDeploymentCount ≠ 1

theorem handleProofs_later (hs : t.ctx.state = .proofs) :
    wp (handleProofs buf p2) (fun _ t' => Later p2 t t' ∨
        LeadsBack t.ctx p2 ∧ Quiet t t' ∧ t'.ctx.state = .verificationKeysLength)
      (fun _ _ => True) t := by
  simp only [handleProofs, wp_bind, Fw.wp_getCtx, wp_ite, wp_updateHash, Fw.wp_modifyCtx,
    wp_sendSuccessNoIdle]
  constructor
  · intro _
    exact .inl (.move .proofs ⟨rfl, by simp, rfl, fun _ _ h => (h.updateHash _).reply⟩
      ⟨rfl, rfl, rfl, rfl⟩ hs (by decide) (by decide))
  · intro hlen
    have hquiet : Quiet t ⟨t.ctx.finishCredential p2, (t.shared.updateHash
        (buf.slice t.ctx.proofLength.toNat)).reply [] success⟩ :=
      ⟨rfl, by simp, rfl, fun _ _ h => (h.updateHash _).reply⟩
    by_cases hup : Updates t.ctx p2
    · have hstate := finishCredential_update hup
      by_cases hone : t.ctx.credentialDeploymentCount = 1
      · rw [if_pos hone] at hstate
        exact .inl (.move .stale hquiet (finishCredential_texts _ _) hstate (by decide) (by decide))
      · rw [if_neg hone] at hstate
        exact .inr ⟨⟨not_lt.mp hlen, hup, hone⟩, hquiet, hstate⟩
    · have hstate := finishCredential_deployment hup
      refine .inl ⟨hquiet, finishCredential_texts _ _, ?_, fun _ => hup⟩
      show _ < (t.ctx.finishCredential p2).state.rank
      rw [hstate]
      decide

/-- What a packet adds to what its command has hashed. -/
def Adds (bytes : List UInt8) (s s' : Shared) : Prop :=
  ∀ c cs, taken s = c :: cs → taken s' = { c with bytes := c.bytes ++ bytes } :: cs

theorem Adds.atHand {bytes : List UInt8} {s s' : Shared} (h : Adds bytes s s') {c : Taken}
    {cs : List Taken} (hc : AtHand c cs s) : AtHand c cs s' := by
  obtain ⟨before, hc⟩ := hc
  exact ⟨before ++ bytes, h _ _ hc⟩

/-- The screen of a key that is not the last one. -/
structure KeyScreen (text : Option (List UInt8)) (flow : List Step) : Prop where
  shows : ∃ st ∈ flow, st.title = "Public key" ∧ st.shown = text
  own : ∀ st ∈ flow, Own st.callback
  unsigned : offersSign flow = false
  silent : ∀ st ∈ flow, st.title ≠ "Signature threshold"

theorem keyScreen (b : Bool) (c : Context) :
    KeyScreen (cString c.accountVerificationKey.bytes) (withIntro b (uxVerificationKeyFlow c)) := by
  refine ⟨⟨uxPublicKey c, ?_, rfl, rfl⟩, ?_, ?_, ?_⟩
  · cases b <;> simp [withIntro, uxVerificationKeyFlow]
  · exact withIntro_own _ (by simp [uxVerificationKeyFlow, uxPublicKey, Own, Callback.isShared])
  · cases b <;>
      simp [withIntro, uxVerificationKeyFlow, uxPublicKey, uxReviewDetails, offersSign, Step.signs]
  · cases b <;> simp [withIntro, uxVerificationKeyFlow, uxPublicKey, uxReviewDetails]

/-- A key is hashed, and shown if more are to come. -/
structure TakesKey (buf : Ptr) (t t' : Device Context) : Prop where
  state : t.ctx.state = .verificationKey
  text : cString t'.ctx.accountVerificationKey.bytes =
    keyText (((buf.advance 1).advance 1).slice 32)
  adds : Adds (buf.slice 1 ++ (buf.advance 1).slice 1 ++ ((buf.advance 1).advance 1).slice 32)
    t.shared t'.shared
  instruction : t'.shared.currentInstruction = t.shared.currentInstruction
  next : t'.ctx.numberOfVerificationKeys ≠ 0 ∧ t'.ctx.state = .verificationKey ∧
      (∃ flow, screens t'.shared = screens t.shared ++ [flow] ∧ t'.shared.display = flow ∧
        KeyScreen (cString t'.ctx.accountVerificationKey.bytes) flow) ∨
    t'.ctx.numberOfVerificationKeys = 0 ∧ t'.ctx.state = .signatureThreshold ∧
      screens t'.shared = screens t.shared ∧ t'.shared.display = t.shared.display

theorem handleVerificationKey_takes :
    wp (handleVerificationKey buf) (fun _ t' => TakesKey buf t t') (fun _ _ => True) t := by
  simp only [handleVerificationKey, parseVerificationKey, setState, wp_bind, Fw.wp_getCtx,
    Fw.wp_throwIf, wp_updateHash, Fw.wp_eval, Fw.wp_modifyCtx, wp_ite, wp_uxFlowInit,
    wp_sendSuccessNoIdle, implies_true, and_true, true_and, not_not]
  rintro ⟨_, hs⟩ hex hhex
  have htext := cString_key (Ptr.slice_length _ _) hhex
  let s := ((t.shared.updateHash (buf.slice 1)).updateHash ((buf.advance 1).slice 1)).updateHash
    (((buf.advance 1).advance 1).slice 32)
  have hadds {s' : Shared} (h : taken s' = taken s) :
      Adds (buf.slice 1 ++ (buf.advance 1).slice 1 ++ ((buf.advance 1).advance 1).slice 32)
        t.shared s' := by
    intro c cs hc
    rw [h]
    simp [s, hc, takenStep]
  constructor
  · intro hmore
    refine ⟨hs, htext, hadds (taken_uxFlowInit s _), rfl, .inl ⟨?_, hs, _, ?_, rfl, keyScreen _ _⟩⟩
    · exact fun h => absurd h (UInt8.ne_of_lt hmore).symm
    · show screens (s.uxFlowInit _) = _
      rw [screens_uxFlowInit]
      simp [s]
  · intro hlast
    refine ⟨hs, htext, hadds (taken_reply s _ _), rfl, .inr ⟨?_, rfl, by simp, rfl⟩⟩
    exact UInt8.le_zero_iff.mp (UInt8.not_lt.mp hlast)

/-- The text of the threshold of the anonymity revokers is terminated. -/
theorem cString_arThreshold {dst text : Buffer 13} (p : Ptr)
    (h : arThresholdText (p 53) (p.u2be 54) dst = .ok text) :
    cString text.bytes = some (arText p) := by
  obtain ⟨number, hn, h⟩ := except_bind_ok h
  obtain ⟨total, ht, h⟩ := except_bind_ok h
  obtain ⟨_, hlen, _⟩ := bin2dec_length ht
  have hnumber := numberToText_eq hn
  have htotal := bin2dec_eq ht
  have hshort : number.length ≤ 3 := by
    rw [(numberToText_length hn).1]
    exact lengthOfNumber_le _ (by decide) (by
      rw [UInt8.toNat_toUInt64]
      exact Nat.lt_of_lt_of_le (p 53).toNat_lt (by decide))
  have hroom : subSize 13 (number.length + 8) = 13 - (number.length + 8) := by
    rw [subSize]
    omega
  rw [hroom] at hlen
  rw [UInt8.toNat_toUInt64] at hnumber
  rw [UInt16.toNat_toUInt64] at htotal
  cases h
  have hout : (number ++ ascii " out of ").length = number.length + 8 := List.length_append
  rw [← hout, Buffer.memmove_memmove _ _ _ (by rw [List.length_append, hout]; omega), htotal,
    ← List.append_assoc]
  refine (cString_memmove _ _ ?_ ?_).trans (by rw [hnumber, arText])
  · rw [hnumber]
    simp only [List.mem_append, not_or]
    exact ⟨⟨zero_not_mem_decimal _, by decide⟩, zero_not_mem_decimal _⟩
  · rw [List.length_append, hout]
    rw [htotal, List.length_append, List.length_singleton] at hlen
    omega

/-- The thresholds are hashed, and their texts are kept for the last screen. -/
structure TakesThresholds (buf : Ptr) (t t' : Device Context) : Prop where
  state : t'.ctx.state = .arIdentity
  keys : t'.ctx.numberOfVerificationKeys = t.ctx.numberOfVerificationKeys
  key : t'.ctx.accountVerificationKey = t.ctx.accountVerificationKey
  threshold : cString t'.ctx.signatureThreshold.bytes = some (decimal (buf 0).toNat)
  arThreshold : cString t'.ctx.anonymityRevocationThreshold.bytes = some (arText buf)
  adds : Adds (buf.slice 56) t.shared t'.shared
  quiet : Quiet t t'

theorem handleSignatureThreshold_takes :
    wp (handleSignatureThreshold buf) (fun _ t' => TakesThresholds buf t t') (fun _ _ => True)
      t := by
  simp only [handleSignatureThreshold, setState, wp_bind, Fw.wp_getCtx, Fw.wp_throwIf,
    wp_updateHash, Fw.wp_eval, Fw.wp_modifyCtx, wp_sendSuccessNoIdle, implies_true, and_true,
    true_and]
  intro _ text htext ar har
  have hlen := (bin2dec_length htext).2.1
  have heq := bin2dec_eq htext
  rw [UInt8.toNat_toUInt64] at heq
  rw [heq, List.length_append, List.length_singleton] at hlen
  have hadds {s : Shared} (h : taken s = taken (((((t.shared.updateHash (buf.slice 1)).updateHash
      ((buf.advance 1).slice 48)).updateHash (((buf.advance 1).advance 48).slice 4)).updateHash
      ((((buf.advance 1).advance 48).advance 4).slice 1)).updateHash
      (((((buf.advance 1).advance 48).advance 4).advance 1).slice 2))) :
      Adds (buf.slice 56) t.shared s := by
    intro c cs hc
    have hbytes : buf.slice 56 = buf.slice 1 ++ (buf.advance 1).slice 48 ++
        ((buf.advance 1).advance 48).slice 4 ++ (((buf.advance 1).advance 48).advance 4).slice 1 ++
        ((((buf.advance 1).advance 48).advance 4).advance 1).slice 2 := by
      simp only [Ptr.advance_advance, ← Ptr.slice_add]
    rw [h, hbytes]
    simp [hc, takenStep]
  have hthreshold : cString (t.ctx.signatureThreshold.memmove 0 text).bytes =
      some (decimal (buf 0).toNat) := by
    rw [heq]
    exact cString_memmove _ _ (zero_not_mem_decimal _) (by omega)
  exact ⟨rfl, rfl, rfl, hthreshold, cString_arThreshold buf har, hadds (taken_reply _ _ _), rfl,
    by simp, rfl, fun c cs h => (hadds (taken_reply _ _ _)).atHand h⟩

theorem initialPacket_quiet :
    wp (initialPacket buf) (fun _ t' => Quiet t t' ∧ t'.ctx.state = .verificationKeysLength)
      (fun _ _ => True) t := by
  simp only [initialPacket, wp_bind, wp_parseKeyDerivationPath, wp_cxSha256Init, Fw.wp_modifyCtx,
    wp_sendSuccessNoIdle, implies_true, true_and]
  intro _
  exact ⟨⟨rfl, by simp, rfl, fun c cs h => h.congr (by simp)⟩, trivial⟩

theorem keysLength_quiet :
    wp (keysLength buf) (fun _ t' => Quiet t t' ∧ t'.ctx.state = .verificationKey)
      (fun _ _ => True) t := by
  simp only [keysLength, setState, wp_bind, Fw.wp_modifyCtx, wp_updateHash, wp_sendSuccessNoIdle]
  exact ⟨⟨rfl, by simp, rfl, fun _ _ h => (h.updateHash _).reply⟩, trivial⟩

/-- The last screen of a deployment. -/
structure FinalScreen (t t' : Device Context) : Prop where
  state : t'.ctx.state = t.ctx.state
  texts : SameTexts t.ctx t'.ctx
  instruction : t'.shared.currentInstruction = t.shared.currentInstruction
  atHand : ∀ c cs, AtHand c cs t.shared → AtHand c cs t'.shared
  screen : ∃ flow, screens t'.shared = screens t.shared ++ [flow] ∧ t'.shared.display = flow ∧
    (∀ st ∈ flow, Own st.callback) ∧ ∀ st ∈ keyAndThresholds t.ctx, st ∈ flow

theorem withIntro_mem {b : Bool} {flow : List Step} {st : Step} (h : st ∈ flow) :
    st ∈ withIntro b flow := by
  cases b with
  | false => exact h
  | true => exact List.mem_cons_of_mem _ h

theorem handleNewOrExisting_final (sdk : Sdk) :
    wp (handleNewOrExisting sdk buf) (fun _ t' => FinalScreen t t') (fun _ _ => True) t := by
  simp only [handleNewOrExisting, wp_bind, Fw.wp_getCtx, wp_ite, wp_updateHash, Fw.wp_modifyCtx,
    Fw.wp_eval, wp_uxFlowInit, Fw.wp_throw, implies_true, and_true]
  have hown : ∀ st ∈ keyAndThresholds t.ctx ++ signDetails, Own st.callback := by
    simp [keyAndThresholds, uxPublicKey, signDetails, Own, Callback.isShared]
  constructor
  · intro _
    refine ⟨rfl, ⟨rfl, rfl, rfl, rfl⟩, rfl, fun c cs h => ?_, _, ?_, rfl, withIntro_own _ hown,
      fun st hst => withIntro_mem (List.mem_append_left _ hst)⟩
    · exact ((h.updateHash _).updateHash _).congr (taken_uxFlowInit _ _)
    · rw [screens_uxFlowInit, screens_updateHash, screens_updateHash]
      rfl
  · intro _ _ text _
    refine ⟨rfl, ⟨rfl, rfl, rfl, rfl⟩, rfl, fun c cs h => ?_, _, ?_, rfl, withIntro_own _ ?_,
      fun st hst => withIntro_mem (List.mem_append_left _ hst)⟩
    · exact ((h.updateHash _).updateHash _).congr (taken_uxFlowInit _ _)
    · rw [screens_uxFlowInit, screens_updateHash, screens_updateHash]
      rfl
    · simp [uxSignCredentialDeploymentExisting, keyAndThresholds, uxPublicKey, signDetails, Own,
        Callback.isShared]

/-- What a packet of a credential does. -/
inductive Takes (buf : Ptr) (p1 p2 : UInt8) (t t' : Device Context) : Prop
  | first (hs : t.ctx.state.rank < State.verificationKey.rank)
      (hp1 : p1 ≠ p1VerificationKey ∧ p1 ≠ p1SignatureThreshold) (hq : Quiet t t')
      (hs' : t'.ctx.state.rank ≤ State.verificationKey.rank)
  | key (hp1 : p1 = p1VerificationKey) (hk : TakesKey buf t t')
  | thresholds (hp1 : p1 = p1SignatureThreshold) (hs : t.ctx.state = .signatureThreshold)
      (hk : TakesThresholds buf t t')
  | later (hs : State.signatureThreshold.rank < t.ctx.state.rank)
      (hlast : t.ctx.state ≠ .newOrExisting)
      (hp1 : p1 ≠ p1VerificationKey ∧ p1 ≠ p1SignatureThreshold) (hl : Later p2 t t')
  | back (hp1 : p1 = p1Proofs) (hs : t.ctx.state = .proofs) (hb : LeadsBack t.ctx p2)
      (hq : Quiet t t') (hs' : t'.ctx.state = .verificationKeysLength)
  | final (hs : t.ctx.state = .newOrExisting)
      (hp1 : p1 ≠ p1VerificationKey ∧ p1 ≠ p1SignatureThreshold) (hf : FinalScreen t t')

theorem Quiet.wait (h : Quiet t t') : Quiet t ⟨t'.ctx, { t'.shared with asynchReply := true }⟩ :=
  ⟨h.display, h.screens, h.instruction, h.atHand⟩

theorem Takes.wait {p1 : UInt8} (h : Takes buf p1 p2 t t') :
    Takes buf p1 p2 t ⟨t'.ctx, { t'.shared with asynchReply := true }⟩ := by
  cases h with
  | first hs hp1 hq hs' => exact .first hs hp1 hq.wait hs'
  | key hp1 hk => exact .key hp1 ⟨hk.state, hk.text, hk.adds, hk.instruction, hk.next⟩
  | thresholds hp1 hs hk =>
    exact .thresholds hp1 hs
      ⟨hk.state, hk.keys, hk.key, hk.threshold, hk.arThreshold, hk.adds, hk.quiet.wait⟩
  | later hs hlast hp1 hl =>
    exact .later hs hlast hp1 ⟨hl.toQuiet.wait, hl.texts, hl.rank, hl.last⟩
  | back hp1 hs hb hq hs' => exact .back hp1 hs hb hq.wait hs'
  | final hs hp1 hf =>
    exact .final hs hp1 ⟨hf.state, hf.texts, hf.instruction, hf.atHand, hf.screen⟩

/-- A packet between the thresholds and the last one. -/
theorem takes_later {p1 : UInt8} {x : Fw Context PUnit} {st : State} (hs : t.ctx.state = st)
    (hrank : State.signatureThreshold.rank < st.rank) (hlast : st ≠ .newOrExisting)
    (hp1 : p1 ≠ p1VerificationKey ∧ p1 ≠ p1SignatureThreshold)
    (h : wp x (fun _ t' => Later p2 t t') (fun _ _ => True) t) :
    wp x (fun _ t' => Takes buf p1 p2 t t') (fun _ _ => True) t := by
  refine wp_mono h (fun _ _ hl => .later ?_ ?_ hp1 hl) fun _ _ h => h
  · rw [hs]
    exact hrank
  · rw [hs]
    exact hlast

theorem handleSignCredentialDeployment_takes (sdk : Sdk) (buf : Ptr) (p1 p2 : UInt8)
    (t : Device Context) :
    wp (handleSignCredentialDeployment sdk buf p1 p2 false) (fun _ t' => Takes buf p1 p2 t t')
      (fun _ _ => True) t := by
  unfold handleSignCredentialDeployment
  rw [wp_bind, Fw.wp_when]
  refine ⟨fun h => absurd h (by decide), fun _ => ?_⟩
  rw [wp_bind, Fw.wp_getCtx, wp_bind]
  refine wp_mono (?_ : wp _ (fun (_ : PUnit.{1}) t' => Takes buf p1 p2 t t') (fun _ _ => True) t)
    (fun _ t' h => ?_) fun _ _ h => h
  · refine (wp_ite _ _ _).mpr ⟨?_, fun _ => ?_⟩
    · rintro ⟨rfl, hs⟩
      refine wp_mono initialPacket_quiet (fun _ _ h => .first ?_ (by decide) h.1 ?_) fun _ _ h => h
      · rw [hs]
        decide
      · rw [h.2]
        decide
    refine (wp_ite _ _ _).mpr ⟨?_, fun _ => ?_⟩
    · rintro ⟨rfl, hs⟩
      refine wp_mono keysLength_quiet (fun _ _ h => .first ?_ (by decide) h.1 ?_) fun _ _ h => h
      · rw [hs]
        decide
      · rw [h.2]
    refine (wp_ite _ _ _).mpr ⟨?_, fun _ => ?_⟩
    · rintro rfl
      exact wp_mono handleVerificationKey_takes (fun _ _ h => .key rfl h) fun _ _ h => h
    refine (wp_ite _ _ _).mpr ⟨?_, fun _ => ?_⟩
    · rintro ⟨rfl, hs⟩
      exact wp_mono handleSignatureThreshold_takes (fun _ _ h => .thresholds rfl hs h)
        fun _ _ h => h
    refine (wp_ite _ _ _).mpr ⟨?_, fun _ => ?_⟩
    · rintro ⟨rfl, hs⟩
      exact takes_later hs (by decide) (by decide) (by decide) (handleArIdentity_later hs)
    refine (wp_ite _ _ _).mpr ⟨?_, fun _ => ?_⟩
    · rintro ⟨rfl, hs⟩
      exact takes_later hs (by decide) (by decide) (by decide) handleCredentialDates_later
    refine (wp_ite _ _ _).mpr ⟨?_, fun _ => ?_⟩
    · rintro ⟨rfl, hs⟩
      exact takes_later hs (by decide) (by decide) (by decide) handleAttributeTag_later
    refine (wp_ite _ _ _).mpr ⟨?_, fun _ => ?_⟩
    · rintro ⟨rfl, hs⟩
      exact takes_later hs (by decide) (by decide) (by decide) handleAttributeValue_later
    refine (wp_ite _ _ _).mpr ⟨?_, fun _ => ?_⟩
    · rintro ⟨rfl, hs⟩
      exact takes_later hs (by decide) (by decide) (by decide) handleLengthOfProofs_later
    refine (wp_ite _ _ _).mpr ⟨?_, fun _ => ?_⟩
    · rintro ⟨rfl, hs⟩
      refine wp_mono (handleProofs_later hs) (fun _ _ h => ?_) fun _ _ h => h
      rcases h with h | ⟨hb, hq, hs'⟩
      · refine .later ?_ ?_ (by decide) h <;> rw [hs] <;> decide
      · exact .back rfl hs hb hq hs'
    refine (wp_ite _ _ _).mpr ⟨?_, fun _ => trivial⟩
    rintro ⟨rfl, hs⟩
    exact wp_mono (handleNewOrExisting_final sdk) (fun _ _ h => .final hs (by decide) h)
      fun _ _ h => h
  · rw [wp_waitForButton]
    exact h.wait

end Packets

/-! ## Deployments -/

/-- The arrays of the last screen hold the thresholds of a command. -/
def HoldsThresholds (c : Context) (bytes : List UInt8) : Prop :=
  cString c.signatureThreshold.bytes = some (decimal (Ptr.ofBytes bytes 0).toNat) ∧
    cString c.anonymityRevocationThreshold.bytes = some (arText (Ptr.ofBytes bytes))

/-- The thresholds of the session's commands, which were hashed after the keys. -/
def ThresholdsHeld (t : Device Context) : Prop :=
  ∀ c ∈ taken t.shared, c.bringsThresholds = true →
    State.signatureThreshold.rank < t.ctx.state.rank ∧ HoldsThresholds t.ctx c.bytes

/-- Before the last key. -/
structure KeysPhase (t : Device Context) : Prop where
  fresh : t.ctx.state ≠ .verificationKey → screens t.shared = []
  more : screens t.shared ≠ [] → t.ctx.numberOfVerificationKeys ≠ 0
  seen : KeysSeen t.shared
  none : ∀ c ∈ taken t.shared, c.bringsThresholds = false
  unsigned : offersSign t.shared.display = false

/-- After it: the key and the thresholds are only shown on the last screen. -/
structure DetailsPhase (t : Device Context) : Prop where
  all : t.ctx.numberOfVerificationKeys = 0
  seen : KeysSeenBut t.shared (cString t.ctx.accountVerificationKey.bytes)
  held : ThresholdsHeld t
  unsigned : t.ctx.state ≠ .newOrExisting → offersSign t.shared.display = false

/-- Where a deployment is. -/
structure Phase (t : Device Context) : Prop where
  keys : t.ctx.state.rank ≤ State.verificationKey.rank → KeysPhase t
  details : State.signatureThreshold.rank ≤ t.ctx.state.rank → DetailsPhase t

/-- The invariant of a deployment. -/
structure DetailsSeen (t : Device Context) : Prop where
  instruction : ∀ i, t.shared.currentInstruction = some i → i = insCredentialDeployment
  own : screens t.shared ≠ [] → ∀ st ∈ t.shared.display, Own st.callback
  active : t.shared.running = true → t.shared.currentInstruction ≠ none → Phase t
  signed : offersSign t.shared.display = true → AllSeen t.shared

section Deployment

variable {sdk : Sdk} {t t' : Device Context} {a : Apdu}

theorem ofCredential_deployment {c : Taken} (h : c.ins = insCredentialDeployment) :
    c.bringsKey = decide (c.p1 = p1VerificationKey) ∧
      c.bringsThresholds = decide (c.p1 = p1SignatureThreshold) := by
  have hother : insCredentialDeployment ≠ insPublicInfoForIp := by decide
  simp [Taken.bringsKey, Taken.bringsThresholds, Taken.ofCredential, h, hother]

/-- After the last screen everything was shown. -/
theorem FinalScreen.allSeen {c : Taken} {s : Shared} (hf : FinalScreen t t')
    (hs : screens t.shared = screens s)
    (seen : KeysSeenBut s (cString t.ctx.accountVerificationKey.bytes))
    (held : ∀ b ∈ taken s, b.bringsThresholds = true → HoldsThresholds t.ctx b.bytes)
    (hc : AtHand c (taken s) t.shared) (hkey : c.bringsKey = false)
    (hthr : c.bringsThresholds = false) : AllSeen t'.shared := by
  obtain ⟨flow, hscr, _, _, hmem⟩ := hf.screen
  have hc' := hf.atHand _ _ hc
  have hpublic := hmem (uxPublicKey t.ctx) (by simp [keyAndThresholds])
  refine ⟨fun b hb hk => ?_, fun b hb hk => ?_⟩
  · rcases hc'.brings hb with ⟨hsame, _⟩ | hb
    · rw [hsame, hkey] at hk
      cases hk
    · rcases seen b hb hk with hseen | ⟨hlen, htext⟩
      · exact hseen.mono (by
          rw [hscr, hs]
          exact List.subset_append_left _ _)
      · exact ⟨hlen, flow, by simp [hscr], uxPublicKey t.ctx, hpublic, rfl, htext⟩
  · rcases hc'.brings hb with ⟨_, hsame⟩ | hb
    · rw [hsame, hthr] at hk
      cases hk
    · obtain ⟨hthreshold, har⟩ := held b hb hk
      have hsig := hmem ⟨"Signature threshold", t.ctx.signatureThreshold.bytes, .none⟩
        (by simp [keyAndThresholds])
      have hrev := hmem ⟨"AR threshold", t.ctx.anonymityRevocationThreshold.bytes,
        .sendSuccessNoIdle⟩ (by simp [keyAndThresholds])
      exact ⟨flow, by simp [hscr], ⟨_, hsig, rfl, hthreshold⟩, _, hrev, rfl, har⟩

theorem Phase.of_keys (hs : t.ctx.state.rank ≤ State.verificationKey.rank) (h : KeysPhase t) :
    Phase t where
  keys := fun _ => h
  details := fun hr => absurd (hr.trans hs) (by decide)

theorem Phase.of_details (hs : State.signatureThreshold.rank ≤ t.ctx.state.rank)
    (h : DetailsPhase t) : Phase t where
  keys := fun hr => absurd (hs.trans hr) (by decide)
  details := fun _ => h

/-- A packet that leaves the display as it is. -/
theorem DetailsSeen.quiet (h : DetailsSeen t)
    (hi : t.shared.currentInstruction = some insCredentialDeployment)
    (hq : Quiet (entered t a) t') (hp : Phase t')
    (hsigned : offersSign t.shared.display = true → AllSeen t'.shared) : DetailsSeen t' where
  instruction := fun i hi' => (Option.some.inj (hi.symm.trans (hq.instruction.symm.trans hi'))).symm
  own := by
    rw [hq.screens, screens_entered, hq.display]
    exact h.own
  active := fun _ _ => hp
  signed := by
    rw [hq.display]
    exact hsigned

theorem deployment_atHand (ha : a.ins = insCredentialDeployment) :
    AtHand ⟨insCredentialDeployment, a.p1, a.p2, []⟩ (taken t.shared) (entered t a).shared :=
  ⟨[], by rw [taken_entered, ha]⟩

theorem deployment_taken (ha : a.ins = insCredentialDeployment) :
    taken (entered t a).shared = ⟨insCredentialDeployment, a.p1, a.p2, []⟩ :: taken t.shared := by
  rw [taken_entered, ha]

/-- The packet of a deployment that brings neither a key nor thresholds. -/
theorem deployment_silent {p1 : UInt8} (p2 : UInt8) (bytes : List UInt8)
    (hp1 : p1 ≠ p1VerificationKey ∧ p1 ≠ p1SignatureThreshold) :
    (⟨insCredentialDeployment, p1, p2, bytes⟩ : Taken).bringsKey = false ∧
      (⟨insCredentialDeployment, p1, p2, bytes⟩ : Taken).bringsThresholds = false := by
  obtain ⟨hkey, hthr⟩ := ofCredential_deployment (c := ⟨insCredentialDeployment, p1, p2, bytes⟩) rfl
  refine ⟨?_, ?_⟩
  · rw [hkey]
    exact decide_eq_false hp1.1
  · rw [hthr]
    exact decide_eq_false hp1.2

/-- A packet before the keys. -/
theorem DetailsSeen.first (h : DetailsSeen t)
    (hi : t.shared.currentInstruction = some insCredentialDeployment) (hr : t.shared.running = true)
    (ha : a.ins = insCredentialDeployment) (hs : t.ctx.state.rank < State.verificationKey.rank)
    (hp1 : a.p1 ≠ p1VerificationKey ∧ a.p1 ≠ p1SignatureThreshold)
    (hq : Quiet (entered t a) t') (hs' : t'.ctx.state.rank ≤ State.verificationKey.rank) :
    DetailsSeen t' := by
  obtain ⟨fresh, more, seen, none, unsigned⟩ :=
    (h.active hr (by rw [hi]; simp)).keys (Nat.le_of_lt hs)
  obtain ⟨hkey, hthr⟩ := deployment_silent a.p2 [] hp1
  have hat := hq.atHand _ _ (deployment_atHand ha)
  have hscr : screens t'.shared = screens t.shared := by rw [hq.screens, screens_entered]
  have hnone : screens t'.shared = [] := by
    rw [hscr]
    refine fresh fun hst => ?_
    rw [hst] at hs
    exact absurd hs (by decide)
  have hno : offersSign t'.shared.display = false := by
    rw [hq.display]
    exact unsigned
  refine h.quiet hi hq (.of_keys hs' ⟨fun _ => hnone, fun hne => absurd hnone hne,
    KeysSeen.atHand seen hat hkey hscr, fun b hb => ?_, hno⟩) fun hsign => ?_
  · rcases hat.brings hb with ⟨_, hsame⟩ | hb
    · rw [hsame, hthr]
    · exact none b hb
  · rw [unsigned] at hsign
    cases hsign

/-- A key: shown at once, or kept for the last screen. -/
theorem DetailsSeen.key (h : DetailsSeen t)
    (hi : t.shared.currentInstruction = some insCredentialDeployment) (hr : t.shared.running = true)
    (ha : a.ins = insCredentialDeployment) (hp1 : a.p1 = p1VerificationKey)
    (hk : TakesKey a.cdata (entered t a) t') : DetailsSeen t' := by
  have hs : t.ctx.state = .verificationKey := hk.state
  obtain ⟨_, _, seen, none, unsigned⟩ :=
    (h.active hr (by rw [hi]; simp)).keys (by rw [hs])
  have htaken := hk.adds _ _ (deployment_taken ha)
  have hsub : screens t.shared ⊆ screens t'.shared := by
    rcases hk.next with ⟨_, _, flow, hscr, _⟩ | ⟨_, _, hscr, _⟩
    · rw [hscr, screens_entered]
      exact List.subset_append_left _ _
    · rw [hscr, screens_entered]
      exact List.Subset.refl _
  have hbut : KeysSeenBut t'.shared (cString t'.ctx.accountVerificationKey.bytes) := by
    rw [hk.text, ← key_slice insCredentialDeployment a.p1 a.p2]
    refine .cons seen htaken hsub ?_
    rw [key_slice]
    exact Ptr.slice_length _ _
  have hnone : ∀ c ∈ taken t'.shared, c.bringsThresholds = false := by
    intro b hb
    rw [htaken] at hb
    rcases List.mem_cons.mp hb with rfl | hb
    · rw [(ofCredential_deployment rfl).2]
      show decide (a.p1 = p1SignatureThreshold) = false
      rw [hp1]
      decide
    · exact none b hb
  have hinstr : ∀ i, t'.shared.currentInstruction = some i → i = insCredentialDeployment := by
    intro i hi'
    rw [hk.instruction] at hi'
    exact h.instruction i hi'
  rcases hk.next with ⟨hmore, hstate, flow, hscr, hdisp, hflow⟩ | ⟨hlast, hstate, hscr, hdisp⟩
  · have hmem : flow ∈ screens t'.shared := by simp [hscr]
    have hno : offersSign t'.shared.display = false := by
      rw [hdisp]
      exact hflow.unsigned
    refine ⟨hinstr, fun _ => ?_, fun _ _ => .of_keys (by rw [hstate]) ⟨fun hne => absurd hstate hne,
      fun _ => hmore, hbut.seen hmem hflow.shows, hnone, hno⟩, fun hsign => ?_⟩
    · rw [hdisp]
      exact hflow.own
    · rw [hno] at hsign
      cases hsign
  · have hno : offersSign t'.shared.display = false := by
      rw [hdisp]
      exact unsigned
    refine ⟨hinstr, ?_, fun _ _ => .of_details (by rw [hstate]) ⟨hlast, hbut, fun c hc hb => ?_,
      fun _ => hno⟩, fun hsign => ?_⟩
    · rw [hscr, screens_entered, hdisp]
      exact h.own
    · rw [hnone c hc] at hb
      cases hb
    · rw [hno] at hsign
      cases hsign

theorem HoldsThresholds.congr {c c' : Context} {bytes : List UInt8} (h : HoldsThresholds c bytes)
    (hsame : SameTexts c c') : HoldsThresholds c' bytes := by
  unfold HoldsThresholds
  rw [hsame.signatureThreshold, hsame.anonymityRevocationThreshold]
  exact h

/-- The thresholds are kept for the last screen. -/
theorem DetailsSeen.thresholds (h : DetailsSeen t)
    (hi : t.shared.currentInstruction = some insCredentialDeployment) (hr : t.shared.running = true)
    (ha : a.ins = insCredentialDeployment) (hp1 : a.p1 = p1SignatureThreshold)
    (hs : t.ctx.state = .signatureThreshold) (hk : TakesThresholds a.cdata (entered t a) t') :
    DetailsSeen t' := by
  obtain ⟨all, seen, held, unsigned⟩ :=
    (h.active hr (by rw [hi]; simp)).details (by rw [hs])
  have hno := unsigned (by rw [hs]; decide)
  have htaken := hk.adds _ _ (deployment_taken ha)
  have hscr : screens t'.shared = screens t.shared := by rw [hk.quiet.screens, screens_entered]
  have hat := hk.quiet.atHand _ _ (deployment_atHand ha)
  have hkey : (⟨insCredentialDeployment, a.p1, a.p2, []⟩ : Taken).bringsKey = false := by
    rw [(ofCredential_deployment rfl).1]
    show decide (a.p1 = p1VerificationKey) = false
    rw [hp1]
    decide
  refine h.quiet hi hk.quiet (.of_details (by rw [hk.state]; decide) ⟨hk.keys.trans all, ?_,
    fun c hc hb => ?_, fun _ => ?_⟩) fun hsign => ?_
  · rw [hk.key]
    exact seen.atHand hat hkey hscr
  · rw [htaken] at hc
    rcases List.mem_cons.mp hc with rfl | hc
    · refine ⟨by rw [hk.state]; decide, hk.threshold, ?_⟩
      exact hk.arThreshold
    · -- thresholds of an earlier command have been taken only in a later state
      have hlate := (held c hc hb).1
      rw [hs] at hlate
      exact absurd hlate (Nat.lt_irrefl _)
  · rw [hk.quiet.display]
    exact hno
  · rw [hno] at hsign
    cases hsign

/-- A packet between the thresholds and the last one. -/
theorem DetailsSeen.later (h : DetailsSeen t)
    (hi : t.shared.currentInstruction = some insCredentialDeployment) (hr : t.shared.running = true)
    (ha : a.ins = insCredentialDeployment)
    (hs : State.signatureThreshold.rank < t.ctx.state.rank) (hlast : t.ctx.state ≠ .newOrExisting)
    (hp1 : a.p1 ≠ p1VerificationKey ∧ a.p1 ≠ p1SignatureThreshold)
    (hl : Later a.p2 (entered t a) t') : DetailsSeen t' := by
  obtain ⟨all, seen, held, unsigned⟩ :=
    (h.active hr (by rw [hi]; simp)).details (Nat.le_of_lt hs)
  have hno := unsigned hlast
  obtain ⟨hkey, hthr⟩ := deployment_silent a.p2 [] hp1
  have hscr : screens t'.shared = screens t.shared := by rw [hl.screens, screens_entered]
  have hat := hl.atHand _ _ (deployment_atHand ha)
  refine h.quiet hi hl.toQuiet (.of_details (Nat.le_of_lt hl.rank)
    ⟨hl.texts.numberOfVerificationKeys.trans all, ?_, fun c hc hb => ?_, fun _ => ?_⟩)
    fun hsign => ?_
  · rw [hl.texts.accountVerificationKey]
    exact seen.atHand hat hkey hscr
  · rcases hat.brings hc with ⟨_, hsame⟩ | hc
    · rw [hsame, hthr] at hb
      cases hb
    · exact ⟨hl.rank, (held c hc hb).2.congr hl.texts⟩
  · rw [hl.display]
    exact hno
  · rw [hno] at hsign
    cases hsign

/-- The last packet, which puts the last screen up. -/
theorem DetailsSeen.final (h : DetailsSeen t)
    (hi : t.shared.currentInstruction = some insCredentialDeployment) (hr : t.shared.running = true)
    (ha : a.ins = insCredentialDeployment) (hs : t.ctx.state = .newOrExisting)
    (hp1 : a.p1 ≠ p1VerificationKey ∧ a.p1 ≠ p1SignatureThreshold)
    (hf : FinalScreen (entered t a) t') : DetailsSeen t' := by
  obtain ⟨all, seen, held, _⟩ :=
    (h.active hr (by rw [hi]; simp)).details (by rw [hs]; decide)
  obtain ⟨hkey, hthr⟩ := deployment_silent a.p2 [] hp1
  have hat := deployment_atHand (t := t) ha
  have hstate : t'.ctx.state = .newOrExisting := hf.state.trans hs
  have hall : AllSeen t'.shared := hf.allSeen (screens_entered t a) seen
    (fun b hb hk => (held b hb hk).2) hat hkey hthr
  have hat' := hf.atHand _ _ hat
  obtain ⟨flow, hscr, hdisp, hown, _⟩ := hf.screen
  refine ⟨fun i hi' => ?_, fun _ => ?_, fun _ _ => .of_details (by rw [hstate]; decide)
    ⟨hf.texts.numberOfVerificationKeys.trans all, KeysSeen.but hall.keys _, fun c hc hb => ?_,
      fun hno => absurd hstate hno⟩, fun _ => hall⟩
  · rw [hf.instruction] at hi'
    exact h.instruction i hi'
  · rw [hdisp]
    exact hown
  · rcases hat'.brings hc with ⟨_, hsame⟩ | hc
    · rw [hsame, hthr] at hb
      cases hb
    · refine ⟨by rw [hstate]; decide, (held c hc hb).2.congr hf.texts⟩

/-- A command of a deployment. -/
theorem DetailsSeen.command (h : DetailsSeen t)
    (hi : t.shared.currentInstruction = some insCredentialDeployment) (hr : t.shared.running = true)
    (ha : a.ins = insCredentialDeployment) (hc : ¬ MistakenForUpdate t.ctx a)
    (ht : Takes a.cdata a.p1 a.p2 (entered t a) t') : DetailsSeen t' := by
  cases ht with
  | first hs hp1 hq hs' => exact h.first hi hr ha hs hp1 hq hs'
  | key hp1 hk => exact h.key hi hr ha hp1 hk
  | thresholds hp1 hs hk => exact h.thresholds hi hr ha hp1 hs hk
  | later hs hlast hp1 hl => exact h.later hi hr ha hs hlast hp1 hl
  | back hp1 hs hb hq hs' => exact absurd ⟨ha, hp1, hs, hb.1, hb.2.1, hb.2.2⟩ hc
  | final hs hp1 hf => exact h.final hi hr ha hs hp1 hf

/-- The first command of a deployment. -/
theorem DetailsSeen.begun (ha : a.ins = insCredentialDeployment)
    (hd : offersSign t.shared.display = false)
    (ht : Takes a.cdata a.p1 a.p2
      ⟨{ t.ctx with state := .initial }, (opened t a).shared⟩ t') : DetailsSeen t' := by
  have hat : AtHand ⟨insCredentialDeployment, a.p1, a.p2, []⟩ [] (opened t a).shared :=
    ⟨[], by rw [taken_opened, ha]⟩
  cases ht with
  | first hs hp1 hq hs' =>
    obtain ⟨hkey, hthr⟩ := deployment_silent a.p2 [] hp1
    have hnone : screens t'.shared = [] := hq.screens.trans (screens_opened t a)
    have hno : offersSign t'.shared.display = false := by
      rw [hq.display]
      exact hd
    have hbrings : ∀ c ∈ taken t'.shared, c.bringsKey = false ∧ c.bringsThresholds = false := by
      intro c hc
      rcases (hq.atHand _ _ hat).brings hc with ⟨hk, ht⟩ | hc
      · exact ⟨hk.trans hkey, ht.trans hthr⟩
      · cases hc
    refine ⟨fun i hi => ?_, fun hne => absurd hnone hne, fun _ _ => .of_keys hs' ⟨fun _ => hnone,
      fun hne => absurd hnone hne, fun c hc hk => ?_, fun c hc => (hbrings c hc).2, hno⟩,
      fun hsign => ?_⟩
    · rw [hq.instruction] at hi
      exact (Option.some.inj ((congrArg some ha).symm.trans hi)).symm
    · rw [(hbrings c hc).1] at hk
      cases hk
    · rw [hno] at hsign
      cases hsign
  | key _ hk => cases hk.state
  | thresholds _ hs _ => cases hs
  | later hs _ _ _ => exact absurd hs (Nat.not_lt_zero _)
  | back _ hs _ _ _ => cases hs
  | final hs _ _ => cases hs

/-- A press of a shared step. -/
theorem DetailsSeen.passed (h : DetailsSeen t) (hp : Passed t t') : DetailsSeen t' := by
  have htaken := taken_passed hp
  refine ⟨fun i hi => h.instruction i (hp.instruction i hi), hp.own_screen (fun _ h => .inl h) h.own,
    fun hr hne => ?_, AllSeen.passed hp h.signed⟩
  obtain ⟨hd, hins, hrun, hscr⟩ := hp.goes_on hr hne
  have hphase := h.active hrun (hins ▸ hne)
  constructor
  · rw [hp.ctx]
    intro hs
    obtain ⟨fresh, more, seen, none, unsigned⟩ := hphase.keys hs
    refine ⟨?_, ?_, KeysSeen.congr seen htaken hscr, ?_, ?_⟩
    · rw [hp.ctx, hscr]
      exact fresh
    · rw [hp.ctx, hscr]
      exact more
    · rw [htaken]
      exact none
    · rw [hd]
      exact unsigned
  · rw [hp.ctx]
    intro hs
    obtain ⟨all, seen, held, unsigned⟩ := hphase.details hs
    refine ⟨?_, ?_, ?_, ?_⟩
    · rw [hp.ctx]
      exact all
    · rw [hp.ctx]
      exact seen.congr htaken hscr
    · unfold ThresholdsHeld
      rw [hp.ctx, htaken]
      exact held
    · rw [hp.ctx, hd]
      exact unsigned

/-- Continue below a key. -/
theorem DetailsSeen.next (h : DetailsSeen t) (hr : t.shared.running = true)
    (hi : t.shared.currentInstruction ≠ none) (hs : screens t.shared ≠ [])
    (hlate : t.ctx.numberOfVerificationKeys = 0 →
      t.ctx.state.rank ≤ State.signatureThreshold.rank) :
    DetailsSeen (finish (processNextVerificationKey t)) := by
  have hpassed := h.passed (.reply t [] success)
  by_cases hz : t.ctx.numberOfVerificationKeys = 0
  · -- the last key has come, and nothing after it
    have hphase := h.active hr hi
    have hstate : t.ctx.state = .signatureThreshold := by
      have hle := hlate hz
      by_cases hk : t.ctx.state.rank ≤ State.verificationKey.rank
      · exact absurd hz ((hphase.keys hk).more hs)
      · have heq : t.ctx.state.rank = 3 := Nat.le_antisymm hle (Nat.lt_of_not_le hk)
        cases hst : t.ctx.state <;> rw [hst] at heq <;> first | rfl | cases heq
    rw [processNext_last hz, ← hstate]
    exact hpassed
  · rw [processNext_more hz]
    exact hpassed

end Deployment

end SignCredentialDeployment
end ConcordiumLedger
