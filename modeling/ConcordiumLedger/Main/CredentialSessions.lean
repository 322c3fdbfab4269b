import ConcordiumLedger.Common.Presses
import ConcordiumLedger.Main.App

/-!
# Main.CredentialSessions

Two sessions of the credential deployment that receive the same commands but for `p2`, after any
earlier sessions.

* `KeptApart` — both sessions take the same commands, go through the same states and hash the same
  bytes.
* `Alike`     — the user ends both sessions with a press or neither, and calls no function of
  another instruction on a screen that is left from before.
* `SameUse`   — the two commands of a pair find the shared handler in the same instruction, and a
  press of a screen that is left over takes both sessions on to the threshold or neither.
* `Follows`   — what two such sessions have in common.
* `kept_apart_iff` — under `Alike`, the sessions are kept apart from the update of credentials
  exactly when `SameUse` holds.
-/

namespace ConcordiumLedger

open CMem CProg CProg.Prog Transition

variable {μ : Type}

/-- The first command of a session. -/
def opening (app : App μ) (d : Device μ) (apdu : Apdu) : Option (Device μ) :=
  accepted (dispatch app apdu (receivedCommand d))

/-- The same event, but for `p2`. -/
inductive SameButP2 : Event → Event → Prop
  | command (a : Apdu) (p2 : UInt8) : SameButP2 (.command a) (.command { a with p2 := p2 })
  | press (i : Nat) : SameButP2 (.press i) (.press i)
  | noApdu : SameButP2 .noApdu .noApdu

namespace SignCredentialDeployment

/-! ## What the property says -/

/-- Both sessions are in the same state and have hashed the same bytes. -/
def Agree (m : Member μ Context) (d₁ d₂ : Device μ) : Prop :=
  (m.get d₁.ctx).state = (m.get d₂.ctx).state ∧ d₁.shared.hash = d₂.shared.hash

/-- Both sessions take the same events, go through the same states and hash the same bytes. -/
def KeptApart (app : App μ) (m : Member μ Context) (d₁ d₂ : Device μ) (a b : Apdu)
    (es : List (Event × Event)) : Prop :=
  Option.Rel (fun t₁ t₂ => Agree m t₁ t₂ ∧ Together (lockStep app) (Agree m) t₁ t₂ es)
    (opening app d₁ a) (opening app d₂ b)

/-- The last proof bytes are taken for those of a credential of an update. -/
def Updates (c : Context) (p2 : UInt8) : Prop :=
  p2 = p2CredentialCredential ∧ c.updateCredentialState = .credential ∧
    c.credentialDeploymentCount > 0

instance (c : Context) (p2 : UInt8) : Decidable (Updates c p2) :=
  inferInstanceAs (Decidable (_ ∧ _ ∧ _))

/-- The length of the proofs is hashed for both commands or for neither, and the last proof bytes
are taken for those of a deployment in both, or for those of an update with as many more
credentials to come. -/
def SameCommand (c₁ c₂ : Context) (a b : Apdu) : Prop :=
  (a.p1 = p1LengthOfProofs → (a.p2 = p2CredentialCredential ↔ b.p2 = p2CredentialCredential)) ∧
  (a.p1 = p1Proofs → c₁.proofLength.toNat ≤ maxCdataLength →
    (Updates c₁ a.p2 ↔ Updates c₂ b.p2) ∧
    (Updates c₁ a.p2 → (c₁.credentialDeploymentCount = 1 ↔ c₂.credentialDeploymentCount = 1)))

/-- The functions that a screen of the session calls. -/
def Own (cb : Callback) : Prop := cb.isShared = true ∨ cb = .processNextVerificationKey

/-- The function ends the session. -/
def Ends (cb : Callback) : Prop :=
  cb.isShared = true ∧ cb ≠ .none ∧ cb ≠ .sendSuccessNoIdle

/-- The function takes the session on to the signature threshold. -/
def Advances (c : Context) (cb : Callback) : Prop :=
  cb = .processNextVerificationKey ∧ c.numberOfVerificationKeys = 0 ∧ c.state ≠ .signatureThreshold

/-- On screens that are left from before, a press ends both sessions or neither, and calls no
function of another instruction. -/
def Alike (d₁ d₂ : Device μ) : Event → Event → Prop
  | .press i, .press j => screens d₁.shared = [] ∧ screens d₂.shared = [] →
      (Own (d₁.shared.pressed i) ∧ Own (d₂.shared.pressed j)) ∧
        (Ends (d₁.shared.pressed i) ↔ Ends (d₂.shared.pressed j))
  | _, _ => True

def SameUse (m : Member μ Context) (d₁ d₂ : Device μ) : Event → Event → Prop
  | .command a, .command b => SameCommand (m.get d₁.ctx) (m.get d₂.ctx) a b
  | .press i, .press j => Advances (m.get d₁.ctx) (d₁.shared.pressed i) ↔
      Advances (m.get d₂.ctx) (d₂.shared.pressed j)
  | _, _ => True

/-! ## What the sessions have in common -/

/-- The display of both sessions: none of their own, or a flow with the same callbacks. -/
def SameFlow (s₁ s₂ : Shared) : Prop :=
  screens s₁ = [] ∧ screens s₂ = [] ∨
    (screens s₁ ≠ [] ∧ screens s₂ ≠ []) ∧
      s₁.display.map Step.callback = s₂.display.map Step.callback ∧
      ∀ st ∈ s₁.display, Own st.callback

structure SameShared (s₁ s₂ : Shared) : Prop where
  hash : s₁.hash = s₂.hash
  instruction : s₁.currentInstruction = some insCredentialDeployment ∧
    s₂.currentInstruction = some insCredentialDeployment
  running : s₁.running = s₂.running
  owed : s₁.replyOwed = s₂.replyOwed
  flow : SameFlow s₁ s₂

/-- What is equal of the contexts. Each counter is, in the states that read it. -/
structure SameContext (c₁ c₂ : Context) : Prop where
  state : c₁.state = c₂.state
  showIntro : c₁.showIntro = c₂.showIntro
  revokers : c₁.state = .arIdentity →
    c₁.anonymityRevocationListLength = c₂.anonymityRevocationListLength
  attributes : c₁.state = .attributeTag ∨ c₁.state = .attributeValue →
    c₁.attributeListLength = c₂.attributeListLength
  value : c₁.state = .attributeValue → c₁.attributeValueLength = c₂.attributeValueLength
  proofs : c₁.state = .proofs → c₁.proofLength = c₂.proofLength

/-- Two sessions that go on. The number of keys is a leftover until the session has set it, and
no screen is up before that. -/
structure Follows (t₁ t₂ : Device Context) : Prop where
  shared : SameShared t₁.shared t₂.shared
  context : SameContext t₁.ctx t₂.ctx
  keys : t₁.ctx.numberOfVerificationKeys = t₂.ctx.numberOfVerificationKeys ∨
    t₁.ctx.state = .verificationKeysLength ∧ screens t₁.shared = []

/-- Two sessions between two events: a command without a screen has been answered. -/
structure Between (t₁ t₂ : Device Context) : Prop extends Follows t₁ t₂ where
  answered : screens t₁.shared = [] → t₁.shared.replyOwed = false

/-- The function that handles the first command. -/
def initialPacket (buf : Ptr) : Fw Context PUnit := do
  let _ ← parseKeyDerivationPath buf
  cxSha256Init
  Fw.modifyCtx fun c => { c with state := .verificationKeysLength, showIntro := true }
  sendSuccessNoIdle

/-- The function that handles the number of keys. -/
def keysLength (buf : Ptr) : Fw Context PUnit := do
  Fw.modifyCtx fun c => { c with numberOfVerificationKeys := buf 0 }
  updateHash buf 1
  setState .verificationKey
  sendSuccessNoIdle

namespace SameShared

variable {s₁ s₂ : Shared}

theorem updateHash (h : SameShared s₁ s₂) (bytes : List UInt8) :
    SameShared (s₁.updateHash bytes) (s₂.updateHash bytes) where
  hash := congrArg (· ++ bytes) h.hash
  instruction := h.instruction
  running := h.running
  owed := h.owed
  flow := by
    unfold SameFlow
    rw [screens_updateHash, screens_updateHash]
    exact h.flow

theorem reply (h : SameShared s₁ s₂) (data : List UInt8) (sw : UInt16) :
    SameShared (s₁.reply data sw) (s₂.reply data sw) where
  hash := h.hash
  instruction := h.instruction
  running := h.running
  owed := rfl
  flow := by
    unfold SameFlow
    rw [screens_reply, screens_reply]
    exact h.flow

theorem loadPath (h : SameShared s₁ s₂) (buf : Ptr) :
    SameShared (s₁.loadPath buf) (s₂.loadPath buf) where
  hash := h.hash
  instruction := h.instruction
  running := h.running
  owed := h.owed
  flow := by
    unfold SameFlow
    rw [screens_loadPath, screens_loadPath]
    exact h.flow

theorem sha256Init (h : SameShared s₁ s₂) : SameShared s₁.sha256Init s₂.sha256Init where
  hash := rfl
  instruction := h.instruction
  running := h.running
  owed := h.owed
  flow := by
    unfold SameFlow
    rw [screens_sha256Init, screens_sha256Init]
    exact h.flow

theorem wait (h : SameShared s₁ s₂) :
    SameShared { s₁ with asynchReply := true } { s₂ with asynchReply := true } :=
  ⟨h.hash, h.instruction, h.running, h.owed, h.flow⟩

theorem uxFlowInit (h : SameShared s₁ s₂) {f g : List Step}
    (hcb : f.map Step.callback = g.map Step.callback) (hown : ∀ st ∈ f, Own st.callback) :
    SameShared (s₁.uxFlowInit f) (s₂.uxFlowInit g) where
  hash := h.hash
  instruction := h.instruction
  running := h.running
  owed := h.owed
  flow := .inr ⟨⟨by simp, by simp⟩, hcb, hown⟩

end SameShared

/-- The states in which a counter or a length is read. -/
def State.counting : State → Bool
  | .arIdentity | .attributeTag | .attributeValue | .proofs => true
  | _ => false

theorem SameContext.of_state {c₁ c₂ : Context} (hs : c₁.state = c₂.state)
    (hi : c₁.showIntro = c₂.showIntro) (hn : c₁.state.counting = false) : SameContext c₁ c₂ where
  state := hs
  showIntro := hi
  revokers := by intro h; rw [h] at hn; cases hn
  attributes := by rintro (h | h) <;> rw [h] at hn <;> cases hn
  value := by intro h; rw [h] at hn; cases hn
  proofs := by intro h; rw [h] at hn; cases hn

namespace Follows

variable {t₁ t₂ : Device Context}

theorem keys_eq (h : Follows t₁ t₂) (hs : t₁.ctx.state ≠ .verificationKeysLength) :
    t₁.ctx.numberOfVerificationKeys = t₂.ctx.numberOfVerificationKeys := by
  rcases h.keys with hk | ⟨hk, -⟩
  · exact hk
  · exact absurd hk hs

end Follows

theorem Between.wait {t₁ t₂ : Device Context} (h : Between t₁ t₂) :
    Between ⟨t₁.ctx, { t₁.shared with asynchReply := true }⟩
      ⟨t₂.ctx, { t₂.shared with asynchReply := true }⟩ :=
  ⟨⟨h.shared.wait, h.context, h.keys⟩, h.answered⟩

/-! ## Texts -/

theorem toPaginatedHex_isOk {n : Nat} (bytes : List UInt8) (b c : Buffer n) :
    (toPaginatedHex bytes b).isOk = (toPaginatedHex bytes c).isOk := by
  unfold toPaginatedHex
  simp only
  split <;> rfl

theorem arThresholdText_isOk (threshold : UInt8) (len : UInt16) (b c : Buffer 13) :
    (arThresholdText threshold len b).isOk = (arThresholdText threshold len c).isOk := by
  unfold arThresholdText
  cases numberToText 13 threshold.toUInt64 with
  | error e => rfl
  | ok number =>
    show Except.isOk (bin2dec _ _ >>= _) = Except.isOk (bin2dec _ _ >>= _)
    cases bin2dec (subSize 13 (number.length + 8)) len.toUInt64 <;> rfl

theorem addressText_isOk (sdk : Sdk) (address : List UInt8) (b c : Buffer 57) :
    (addressText sdk address b).isOk = (addressText sdk address c).isOk := by
  unfold addressText
  cases base58checkEncode sdk.sha256 address 57 with
  | error e => rfl
  | ok text => cases text <;> rfl

/-! ## The commands of a credential -/

section Commands

variable {t₁ t₂ : Device Context}

theorem initialPacket_follows (h : Follows t₁ t₂) (hs : t₁.ctx.state = .initial) (buf : Ptr) :
    wp₂ (initialPacket buf) (initialPacket buf) (fun _ _ => Between) t₁ t₂ := by
  have hkeys := h.keys_eq (by rw [hs]; simp)
  refine wp₂_parseKeyDerivationPath buf ?_
  simp only [wp₂_cxSha256Init, wp₂_modifyCtx, wp₂_sendSuccessNoIdle]
  exact {
    shared := (h.shared.loadPath buf).sha256Init.reply _ _
    context := .of_state rfl rfl rfl
    keys := .inl hkeys
    answered := fun _ => rfl }

theorem keysLength_follows (h : Follows t₁ t₂) (buf : Ptr) :
    wp₂ (keysLength buf) (keysLength buf) (fun _ _ => Between) t₁ t₂ := by
  simp only [keysLength, setState, wp₂_modifyCtx, wp₂_updateHash, wp₂_sendSuccessNoIdle]
  exact {
    shared := (h.shared.updateHash _).reply _ _
    context := .of_state rfl h.context.showIntro rfl
    keys := .inl rfl
    answered := fun _ => rfl }

theorem withIntro_callbacks {f g : List Step} {b c : Bool} (hbc : b = c)
    (h : f.map Step.callback = g.map Step.callback) :
    (withIntro b f).map Step.callback = (withIntro c g).map Step.callback := by
  subst hbc
  cases b
  · exact h
  · exact congrArg (List.cons _) h

theorem withIntro_own {f : List Step} (b : Bool) (h : ∀ st ∈ f, Own st.callback) :
    ∀ st ∈ withIntro b f, Own st.callback := by
  cases b with
  | false => exact h
  | true =>
    intro st hst
    rcases List.mem_cons.mp hst with rfl | hst
    · exact .inl rfl
    · exact h st hst

theorem verificationKey_follows (h : Follows t₁ t₂) (buf : Ptr) :
    wp₂ (handleVerificationKey buf) (handleVerificationKey buf) (fun _ _ => Between) t₁ t₂ := by
  have hst := h.context.state
  unfold handleVerificationKey parseVerificationKey
  rw [wp₂_getCtx]
  by_cases hs : t₁.ctx.state = .verificationKey
  · have hkeys := h.keys_eq (by rw [hs]; simp)
    refine wp₂_throwIf (by rw [hst, hkeys]) fun _ => ?_
    refine wp₂_bind ?_
    simp only [wp₂_updateHash, wp₂_getCtx]
    refine wp₂_eval (toPaginatedHex_isOk _ _ _) fun hex hex' _ _ => ?_
    rw [wp₂_lastModifyCtx]
    have hshared := ((h.shared.updateHash (buf.slice 1)).updateHash
      ((buf.advance 1).slice 1)).updateHash (((buf.advance 1).advance 1).slice 32)
    refine wp₂_ite (by simp only [hkeys]) (fun _ => ?_) fun _ => ?_
    · rw [wp₂_uxFlowInit_bind, wp₂_lastModifyCtx]
      exact {
        shared := hshared.uxFlowInit (withIntro_callbacks h.context.showIntro rfl)
          (withIntro_own _ (by simp [uxVerificationKeyFlow, uxPublicKey, Own, Callback.isShared]))
        context := .of_state hst rfl (by rw [hs]; rfl)
        keys := .inl (congrArg (· - 1) hkeys)
        answered := fun hs => absurd hs (by simp) }
    · rw [setState, wp₂_modifyCtx, wp₂_sendSuccessNoIdle]
      exact {
        shared := hshared.reply _ _
        context := .of_state rfl h.context.showIntro rfl
        keys := .inl (congrArg (· - 1) hkeys)
        answered := fun _ => rfl }
  · refine wp₂_throwIf (by rw [← hst]; simp [hs]) fun hc => ?_
    exact absurd (not_not.mp hc).2 hs

theorem signatureThreshold_follows (h : Follows t₁ t₂) (hs : t₁.ctx.state = .signatureThreshold)
    (buf : Ptr) :
    wp₂ (handleSignatureThreshold buf) (handleSignatureThreshold buf) (fun _ _ => Between)
      t₁ t₂ := by
  have hkeys := h.keys_eq (by rw [hs]; simp)
  unfold handleSignatureThreshold
  rw [wp₂_getCtx]
  refine wp₂_throwIf (by rw [hkeys]) fun _ => ?_
  refine wp₂_eval rfl fun text text' _ _ => ?_
  simp only [wp₂_modifyCtx, wp₂_updateHash]
  refine wp₂_eval (arThresholdText_isOk _ _ _ _) fun ar ar' _ _ => ?_
  simp only [setState, wp₂_modifyCtx, wp₂_sendSuccessNoIdle]
  exact {
    shared := (((((h.shared.updateHash _).updateHash _).updateHash _).updateHash _).updateHash
      _).reply _ _
    context := ⟨rfl, h.context.showIntro, fun _ => rfl, by simp, by simp, by simp⟩
    keys := .inl hkeys
    answered := fun _ => rfl }

theorem arIdentity_follows (h : Follows t₁ t₂) (hs : t₁.ctx.state = .arIdentity) (buf : Ptr) :
    wp₂ (handleArIdentity buf) (handleArIdentity buf) (fun _ _ => Between) t₁ t₂ := by
  have hkeys := h.keys_eq (by rw [hs]; simp)
  have har := h.context.revokers hs
  unfold handleArIdentity
  rw [wp₂_getCtx]
  refine wp₂_throwIf (by rw [har]) fun _ => ?_
  simp only [wp₂_updateHash]
  have hshared := ((h.shared.updateHash (buf.slice 4)).updateHash
    ((buf.advance 4).slice 96)).reply [] success
  refine wp₂_bind (wp₂_when (by rw [har]) (fun _ => ?_) fun _ => ?_)
  · exact {
      shared := hshared
      context := .of_state rfl h.context.showIntro rfl
      keys := .inl hkeys
      answered := fun _ => rfl }
  · exact {
      shared := hshared
      context := ⟨h.context.state, h.context.showIntro, fun _ => congrArg (· - 1) har,
        by simp [hs], by simp [hs], by simp [hs]⟩
      keys := .inl hkeys
      answered := fun _ => rfl }

theorem credentialDates_follows (h : Follows t₁ t₂) (hs : t₁.ctx.state = .credentialDates)
    (buf : Ptr) :
    wp₂ (handleCredentialDates buf) (handleCredentialDates buf) (fun _ _ => Between) t₁ t₂ := by
  have hkeys := h.keys_eq (by rw [hs]; simp)
  simp only [handleCredentialDates, setState, wp₂_updateHash, wp₂_modifyCtx,
    wp₂_sendSuccessNoIdle]
  refine ⟨⟨((h.shared.updateHash _).updateHash _).reply _ _, ?_, .inl hkeys⟩, fun _ => rfl⟩
  split
  · exact .of_state rfl h.context.showIntro rfl
  · exact ⟨rfl, h.context.showIntro, by simp, fun _ => rfl, by simp, by simp⟩

theorem attributeTag_follows (h : Follows t₁ t₂) (hs : t₁.ctx.state = .attributeTag) (buf : Ptr) :
    wp₂ (handleAttributeTag buf) (handleAttributeTag buf) (fun _ _ => Between) t₁ t₂ := by
  have hkeys := h.keys_eq (by rw [hs]; simp)
  have hlist := h.context.attributes (.inl hs)
  unfold handleAttributeTag
  rw [wp₂_getCtx]
  refine wp₂_throwIf (by rw [hlist]) fun _ => ?_
  simp only [setState, wp₂_updateHash, wp₂_modifyCtx, wp₂_sendSuccessNoIdle]
  exact {
    shared := ((h.shared.updateHash _).updateHash _).reply _ _
    context := ⟨rfl, h.context.showIntro, by simp, fun _ => hlist, fun _ => rfl, by simp⟩
    keys := .inl hkeys
    answered := fun _ => rfl }

theorem attributeValue_follows (h : Follows t₁ t₂) (hs : t₁.ctx.state = .attributeValue)
    (buf : Ptr) :
    wp₂ (handleAttributeValue buf) (handleAttributeValue buf) (fun _ _ => Between) t₁ t₂ := by
  have hkeys := h.keys_eq (by rw [hs]; simp)
  have hlist := h.context.attributes (.inr hs)
  have hvalue := h.context.value hs
  simp only [handleAttributeValue, setState, wp₂_getCtx, wp₂_updateHash, wp₂_modifyCtx,
    wp₂_sendSuccessNoIdle, hlist, hvalue]
  refine ⟨⟨(h.shared.updateHash _).reply _ _, ?_, .inl hkeys⟩, fun _ => rfl⟩
  split
  · exact .of_state rfl h.context.showIntro rfl
  · exact ⟨rfl, h.context.showIntro, by simp, fun _ => rfl, by simp, by simp⟩

theorem newOrExisting_follows (h : Follows t₁ t₂) (hs : t₁.ctx.state = .newOrExisting) (sdk : Sdk)
    (buf : Ptr) :
    wp₂ (handleNewOrExisting sdk buf) (handleNewOrExisting sdk buf) (fun _ _ => Between)
      t₁ t₂ := by
  have hkeys := h.keys_eq (by rw [hs]; simp)
  have hcontext := SameContext.of_state h.context.state h.context.showIntro (by rw [hs]; rfl)
  unfold handleNewOrExisting
  rw [wp₂_updateHash]
  refine wp₂_ite Iff.rfl (fun _ => ?_) fun _ => wp₂_ite Iff.rfl (fun _ => ?_) fun _ => trivial
  · rw [wp₂_updateHash, wp₂_uxFlowInit]
    refine ⟨⟨((h.shared.updateHash _).updateHash _).uxFlowInit
      (withIntro_callbacks h.context.showIntro rfl) (withIntro_own _ ?_), hcontext, .inl hkeys⟩,
      fun hs => absurd hs (by simp)⟩
    simp [uxSignCredentialDeploymentNew, keyAndThresholds, signDetails, uxPublicKey, Own,
      Callback.isShared]
  · rw [wp₂_getCtx]
    refine wp₂_eval (addressText_isOk _ _ _ _) fun text text' _ _ => ?_
    rw [wp₂_modifyCtx, wp₂_updateHash, wp₂_uxFlowInit]
    refine ⟨⟨((h.shared.updateHash _).updateHash _).uxFlowInit
      (withIntro_callbacks h.context.showIntro rfl) (withIntro_own _ ?_), ?_, .inl hkeys⟩,
      fun hs => absurd hs (by simp)⟩
    · simp [uxSignCredentialDeploymentExisting, keyAndThresholds, signDetails, uxPublicKey, Own,
        Callback.isShared]
    · exact .of_state h.context.state h.context.showIntro (by rw [hs]; rfl)

/-! ## The commands that read `p2` -/

/-- What a pair of commands does: the sessions agree afterwards if both find the handler in the
same instruction, and then they go on together. -/
def Result (t₁ t₂ : Device Context) (a b : Apdu) (_ _ : PUnit.{1}) (t₁' t₂' : Device Context) : Prop :=
  (t₁'.ctx.state = t₂'.ctx.state ∧ t₁'.shared.hash = t₂'.shared.hash ↔
      SameCommand t₁.ctx t₂.ctx a b) ∧
    (SameCommand t₁.ctx t₂.ctx a b → Between t₁' t₂')

theorem Follows.agree (h : Follows t₁ t₂) :
    t₁.ctx.state = t₂.ctx.state ∧ t₁.shared.hash = t₂.shared.hash :=
  ⟨h.context.state, h.shared.hash⟩

theorem result_of_follows {x y : Fw Context PUnit.{1}} {a b : Apdu}
    (h : wp₂ x y (fun _ _ => Between) t₁ t₂) (hsame : SameCommand t₁.ctx t₂.ctx a b) :
    wp₂ x y (Result t₁ t₂ a b) t₁ t₂ :=
  wp₂_mono h fun _ _ _ _ hf => ⟨⟨fun _ => hsame, fun _ => hf.agree⟩, fun _ => hf⟩

theorem sameCommand_of_p1 {c₁ c₂ : Context} {a b : Apdu} (hl : a.p1 ≠ p1LengthOfProofs)
    (hp : a.p1 ≠ p1Proofs) : SameCommand c₁ c₂ a b :=
  ⟨fun h => absurd h hl, fun h => absurd h hp⟩

theorem lengthOfProofs_result (h : Follows t₁ t₂) (hs : t₁.ctx.state = .lengthOfProofs)
    {a b : Apdu} (hp1 : a.p1 = p1LengthOfProofs) (buf : Ptr) :
    wp₂ (handleLengthOfProofs buf a.p2) (handleLengthOfProofs buf b.p2) (Result t₁ t₂ a b)
      t₁ t₂ := by
  have hkeys := h.keys_eq (by rw [hs]; simp)
  have hsame : SameCommand t₁.ctx t₂.ctx a b ↔
      (a.p2 = p2CredentialCredential ↔ b.p2 = p2CredentialCredential) := by
    refine ⟨fun hc => hc.1 hp1, fun hc => ⟨fun _ => hc, fun hp => ?_⟩⟩
    rw [hp1] at hp
    exact absurd hp (by decide)
  by_cases hc : a.p2 = p2CredentialCredential ↔ b.p2 = p2CredentialCredential
  · refine result_of_follows ?_ (hsame.mpr hc)
    unfold handleLengthOfProofs
    rw [wp₂_modifyCtx]
    refine wp₂_bind (wp₂_when hc (fun _ => ?_) fun _ => ?_)
    · exact {
        shared := (h.shared.updateHash (buf.slice 4)).reply _ _
        context := ⟨rfl, h.context.showIntro, by simp, by simp, by simp, fun _ => rfl⟩
        keys := .inl hkeys
        answered := fun _ => rfl }
    · exact {
        shared := h.shared.reply _ _
        context := ⟨rfl, h.context.showIntro, by simp, by simp, by simp, fun _ => rfl⟩
        keys := .inl hkeys
        answered := fun _ => rfl }
  · -- the length is hashed in one session only
    have hne : t₁.shared.hash ++ buf.slice 4 ≠ t₁.shared.hash := by
      intro heq
      have hlen := congrArg List.length heq
      rw [List.length_append, Ptr.slice_length] at hlen
      omega
    have hresult : ∀ {t₁' t₂' : Device Context}, t₁'.shared.hash ≠ t₂'.shared.hash →
        Result t₁ t₂ a b ⟨⟩ ⟨⟩ t₁' t₂' := fun hh =>
      ⟨⟨fun hag => absurd hag.2 hh, fun hco => absurd (hsame.mp hco) hc⟩,
        fun hco => absurd (hsame.mp hco) hc⟩
    unfold handleLengthOfProofs Fw.when
    by_cases ha : a.p2 = p2CredentialCredential
    · have hb : ¬ b.p2 = p2CredentialCredential := fun hb => hc ⟨fun _ => hb, fun _ => ha⟩
      rw [if_pos ha, if_neg hb]
      refine hresult ?_
      show t₁.shared.hash ++ buf.slice 4 ≠ t₂.shared.hash
      rw [← h.shared.hash]
      exact hne
    · have hb : b.p2 = p2CredentialCredential := by
        by_contra hb
        exact hc ⟨fun hx => absurd hx ha, fun hx => absurd hx hb⟩
      rw [if_neg ha, if_pos hb]
      refine hresult ?_
      show t₁.shared.hash ≠ t₂.shared.hash ++ buf.slice 4
      rw [← h.shared.hash]
      exact hne.symm

theorem count_sub (n : UInt8) : n - 1 = 0 ↔ n = 1 := by
  constructor
  · intro h0
    rw [← UInt8.sub_add_cancel n 1, h0]
    rfl
  · intro h1
    rw [h1]
    rfl

theorem finishCredential_update {c : Context} {p2 : UInt8} (h : Updates c p2) :
    (c.finishCredential p2).state =
      if c.credentialDeploymentCount = 1 then .stale else .verificationKeysLength := by
  unfold Updates at h
  unfold Context.finishCredential
  rw [if_pos h]
  simp only [count_sub]
  split <;> rfl

theorem finishCredential_deployment {c : Context} {p2 : UInt8} (h : ¬ Updates c p2) :
    (c.finishCredential p2).state = .newOrExisting := by
  unfold Updates at h
  unfold Context.finishCredential
  rw [if_neg h]

theorem finishCredential_keys (c : Context) (p2 : UInt8) :
    (c.finishCredential p2).numberOfVerificationKeys = c.numberOfVerificationKeys ∧
      (c.finishCredential p2).showIntro = c.showIntro := by
  unfold Context.finishCredential
  split
  · split <;> exact ⟨rfl, rfl⟩
  · exact ⟨rfl, rfl⟩

/-- The last proof bytes lead to the same state exactly when they are taken for those of the same
instruction, with as many more credentials to come. -/
theorem finishCredential_state_iff (c₁ c₂ : Context) (p2 q2 : UInt8) :
    (c₁.finishCredential p2).state = (c₂.finishCredential q2).state ↔
      (Updates c₁ p2 ↔ Updates c₂ q2) ∧ (Updates c₁ p2 →
        (c₁.credentialDeploymentCount = 1 ↔ c₂.credentialDeploymentCount = 1)) := by
  by_cases h₁ : Updates c₁ p2
  · rw [finishCredential_update h₁]
    by_cases h₂ : Updates c₂ q2
    · rw [finishCredential_update h₂]
      simp only [h₁, h₂, true_implies, true_and]
      by_cases hc₁ : c₁.credentialDeploymentCount = 1 <;>
        by_cases hc₂ : c₂.credentialDeploymentCount = 1 <;> simp [hc₁, hc₂]
    · rw [finishCredential_deployment h₂]
      simp only [h₁, h₂, iff_false]
      split <;> simp
  · rw [finishCredential_deployment h₁]
    by_cases h₂ : Updates c₂ q2
    · rw [finishCredential_update h₂]
      simp only [h₁, h₂, iff_true, false_and, iff_false]
      split <;> simp
    · rw [finishCredential_deployment h₂]
      simp [h₁, h₂]

theorem finishCredential_counting (c : Context) (p2 : UInt8) :
    (c.finishCredential p2).state.counting = false := by
  by_cases h : Updates c p2
  · rw [finishCredential_update h]
    split <;> rfl
  · rw [finishCredential_deployment h]
    rfl

theorem proofs_result (h : Follows t₁ t₂) (hs : t₁.ctx.state = .proofs) {a b : Apdu}
    (hp1 : a.p1 = p1Proofs) (buf : Ptr) :
    wp₂ (handleProofs buf a.p2) (handleProofs buf b.p2) (Result t₁ t₂ a b) t₁ t₂ := by
  have hkeys := h.keys_eq (by rw [hs]; simp)
  have hlen := h.context.proofs hs
  have hl : a.p1 ≠ p1LengthOfProofs := by
    rw [hp1]
    decide
  unfold handleProofs
  rw [wp₂_getCtx]
  refine wp₂_ite (by rw [hlen]) (fun hgt => ?_) fun hle => ?_
  · refine result_of_follows ?_ ⟨fun hx => absurd hx hl, fun _ hx => absurd hgt (by omega)⟩
    rw [wp₂_updateHash, wp₂_modifyCtx, wp₂_sendSuccessNoIdle]
    exact {
      shared := (h.shared.updateHash _).reply _ _
      context := ⟨h.context.state, h.context.showIntro, by simp [hs], by simp [hs], by simp [hs],
        fun _ => congrArg (· - 255) hlen⟩
      keys := .inl hkeys
      answered := fun _ => rfl }
  · rw [wp₂_updateHash, wp₂_modifyCtx, wp₂_sendSuccessNoIdle, hlen]
    have hshared := (h.shared.updateHash (buf.slice t₂.ctx.proofLength.toNat)).reply [] success
    have hsame : SameCommand t₁.ctx t₂.ctx a b ↔
        (t₁.ctx.finishCredential a.p2).state = (t₂.ctx.finishCredential b.p2).state := by
      rw [finishCredential_state_iff]
      exact ⟨fun hc => hc.2 hp1 (by omega), fun hc => ⟨fun hx => absurd hx hl, fun _ _ => hc⟩⟩
    obtain ⟨hk₁, hi₁⟩ := finishCredential_keys t₁.ctx a.p2
    obtain ⟨hk₂, hi₂⟩ := finishCredential_keys t₂.ctx b.p2
    refine ⟨?_, fun hc => ?_⟩
    · rw [hsame]
      exact ⟨fun hag => hag.1, fun hst => ⟨hst, hshared.hash⟩⟩
    · exact {
        shared := hshared
        context := .of_state (hsame.mp hc) (hi₁.trans (h.context.showIntro.trans hi₂.symm))
          (finishCredential_counting _ _)
        keys := .inl (hk₁.trans (hkeys.trans hk₂.symm))
        answered := fun _ => rfl }

/-- A pair of commands, as far as both are taken. -/
theorem handler_result (h : Follows t₁ t₂) (sdk : Sdk) (a : Apdu) (p2 : UInt8) :
    wp₂ (handleSignCredentialDeployment sdk a.cdata a.p1 a.p2 false)
      (handleSignCredentialDeployment sdk a.cdata a.p1 p2 false)
      (Result t₁ t₂ a { a with p2 := p2 }) t₁ t₂ := by
  have hst := h.context.state
  unfold handleSignCredentialDeployment
  refine wp₂_bind (wp₂_when Iff.rfl (fun hf => by cases hf) fun _ => ?_)
  rw [wp₂_getCtx]
  refine wp₂_bind (wp₂_mono (Q := Result t₁ t₂ a { a with p2 := p2 }) ?_ fun _ _ s t hr => ?_)
  · refine wp₂_ite (by rw [hst]) (fun hc => ?_) fun _ => ?_
    · exact result_of_follows (initialPacket_follows h hc.2 _)
        (sameCommand_of_p1 (by rw [hc.1]; decide) (by rw [hc.1]; decide))
    refine wp₂_ite (by rw [hst]) (fun hc => ?_) fun _ => ?_
    · exact result_of_follows (keysLength_follows h _)
        (sameCommand_of_p1 (by rw [hc.1]; decide) (by rw [hc.1]; decide))
    refine wp₂_ite Iff.rfl (fun hc => ?_) fun _ => ?_
    · exact result_of_follows (verificationKey_follows h _)
        (sameCommand_of_p1 (by rw [hc]; decide) (by rw [hc]; decide))
    refine wp₂_ite (by rw [hst]) (fun hc => ?_) fun _ => ?_
    · exact result_of_follows (signatureThreshold_follows h hc.2 _)
        (sameCommand_of_p1 (by rw [hc.1]; decide) (by rw [hc.1]; decide))
    refine wp₂_ite (by rw [hst]) (fun hc => ?_) fun _ => ?_
    · exact result_of_follows (arIdentity_follows h hc.2 _)
        (sameCommand_of_p1 (by rw [hc.1]; decide) (by rw [hc.1]; decide))
    refine wp₂_ite (by rw [hst]) (fun hc => ?_) fun _ => ?_
    · exact result_of_follows (credentialDates_follows h hc.2 _)
        (sameCommand_of_p1 (by rw [hc.1]; decide) (by rw [hc.1]; decide))
    refine wp₂_ite (by rw [hst]) (fun hc => ?_) fun _ => ?_
    · exact result_of_follows (attributeTag_follows h hc.2 _)
        (sameCommand_of_p1 (by rw [hc.1]; decide) (by rw [hc.1]; decide))
    refine wp₂_ite (by rw [hst]) (fun hc => ?_) fun _ => ?_
    · exact result_of_follows (attributeValue_follows h hc.2 _)
        (sameCommand_of_p1 (by rw [hc.1]; decide) (by rw [hc.1]; decide))
    refine wp₂_ite (by rw [hst]) (fun hc => ?_) fun _ => ?_
    · exact lengthOfProofs_result h hc.2 (b := { a with p2 := p2 }) hc.1 _
    refine wp₂_ite (by rw [hst]) (fun hc => ?_) fun _ => ?_
    · exact proofs_result h hc.2 (b := { a with p2 := p2 }) hc.1 _
    refine wp₂_ite (by rw [hst]) (fun hc => ?_) fun _ => trivial
    exact result_of_follows (newOrExisting_follows h hc.2 sdk _)
      (sameCommand_of_p1 (by rw [hc.1]; decide) (by rw [hc.1]; decide))
  · exact ⟨hr.1, fun hc => (hr.2 hc).wait⟩

end Commands

/-! ## The first command -/

/-- Two states in which the first command of a session is handled. -/
structure Opened (s₁ s₂ : Shared) : Prop where
  instruction : s₁.currentInstruction = some insCredentialDeployment ∧
    s₂.currentInstruction = some insCredentialDeployment
  running : s₁.running = s₂.running
  screens : screens s₁ = [] ∧ screens s₂ = []

section First

variable {t₁ t₂ : Device Context}

theorem initialPacket_opened {c₁ c₂ : Context} {s₁ s₂ : Shared} (h : Opened s₁ s₂) (buf : Ptr) :
    wp₂ (initialPacket buf) (initialPacket buf) (fun _ _ => Between) ⟨c₁, s₁⟩ ⟨c₂, s₂⟩ := by
  refine wp₂_parseKeyDerivationPath buf ?_
  simp only [wp₂_cxSha256Init, wp₂_modifyCtx, wp₂_sendSuccessNoIdle]
  have hs₁ : screens ((s₁.loadPath buf).sha256Init.reply [] success) = [] := by
    rw [screens_reply, screens_sha256Init, screens_loadPath, h.screens.1]
  have hs₂ : screens ((s₂.loadPath buf).sha256Init.reply [] success) = [] := by
    rw [screens_reply, screens_sha256Init, screens_loadPath, h.screens.2]
  exact {
    shared := ⟨rfl, h.instruction, h.running, rfl, .inl ⟨hs₁, hs₂⟩⟩
    context := .of_state rfl rfl rfl
    keys := .inr ⟨rfl, hs₁⟩
    answered := fun _ => rfl }

/-- Whatever earlier sessions have left, the first command brings both sessions to the same point. -/
theorem opening_follows (h : Opened t₁.shared t₂.shared) (sdk : Sdk) (a : Apdu) (p2 : UInt8) :
    wp₂ (handleSignCredentialDeployment sdk a.cdata a.p1 a.p2 true)
      (handleSignCredentialDeployment sdk a.cdata a.p1 p2 true) (fun _ _ => Between) t₁ t₂ := by
  unfold handleSignCredentialDeployment
  refine wp₂_bind (wp₂_when Iff.rfl (fun _ => ?_) fun hf => absurd rfl hf)
  rw [setState, wp₂_lastModifyCtx, wp₂_getCtx]
  refine wp₂_bind (wp₂_mono (Q := fun _ _ => Between) ?_ fun _ _ _ _ hf => hf.wait)
  refine wp₂_ite Iff.rfl (fun _ => ?_) fun _ => ?_
  · exact initialPacket_opened h _
  -- every other packet needs another state
  refine wp₂_ite Iff.rfl (fun hc => by cases hc.2) fun _ => ?_
  refine wp₂_ite Iff.rfl (fun _ => ?_) fun _ => ?_
  · unfold handleVerificationKey
    rw [wp₂_getCtx]
    refine wp₂_throwIf (by simp) fun hc => ?_
    cases (not_not.mp hc).2
  refine wp₂_ite Iff.rfl (fun hc => by cases hc.2) fun _ => ?_
  refine wp₂_ite Iff.rfl (fun hc => by cases hc.2) fun _ => ?_
  refine wp₂_ite Iff.rfl (fun hc => by cases hc.2) fun _ => ?_
  refine wp₂_ite Iff.rfl (fun hc => by cases hc.2) fun _ => ?_
  refine wp₂_ite Iff.rfl (fun hc => by cases hc.2) fun _ => ?_
  refine wp₂_ite Iff.rfl (fun hc => by cases hc.2) fun _ => ?_
  refine wp₂_ite Iff.rfl (fun hc => by cases hc.2) fun _ => ?_
  exact wp₂_ite Iff.rfl (fun hc => by cases hc.2) fun _ => trivial

end First

/-! ## Presses -/

theorem pressed_eq {s₁ s₂ : Shared}
    (h : s₁.display.map Step.callback = s₂.display.map Step.callback) (i : Nat) :
    s₁.pressed i = s₂.pressed i := by
  have hi := congrArg (fun cbs => cbs[i]?) h
  simp only [List.getElem?_map] at hi
  unfold Shared.pressed
  cases h₁ : s₁.display[i]? <;> cases h₂ : s₂.display[i]? <;> rw [h₁, h₂] at hi
  · cases hi
  · cases hi
  · exact Option.some.inj hi

theorem pressed_own {s : Shared} (h : ∀ st ∈ s.display, Own st.callback) (i : Nat) :
    Own (s.pressed i) := by
  unfold Shared.pressed
  cases hi : s.display[i]? with
  | none => exact .inl rfl
  | some st => exact h st (List.mem_of_getElem? hi)

/-- The session has ended, or the device. -/
def Over (s : Shared) : Prop := s.running = true → s.currentInstruction = none

/-- Two runs: both are over, or they go on together. -/
def Related (m : Member μ Context) (d₁ d₂ : Device μ) : Prop :=
  Over d₁.shared ∧ Over d₂.shared ∨ Between (d₁.view m) (d₂.view m)

theorem processNext_last {t : Device Context} (h : t.ctx.numberOfVerificationKeys = 0) :
    processNextVerificationKey t = .ok ⟨⟩
      ⟨{ t.ctx with state := .signatureThreshold }, t.shared.reply [] success⟩ := by
  show Prog.bind (Fw.when (t.ctx.numberOfVerificationKeys = 0) _) _ t = _
  rw [Fw.when, if_pos h]
  rfl

theorem processNext_more {t : Device Context} (h : ¬ t.ctx.numberOfVerificationKeys = 0) :
    processNextVerificationKey t = .ok ⟨⟩ ⟨t.ctx, t.shared.reply [] success⟩ := by
  show Prog.bind (Fw.when (t.ctx.numberOfVerificationKeys = 0) _) _ t = _
  rw [Fw.when, if_neg h]
  rfl

/-- A press that the session goes on after: at most a reply is sent, and the state set. -/
structure Stays (m : Member μ Context) (cb : Callback) (d d' : Device μ) : Prop where
  hash : d'.shared.hash = d.shared.hash
  instruction : d'.shared.currentInstruction = d.shared.currentInstruction
  running : d'.shared.running = d.shared.running
  display : d'.shared.display = d.shared.display
  screens : screens d'.shared = screens d.shared
  owed : d'.shared.replyOwed = if cb = .none then d.shared.replyOwed else false
  advanced : Advances (m.get d.ctx) cb →
    m.get d'.ctx = { m.get d.ctx with state := .signatureThreshold }
  kept : ¬ Advances (m.get d.ctx) cb → m.get d'.ctx = m.get d.ctx

section Presses

variable {sdk : Sdk} {u : InstructionContext μ} {d d₁ d₂ : Device μ} {cb : Callback}

theorem not_advances_of_shared {c : Context} (h : cb.isShared = true) : ¬ Advances c cb := by
  rintro ⟨rfl, -⟩
  cases h

theorem press_stays (sdk : Sdk) (u : InstructionContext μ) (d : Device μ) (hown : Own cb)
    (hends : ¬ Ends cb) :
    Stays u.signCredentialDeploymentContext cb d (finish ((mainApp sdk u).callback cb d)) := by
  rcases hown with hs | rfl
  · have hno : ¬ Advances (u.signCredentialDeploymentContext.get d.ctx) cb :=
      not_advances_of_shared hs
    by_cases hnone : cb = .none
    · subst hnone
      exact ⟨rfl, rfl, rfl, rfl, rfl, rfl, fun h => absurd h hno, fun _ => rfl⟩
    · have hreply : cb = .sendSuccessNoIdle := by
        by_contra hne
        exact hends ⟨hs, hnone, hne⟩
      subst hreply
      exact ⟨rfl, rfl, rfl, rfl, screens_reply _ _ _, rfl, fun h => absurd h hno, fun _ => rfl⟩
  · show Stays _ _ _ (finish (Fw.on u.signCredentialDeploymentContext processNextVerificationKey d))
    by_cases hz : (d.view u.signCredentialDeploymentContext).ctx.numberOfVerificationKeys = 0
    · rw [Fw.on_ok (processNext_last hz)]
      refine ⟨rfl, rfl, rfl, rfl, screens_reply _ _ _, rfl, fun _ => ?_, fun hno => ?_⟩
      · exact u.signCredentialDeploymentContext.get_set _ _
      · -- the state is the one that is set
        have hst : (d.view u.signCredentialDeploymentContext).ctx.state = .signatureThreshold :=
          by_contra fun hst => hno ⟨rfl, hz, hst⟩
        refine (u.signCredentialDeploymentContext.get_set _ _).trans ?_
        rw [← hst]
        rfl
    · rw [Fw.on_ok (processNext_more hz)]
      refine ⟨rfl, rfl, rfl, rfl, screens_reply _ _ _, rfl, fun h => absurd h.2.1 hz, fun _ => ?_⟩
      exact u.signCredentialDeploymentContext.get_set _ _

/-- The session, or the device, is over after such a press. -/
theorem press_over (h : Ends cb) : Over (finish ((mainApp sdk u).callback cb d)).shared := by
  obtain ⟨hs, hnone, hreply⟩ := h
  cases cb with
  | none => exact absurd rfl hnone
  | sendSuccessNoIdle => exact absurd rfl hreply
  | sendSuccess | sendUserRejection | uiIdle => exact fun _ => rfl
  | buildAndSignTransactionHash => exact buildAndSign_ended d sdk
  | osSchedExit =>
    intro hr
    cases hr
  | _ => cases hs

theorem Agree.of_follows {m : Member μ Context} (h : Follows (d₁.view m) (d₂.view m)) :
    Agree m d₁ d₂ :=
  ⟨h.context.state, h.shared.hash⟩

theorem Agree.passed {m : Member μ Context} {d₁' d₂' : Device μ} (h : Agree m d₁ d₂)
    (h₁ : Passed d₁ d₁') (h₂ : Passed d₂ d₂') : Agree m d₁' d₂' := by
  obtain ⟨hs, hh⟩ := h
  refine ⟨?_, ?_⟩
  · rw [h₁.ctx, h₂.ctx]
    exact hs
  · rw [h₁.hash, h₂.hash]
    exact hh

/-- Presses that both sessions go on after. -/
theorem Stays.shared {m : Member μ Context} {i : Nat} {d₁' d₂' : Device μ}
    (h : Between (d₁.view m) (d₂.view m)) (h₁ : Stays m (d₁.shared.pressed i) d₁ d₁')
    (h₂ : Stays m (d₂.shared.pressed i) d₂ d₂') :
    SameShared d₁'.shared d₂'.shared ∧
      (ConcordiumLedger.screens d₁'.shared = [] → d₁'.shared.replyOwed = false) := by
  have howed : d₁.shared.replyOwed = d₂.shared.replyOwed := h.shared.owed
  have hnone (hs : ConcordiumLedger.screens d₁.shared = []) : d₁'.shared.replyOwed = false := by
    have hanswered : d₁.shared.replyOwed = false := h.answered hs
    rw [h₁.owed, hanswered, ite_self]
  refine ⟨?_, fun hs => hnone (h₁.screens ▸ hs)⟩
  exact {
    hash := by rw [h₁.hash, h₂.hash]; exact h.shared.hash
    instruction := by rw [h₁.instruction, h₂.instruction]; exact h.shared.instruction
    running := by rw [h₁.running, h₂.running]; exact h.shared.running
    owed := by
      rcases h.shared.flow with ⟨hs, -⟩ | ⟨-, hcb, -⟩
      · have hanswered : d₂.shared.replyOwed = false := howed ▸ h.answered hs
        rw [hnone hs, h₂.owed, hanswered, ite_self]
      · have hp : d₁.shared.pressed i = d₂.shared.pressed i := pressed_eq hcb i
        rw [h₁.owed, h₂.owed, hp, howed]
    flow := by
      unfold SameFlow
      rw [h₁.screens, h₂.screens, h₁.display, h₂.display]
      exact h.shared.flow }

/-- A press, in both sessions. -/
theorem press_related {i : Nat}
    (h : Between (d₁.view u.signCredentialDeploymentContext)
      (d₂.view u.signCredentialDeploymentContext))
    (hal : Alike d₁ d₂ (.press i) (.press i)) :
    (Agree u.signCredentialDeploymentContext
        (finish ((mainApp sdk u).callback (d₁.shared.pressed i) d₁))
        (finish ((mainApp sdk u).callback (d₂.shared.pressed i) d₂)) ↔
      SameUse u.signCredentialDeploymentContext d₁ d₂ (.press i) (.press i)) ∧
    (SameUse u.signCredentialDeploymentContext d₁ d₂ (.press i) (.press i) →
      Related u.signCredentialDeploymentContext
        (finish ((mainApp sdk u).callback (d₁.shared.pressed i) d₁))
        (finish ((mainApp sdk u).callback (d₂.shared.pressed i) d₂))) := by
  let m := u.signCredentialDeploymentContext
  have hag : Agree m d₁ d₂ := .of_follows h.toFollows
  obtain ⟨⟨ho₁, ho₂⟩, hends⟩ : (Own (d₁.shared.pressed i) ∧ Own (d₂.shared.pressed i)) ∧
      (Ends (d₁.shared.pressed i) ↔ Ends (d₂.shared.pressed i)) := by
    rcases h.shared.flow with hs | ⟨-, hcb, hown⟩
    · exact hal hs
    · have hp : d₁.shared.pressed i = d₂.shared.pressed i := pressed_eq hcb i
      have ho : Own (d₁.shared.pressed i) := pressed_own hown i
      rw [← hp]
      exact ⟨⟨ho, ho⟩, Iff.rfl⟩
  by_cases he₁ : Ends (d₁.shared.pressed i)
  · have he₂ := hends.mp he₁
    have hno : SameUse m d₁ d₂ (.press i) (.press i) :=
      iff_of_false (not_advances_of_shared he₁.1) (not_advances_of_shared he₂.1)
    refine ⟨iff_of_true ?_ hno, fun _ => .inl ⟨press_over he₁, press_over he₂⟩⟩
    exact hag.passed (sharedCallback_passed d₁ sdk he₁.1) (sharedCallback_passed d₂ sdk he₂.1)
  · have he₂ : ¬ Ends (d₂.shared.pressed i) := fun he₂ => he₁ (hends.mpr he₂)
    have h₁ := press_stays sdk u d₁ ho₁ he₁
    have h₂ := press_stays sdk u d₂ ho₂ he₂
    generalize finish ((mainApp sdk u).callback (d₁.shared.pressed i) d₁) = d₁' at h₁ ⊢
    generalize finish ((mainApp sdk u).callback (d₂.shared.pressed i) d₂) = d₂' at h₂ ⊢
    obtain ⟨hshared, hanswered⟩ := Stays.shared h h₁ h₂
    have hstate : (m.get d₁.ctx).state = (m.get d₂.ctx).state := hag.1
    by_cases ha₁ : Advances (m.get d₁.ctx) (d₁.shared.pressed i) <;>
      by_cases ha₂ : Advances (m.get d₂.ctx) (d₂.shared.pressed i)
    · have hb : Between (d₁'.view m) (d₂'.view m) := by
        refine ⟨⟨hshared, ?_, ?_⟩, hanswered⟩
        · show SameContext (m.get d₁'.ctx) (m.get d₂'.ctx)
          rw [h₁.advanced ha₁, h₂.advanced ha₂]
          exact .of_state rfl h.context.showIntro rfl
        · refine .inl ?_
          show (m.get d₁'.ctx).numberOfVerificationKeys = (m.get d₂'.ctx).numberOfVerificationKeys
          rw [h₁.advanced ha₁, h₂.advanced ha₂]
          exact ha₁.2.1.trans ha₂.2.1.symm
      exact ⟨iff_of_true (.of_follows hb.toFollows) (iff_of_true ha₁ ha₂), fun _ => .inr hb⟩
    · -- only the first session goes on to the threshold
      refine ⟨iff_of_false ?_ fun hu => ha₂ (hu.mp ha₁), fun hu => absurd (hu.mp ha₁) ha₂⟩
      rintro ⟨hs, -⟩
      rw [h₁.advanced ha₁, h₂.kept ha₂] at hs
      exact ha₁.2.2 (hstate.trans hs.symm)
    · refine ⟨iff_of_false ?_ fun hu => ha₁ (hu.mpr ha₂), fun hu => absurd (hu.mpr ha₂) ha₁⟩
      rintro ⟨hs, -⟩
      rw [h₁.kept ha₁, h₂.advanced ha₂] at hs
      exact ha₂.2.2 (hstate.symm.trans hs)
    · have hb : Between (d₁'.view m) (d₂'.view m) := by
        have hc₁ : (d₁'.view m).ctx = (d₁.view m).ctx := h₁.kept ha₁
        have hc₂ : (d₂'.view m).ctx = (d₂.view m).ctx := h₂.kept ha₂
        refine ⟨⟨hshared, by rw [hc₁, hc₂]; exact h.context, ?_⟩, hanswered⟩
        rw [hc₁, hc₂]
        exact h.keys.imp_right fun hk => ⟨hk.1, h₁.screens.trans hk.2⟩
      exact ⟨iff_of_true (.of_follows hb.toFollows) (iff_of_false ha₁ ha₂), fun _ => .inr hb⟩

end Presses

/-! ## Runs -/

section Runs

variable {m : Member μ Context} {app : App μ} {d₁ d₂ : Device μ}

theorem lockStep_over {d : Device μ} (h : Over d.shared) (ev : Event) :
    lockStep app d ev = none := by
  unfold lockStep
  cases hi : d.shared.currentInstruction with
  | none => rfl
  | some ins =>
    have hr : ¬ d.shared.running = true := by
      intro hr
      rw [h hr] at hi
      cases hi
    cases ev with
    | command a => exact if_neg fun hc => hr hc.1
    | press i => exact if_neg hr
    | noApdu => rfl

theorem lockStep_handler {d : Device μ} {a : Apdu} {ins : UInt8}
    (hi : d.shared.currentInstruction = some ins) :
    lockStep app d (.command a) =
      if d.shared.running ∧ ¬ d.shared.replyOwed ∧ a.ins = ins ∧ a.cla = 0xE0 then
        accepted (app.handler a false (entered d a))
      else none := by
  unfold lockStep
  rw [hi]
  simp only
  by_cases hc : d.shared.running = true ∧ ¬ d.shared.replyOwed = true ∧ a.ins = ins
  · rw [if_pos hc]
    by_cases hcla : a.cla = 0xE0
    · rw [if_pos ⟨hc.1, hc.2.1, hc.2.2, hcla⟩, dispatch_eq app (by rw [hi, hc.2.2]) hcla]
    · rw [if_neg fun h => hcla h.2.2.2]
      rw [dispatch_cla app hcla]
      rfl
  · rw [if_neg hc, if_neg fun h => hc ⟨h.1, h.2.1, h.2.2.1⟩]

theorem lockStep_callback {d : Device μ} {i : Nat} {ins : UInt8}
    (hi : d.shared.currentInstruction = some ins) :
    lockStep app d (.press i) =
      if d.shared.running then some (finish (app.callback (d.shared.pressed i) d)) else none := by
  unfold lockStep
  rw [hi]

/-- Two runs of a handler, in the two devices. -/
theorem rel_on {x y : Fw Context PUnit} {Q : PUnit → PUnit → Device Context → Device Context → Prop}
    (h : wp₂ x y Q (d₁.view m) (d₂.view m)) :
    Option.Rel (fun d₁' d₂' => Q ⟨⟩ ⟨⟩ (d₁'.view m) (d₂'.view m)) (accepted (Fw.on m x d₁))
      (accepted (Fw.on m y d₂)) := by
  cases hx : x (d₁.view m) with
  | ok a t₁ =>
    cases hy : y (d₂.view m) with
    | ok b t₂ =>
      rw [Fw.on_ok hx, Fw.on_ok hy]
      refine .some ?_
      simp only [wp₂, hx, hy] at h
      simp only [Device.view, m.get_set]
      exact h
    | thrown e t₂ => simp only [wp₂, hx, hy] at h
  | thrown e t₁ =>
    cases hy : y (d₂.view m) with
    | ok b t₂ => simp only [wp₂, hx, hy] at h
    | thrown e' t₂ =>
      rw [Fw.on_thrown hx, Fw.on_thrown hy]
      exact .none

theorem SameShared.entered {s₁ s₂ : Shared} (h : SameShared s₁ s₂) (ins p1 p2 q2 : UInt8)
    (data : List UInt8) :
    SameShared (({ s₁ with asynchReply := false, replyOwed := true } : Shared).act
        (.handler ins p1 p2 data))
      (({ s₂ with asynchReply := false, replyOwed := true } : Shared).act
        (.handler ins p1 q2 data)) where
  hash := h.hash
  instruction := h.instruction
  running := h.running
  owed := rfl
  flow := by
    unfold SameFlow
    rw [screens_handler, screens_handler]
    exact h.flow

theorem Follows.entered (h : Follows (d₁.view m) (d₂.view m)) (a : Apdu) (p2 : UInt8) :
    Follows ((ConcordiumLedger.entered d₁ a).view m)
      ((ConcordiumLedger.entered d₂ { a with p2 := p2 }).view m) where
  shared := h.shared.entered _ _ _ _ _
  context := h.context
  keys := by
    rcases h.keys with hk | ⟨hs, hscr⟩
    · exact .inl hk
    · exact .inr ⟨hs, (screens_handler _ _ _ _ _).trans hscr⟩

variable {sdk : Sdk} {u : InstructionContext μ}

theorem mainHandler_credential (sdk : Sdk) (u : InstructionContext μ) {a : Apdu} {b : Bool}
    (h : a.ins = insCredentialDeployment) :
    (mainApp sdk u).handler a b = Fw.on u.signCredentialDeploymentContext
      (handleSignCredentialDeployment sdk a.cdata a.p1 a.p2 b) := by
  show mainHandler sdk u a b = _
  unfold mainHandler
  rw [h]
  rfl

/-- One pair of events. -/
theorem related_step {e f : Event} (h : Related u.signCredentialDeploymentContext d₁ d₂)
    (hef : SameButP2 e f)
    (hal : ∀ d₁' d₂', lockStep (mainApp sdk u) d₁ e = some d₁' →
      lockStep (mainApp sdk u) d₂ f = some d₂' → Alike d₁ d₂ e f) :
    Option.Rel (fun d₁' d₂' =>
        (Agree u.signCredentialDeploymentContext d₁' d₂' ↔
          SameUse u.signCredentialDeploymentContext d₁ d₂ e f) ∧
        (SameUse u.signCredentialDeploymentContext d₁ d₂ e f →
          Related u.signCredentialDeploymentContext d₁' d₂'))
      (lockStep (mainApp sdk u) d₁ e) (lockStep (mainApp sdk u) d₂ f) := by
  rcases h with ⟨h₁, h₂⟩ | h
  · rw [lockStep_over h₁, lockStep_over h₂]
    exact .none
  have hi₁ : d₁.shared.currentInstruction = some insCredentialDeployment := h.shared.instruction.1
  have hi₂ : d₂.shared.currentInstruction = some insCredentialDeployment := h.shared.instruction.2
  have hr : d₁.shared.running = d₂.shared.running := h.shared.running
  have ho : d₁.shared.replyOwed = d₂.shared.replyOwed := h.shared.owed
  cases hef with
  | command a p2 =>
    rw [lockStep_handler hi₁, lockStep_handler hi₂]
    by_cases hc : d₁.shared.running = true ∧ ¬ d₁.shared.replyOwed = true ∧
        a.ins = insCredentialDeployment ∧ a.cla = 0xE0
    · have hc₂ : d₂.shared.running = true ∧ ¬ d₂.shared.replyOwed = true ∧
          a.ins = insCredentialDeployment ∧ a.cla = 0xE0 := by
        rw [← hr, ← ho]
        exact hc
      have hw := handler_result (h.toFollows.entered a p2) sdk a p2
      rw [if_pos hc, if_pos hc₂, mainHandler_credential sdk u hc.2.2.1,
        mainHandler_credential sdk u (a := { a with p2 := p2 }) hc.2.2.1]
      have hrel := rel_on hw
      generalize accepted (Fw.on _ _ (ConcordiumLedger.entered d₁ a)) = o₁ at hrel ⊢
      generalize accepted (Fw.on _ _ (ConcordiumLedger.entered d₂ { a with p2 := p2 })) = o₂
        at hrel ⊢
      cases hrel with
      | none => exact .none
      | some hres => exact .some ⟨hres.1, fun hs => .inr (hres.2 hs)⟩
    · have hc₂ : ¬ (d₂.shared.running = true ∧ ¬ d₂.shared.replyOwed = true ∧
          a.ins = insCredentialDeployment ∧ a.cla = 0xE0) := by
        rw [← hr, ← ho]
        exact hc
      rw [if_neg hc, if_neg hc₂]
      exact .none
  | press i =>
    rw [lockStep_callback hi₁, lockStep_callback hi₂] at hal ⊢
    by_cases hrun : d₁.shared.running = true
    · have hrun₂ : d₂.shared.running = true := hr ▸ hrun
      rw [if_pos hrun, if_pos hrun₂] at hal ⊢
      exact .some (press_related h (hal _ _ rfl rfl))
    · rw [if_neg hrun, if_neg fun hx => hrun (hr ▸ hx)]
      exact .none
  | noApdu =>
    have hnone : ∀ d : Device μ, lockStep (mainApp sdk u) d .noApdu = none := by
      intro d
      unfold lockStep
      cases d.shared.currentInstruction <;> rfl
    rw [hnone, hnone]
    exact .none

theorem opening_eq {app : App μ} {d : Device μ} (h : Idle d) (a : Apdu) :
    opening app d a =
      if a.cla = 0xE0 then accepted (app.handler a true (opened d a)) else none := by
  unfold opening
  by_cases hcla : a.cla = 0xE0
  · rw [if_pos hcla, dispatch_opened app h.instruction hcla]
  · rw [if_neg hcla, dispatch_cla app hcla]
    rfl

/-- The first commands of two sessions. -/
theorem opening_related (h₁ : Idle d₁) (h₂ : Idle d₂) {a : Apdu} (p2 : UInt8)
    (ha : a.ins = insCredentialDeployment) :
    Option.Rel (fun t₁ t₂ => Between (t₁.view u.signCredentialDeploymentContext)
        (t₂.view u.signCredentialDeploymentContext))
      (opening (mainApp sdk u) d₁ a) (opening (mainApp sdk u) d₂ { a with p2 := p2 }) := by
  rw [opening_eq h₁, opening_eq h₂]
  by_cases hcla : a.cla = 0xE0
  · rw [if_pos hcla, if_pos hcla, mainHandler_credential sdk u ha,
      mainHandler_credential sdk u (a := { a with p2 := p2 }) ha]
    refine rel_on (opening_follows ?_ sdk a p2)
    exact {
      instruction := ⟨congrArg some ha, congrArg some ha⟩
      running := h₁.running.trans h₂.running.symm
      screens := ⟨screens_opened d₁ a, screens_opened d₂ { a with p2 := p2 }⟩ }
  · rw [if_neg hcla, if_neg hcla]
    exact .none

/-- Two sessions of the credential deployment that receive the same commands but for `p2`, after
any earlier sessions. As far as their presses on screens that are left over are `Alike`, they take
the same commands, go through the same states and hash the same bytes exactly when the proofs are
taken for those of the same instruction in both, and no such press takes only one of them on to the
threshold. -/
theorem kept_apart_iff (h₁ : Idle d₁) (h₂ : Idle d₂) {a : Apdu} (p2 : UInt8)
    (ha : a.ins = insCredentialDeployment) {es : List (Event × Event)}
    (hes : ∀ p ∈ es, SameButP2 p.1 p.2)
    (hal : ∀ t₁ t₂, opening (mainApp sdk u) d₁ a = some t₁ →
      opening (mainApp sdk u) d₂ { a with p2 := p2 } = some t₂ →
      Along (lockStep (mainApp sdk u)) Alike t₁ t₂ es) :
    KeptApart (mainApp sdk u) u.signCredentialDeploymentContext d₁ d₂ a { a with p2 := p2 } es ↔
      ∀ t₁ t₂, opening (mainApp sdk u) d₁ a = some t₁ →
        opening (mainApp sdk u) d₂ { a with p2 := p2 } = some t₂ →
        Along (lockStep (mainApp sdk u)) (SameUse u.signCredentialDeploymentContext) t₁ t₂ es := by
  have hrel : Option.Rel _ (opening (mainApp sdk u) d₁ a) _ :=
    opening_related (u := u) h₁ h₂ p2 ha
  unfold KeptApart
  generalize opening (mainApp sdk u) d₁ a = o₁ at hrel hal ⊢
  generalize opening (mainApp sdk u) d₂ { a with p2 := p2 } = o₂ at hrel hal ⊢
  cases hrel with
  | none => exact ⟨fun _ _ _ h => (by cases h), fun _ => .none⟩
  | some hf =>
    rename_i t₁ t₂
    have hiff : Together (lockStep (mainApp sdk u)) (Agree u.signCredentialDeploymentContext) t₁ t₂
        es ↔ Along (lockStep (mainApp sdk u)) (SameUse u.signCredentialDeploymentContext) t₁ t₂
          es :=
      together_iff (F := SameButP2) (R := Related u.signCredentialDeploymentContext)
        (fun _ _ _ _ => related_step) (Or.inr hf) hes (hal t₁ t₂ rfl rfl)
    constructor
    · intro hk t₁ t₂ ht₁ ht₂
      cases ht₁
      cases ht₂
      cases hk with
      | some hk => exact hiff.mp hk.2
    · intro hk
      exact .some ⟨.of_follows hf.toFollows, hiff.mpr (hk _ _ rfl rfl)⟩

end Runs

/-! ## A credential up to the length of its proofs -/

section Credential

def credentialCommand (p1 p2 : UInt8) (data : List UInt8) : Apdu :=
  sent insCredentialDeployment p1 p2 data

def credentialPacket : Apdu := credentialCommand p1InitialPacket 0 [1, 0, 0, 0, 0]

/-- One key, one anonymity revoker and no attributes, then the length of the proofs with `p2`. -/
def upToProofs (p2 : UInt8) : List (Event × Event) :=
  [ credentialCommand p1VerificationKeyLength 0 [1],
    credentialCommand p1VerificationKey 0 (List.replicate 34 0),
    credentialCommand p1SignatureThreshold 0 (1 :: List.replicate 52 0 ++ [1, 0, 1]),
    credentialCommand p1ArIdentity 0 (List.replicate 100 0),
    credentialCommand p1CredentialDates 0 (List.replicate 8 0),
    credentialCommand p1LengthOfProofs 0 [0, 0, 0, 4] ].map
      fun c => (.command c, .command { c with p2 := p2 })

theorem kept_apart_other_p2 :
    KeptApart (mainApp zeroAddressSdk Contexts.layout)
      Contexts.layout.signCredentialDeploymentContext bootedDevice bootedDevice credentialPacket
      { credentialPacket with p2 := 1 } (upToProofs 1) := by
  have hidle : Idle bootedDevice := ⟨rfl, rfl, rfl⟩
  have hes : ∀ p ∈ upToProofs 1, SameButP2 p.1 p.2 := by
    intro p hp
    obtain ⟨c, -, rfl⟩ := List.mem_map.mp hp
    exact .command c 1
  have hal (p) (hp : p ∈ upToProofs 1) (s t : Device Contexts) : Alike s t p.1 p.2 := by
    obtain ⟨c, -, rfl⟩ := List.mem_map.mp hp
    trivial
  refine (kept_apart_iff hidle hidle 1 rfl hes fun _ _ _ _ => along_of_forall hal).mpr
    fun t₁ t₂ _ _ => along_of_forall ?_
  intro p hp s t
  obtain ⟨c, hc, rfl⟩ := List.mem_map.mp hp
  have hp2 : c.p2 = 0 := by
    simp only [List.mem_cons, List.not_mem_nil, or_false] at hc
    rcases hc with rfl | rfl | rfl | rfl | rfl | rfl <;> rfl
  refine ⟨fun _ => ?_, fun _ _ => ?_⟩
  · simp [hp2, p2CredentialCredential]
  · simp [hp2, p2CredentialCredential, Updates]

/-- With `p2 = 2` the length of the proofs is hashed too. -/
theorem p2_decides_what_is_hashed :
    ¬ KeptApart (mainApp zeroAddressSdk Contexts.layout)
      Contexts.layout.signCredentialDeploymentContext bootedDevice bootedDevice credentialPacket
      { credentialPacket with p2 := 2 } (upToProofs 2) := by
  intro h
  have hex : ((opening (mainApp zeroAddressSdk Contexts.layout) bootedDevice credentialPacket).any
      fun t₁ => (opening (mainApp zeroAddressSdk Contexts.layout) bootedDevice
        { credentialPacket with p2 := 2 }).any fun t₂ =>
          (exec (lockStep (mainApp zeroAddressSdk Contexts.layout)) t₁
            ((upToProofs 2).map Prod.fst)).any fun u₁ =>
          (exec (lockStep (mainApp zeroAddressSdk Contexts.layout)) t₂
            ((upToProofs 2).map Prod.snd)).any fun u₂ =>
          u₁.shared.hash != u₂.shared.hash) = true := by
    decide
  obtain ⟨t₁, ht₁, hex⟩ := (Option.any_eq_true _ _).mp hex
  obtain ⟨t₂, ht₂, hex⟩ := (Option.any_eq_true _ _).mp hex
  obtain ⟨u₁, hu₁, hex⟩ := (Option.any_eq_true _ _).mp hex
  obtain ⟨u₂, hu₂, hne⟩ := (Option.any_eq_true _ _).mp hex
  unfold KeptApart at h
  rw [ht₁, ht₂] at h
  cases h with
  | some h =>
    have hag := h.2.exec h.1 hu₁ hu₂
    exact absurd hag.2 (by simpa using hne)

end Credential

end SignCredentialDeployment

end ConcordiumLedger
