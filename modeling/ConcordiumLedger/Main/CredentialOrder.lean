import ConcordiumLedger.Common.Commands
import ConcordiumLedger.Main.CredentialSessions

/-!
# Main.CredentialOrder

The order in which the sections of a credential are read, with presses that may come late.

* `State.rank`, `Section.rank` — the order.
* `sections` — the sections read since the credential began, found in the log.
* `InOrder`  — each section comes once and in its place; some are sent in several packets.
* `hashed`, `HashedOnce` — what went into the hash, by section and packet, and that no section is
  hashed twice.
* `Steady`   — the events that do not lead back.
-/

namespace ConcordiumLedger

open CMem CProg CProg.Prog Transition

variable {μ : Type}

namespace SignCredentialDeployment

/-! ## The order -/

/-- The value 0 comes after the last credential of an update. -/
def State.rank : State → Nat
  | .initial => 0
  | .verificationKeysLength => 1
  | .verificationKey => 2
  | .signatureThreshold => 3
  | .arIdentity => 4
  | .credentialDates => 5
  | .attributeTag => 6
  | .attributeValue => 6
  | .lengthOfProofs => 7
  | .proofs => 8
  | .newOrExisting => 9
  | .stale => 10

theorem State.eq_of_rank {st : State} (h : st.rank = 9) : st = .newOrExisting := by
  cases st <;> first | rfl | cases h

inductive Section where
  | keysLength
  | keys
  | signatureThreshold
  | arIdentities
  | dates
  | attributes
  | lengthOfProofs
  | proofs
  | newOrExisting
deriving DecidableEq

namespace Section

def rank : Section → Nat
  | keysLength => 1
  | keys => 2
  | signatureThreshold => 3
  | arIdentities => 4
  | dates => 5
  | attributes => 6
  | lengthOfProofs => 7
  | proofs => 8
  | newOrExisting => 9

/-- The section is sent in several packets. -/
def repeats : Section → Bool
  | keys | arIdentities | attributes | proofs => true
  | _ => false

/-- The section that a packet belongs to. -/
def ofP1 (p1 : UInt8) : Option Section :=
  if p1 = p1VerificationKeyLength then some keysLength
  else if p1 = p1VerificationKey then some keys
  else if p1 = p1SignatureThreshold then some signatureThreshold
  else if p1 = p1ArIdentity then some arIdentities
  else if p1 = p1CredentialDates then some dates
  else if p1 = p1AttributeTag ∨ p1 = p1AttributeValue then some attributes
  else if p1 = p1LengthOfProofs then some lengthOfProofs
  else if p1 = p1Proofs then some proofs
  else if p1 = p1NewOrExisting then some newOrExisting
  else none

theorem p1_of_proofs {p1 : UInt8} (h : ofP1 p1 = some proofs) : p1 = p1Proofs := by
  unfold ofP1 at h
  split_ifs at h
  all_goals first | assumption | cases h

theorem p1_of_newOrExisting {p1 : UInt8} (h : ofP1 p1 = some newOrExisting) :
    p1 = p1NewOrExisting := by
  unfold ofP1 at h
  split_ifs at h
  all_goals first | assumption | cases h

theorem eq_of_rank {s s' : Section} (h : s.rank = s'.rank) : s = s' := by
  cases s <;> cases s' <;> first | rfl | cases h

end Section

/-- The sections read for a credential, one action further. The index of a credential begins the
next one of an update. -/
def sectionsStep (read : List Section) : Action → List Section
  | .handler ins p1 p2 _ =>
    if ins = insSignUpdateCredential then
      if p2 = p2CredentialCredentialIndex then []
      else if p2 = p2CredentialCredential then read ++ (Section.ofP1 p1).toList
      else read
    else read ++ (Section.ofP1 p1).toList
  | _ => read

/-- The sections that the session has read since the credential began. -/
def sections (s : Shared) : List Section := (sessionLog s.log).foldl sectionsStep []

/-- No section is read again after another one, nor twice. -/
def InOrder (read : List Section) : Prop :=
  read.Pairwise fun a b => a.rank < b.rank ∨ a = b ∧ a.repeats = true

instance (read : List Section) : Decidable (InOrder read) :=
  inferInstanceAs (Decidable (List.Pairwise _ read))

/-! ## What is hashed -/

/-- Bytes of a section that went into the hash, with the number of the packet that brought them. -/
structure Hashed where
  packet : Nat
  part : Section
  bytes : List UInt8
deriving DecidableEq

/-- How far a session has come: the sections read, that of the packet at hand, and what was hashed
since the credential began. -/
structure Hashing where
  read : List Section
  current : Option Section
  hashed : List Hashed

/-- The section that a command belongs to. -/
def sectionOf (ins p1 p2 : UInt8) : Option Section :=
  if ins = insSignUpdateCredential ∧ p2 ≠ p2CredentialCredential then none else Section.ofP1 p1

/-- Everything that is hashed while a packet is handled belongs to the section of that packet. -/
def Hashing.step (r : Hashing) : Action → Hashing
  | .handler ins p1 p2 data =>
    { read := sectionsStep r.read (.handler ins p1 p2 data)
      current := sectionOf ins p1 p2
      hashed :=
        if ins = insSignUpdateCredential ∧ p2 = p2CredentialCredentialIndex then []
        else r.hashed }
  | .updateHash bytes =>
    match r.current with
    | some part => { r with hashed := r.hashed ++ [⟨r.read.length - 1, part, bytes⟩] }
    | none => r
  | _ => r

def hashing (s : Shared) : Hashing := (sessionLog s.log).foldl Hashing.step ⟨[], none, []⟩

/-- What the session has hashed of the credential. -/
def hashed (s : Shared) : List Hashed := (hashing s).hashed

/-- What is hashed is in order, and no section is hashed twice: what is hashed of it comes from one
packet, unless the section is sent in several. -/
def HashedOnce (hs : List Hashed) : Prop :=
  hs.Pairwise fun a b => a.part.rank < b.part.rank ∨
    a.part = b.part ∧ (a.part.repeats = true ∨ a.packet = b.packet)

instance (hs : List Hashed) : Decidable (HashedOnce hs) :=
  inferInstanceAs (Decidable (List.Pairwise _ hs))

/-- What was hashed came from the packets that were read, one after the other. -/
structure Hashing.Sound (r : Hashing) : Prop where
  brought : ∀ h ∈ r.hashed, r.read[h.packet]? = some h.part
  current : ∀ part, r.current = some part → r.read[r.read.length - 1]? = some part
  ascending : r.hashed.Pairwise fun a b => a.packet ≤ b.packet

theorem sectionsStep_handler (read : List Section) (ins p1 p2 : UInt8) (data : List UInt8) :
    sectionsStep read (.handler ins p1 p2 data) =
      if ins = insSignUpdateCredential ∧ p2 = p2CredentialCredentialIndex then []
      else read ++ (sectionOf ins p1 p2).toList := by
  unfold sectionsStep sectionOf
  by_cases hu : ins = insSignUpdateCredential
  · by_cases hindex : p2 = p2CredentialCredentialIndex
    · simp [hu, hindex]
    · by_cases hcred : p2 = p2CredentialCredential <;> simp [hu, hindex, hcred]
  · simp [hu]

theorem Hashing.Sound.step {r : Hashing} (h : r.Sound) (a : Action) : (r.step a).Sound := by
  cases a with
  | handler ins p1 p2 data =>
    by_cases hnext : ins = insSignUpdateCredential ∧ p2 = p2CredentialCredentialIndex
    · -- the next credential begins, and nothing of it has been read
      have hother : p2 ≠ p2CredentialCredential := by rw [hnext.2]; decide
      have hnone : sectionOf ins p1 p2 = none := if_pos ⟨hnext.1, hother⟩
      refine ⟨?_, ?_, ?_⟩
      · simp only [Hashing.step, if_pos hnext, List.not_mem_nil, false_implies, implies_true]
      · simp only [Hashing.step, hnone, reduceCtorEq, false_implies, implies_true]
      · simp only [Hashing.step, if_pos hnext, List.Pairwise.nil]
    · refine ⟨?_, ?_, ?_⟩
      · simp only [Hashing.step, sectionsStep_handler, if_neg hnext]
        intro b hb
        have hread := h.brought b hb
        rw [List.getElem?_append_left (List.getElem?_eq_some_iff.mp hread).1]
        exact hread
      · simp only [Hashing.step, sectionsStep_handler, if_neg hnext]
        intro part hpart
        simp [hpart]
      · simp only [Hashing.step, if_neg hnext]
        exact h.ascending
  | updateHash bytes =>
    cases hc : r.current with
    | none => simpa [Hashing.step, hc] using h
    | some part =>
      have hlast := h.current part hc
      refine ⟨?_, ?_, ?_⟩
      · simp only [Hashing.step, hc]
        intro b hb
        rcases List.mem_append.mp hb with hb | hb
        · exact h.brought b hb
        · rw [List.mem_singleton.mp hb]
          exact hlast
      · simp only [Hashing.step, hc]
        rintro _ ⟨⟩
        exact hlast
      · simp only [Hashing.step, hc]
        refine List.pairwise_append.mpr ⟨h.ascending, List.pairwise_singleton _ _, ?_⟩
        intro b hb c hcm
        rw [List.mem_singleton.mp hcm]
        have hlt := (List.getElem?_eq_some_iff.mp (h.brought b hb)).1
        show b.packet ≤ r.read.length - 1
        omega
  | _ => exact h

theorem hashing_sound (s : Shared) : (hashing s).Sound := by
  have hfold : ∀ (log : List Action) (r : Hashing), r.Sound → (log.foldl Hashing.step r).Sound := by
    intro log
    induction log with
    | nil => exact fun _ h => h
    | cons a log ih => exact fun r h => ih _ (h.step a)
  exact hfold _ _ ⟨by simp, by simp, .nil⟩

theorem hashing_read (s : Shared) : (hashing s).read = sections s := by
  have hfold : ∀ (log : List Action) (r : Hashing),
      (log.foldl Hashing.step r).read = log.foldl sectionsStep r.read := by
    intro log
    induction log with
    | nil => exact fun _ => rfl
    | cons a log ih =>
      intro r
      have hstep : (r.step a).read = sectionsStep r.read a := by
        cases a with
        | updateHash bytes => cases hc : r.current <;> simp [Hashing.step, sectionsStep, hc]
        | _ => rfl
      rw [List.foldl_cons, List.foldl_cons, ih, hstep]
  exact hfold _ _

/-- When the sections are read in order, each of them is hashed once. -/
theorem InOrder.hashedOnce {s : Shared} (h : InOrder (sections s)) : HashedOnce (hashed s) := by
  have hsound := hashing_sound s
  rw [InOrder, ← hashing_read, List.pairwise_iff_getElem] at h
  refine hsound.ascending.imp_of_mem fun {a b} ha hb hle => ?_
  obtain ⟨hla, hpa⟩ := List.getElem?_eq_some_iff.mp (hsound.brought a ha)
  obtain ⟨hlb, hpb⟩ := List.getElem?_eq_some_iff.mp (hsound.brought b hb)
  rcases Nat.lt_or_eq_of_le hle with hlt | heq
  · rcases h a.packet b.packet hla hlb hlt with horder | ⟨hsame, hrep⟩
    · rw [hpa, hpb] at horder
      exact .inl horder
    · rw [hpa] at hsame hrep
      rw [hpb] at hsame
      exact .inr ⟨hsame, .inl hrep⟩
  · have hsame : a.part = b.part := by
      rw [← hpa, ← hpb]
      congr 1
    exact .inr ⟨hsame, .inr heq⟩

/-- The update of credentials begins its next credential. -/
def BeginsNext (t t' : Device Context) : Prop :=
  t.shared.currentInstruction = some insSignUpdateCredential ∧ t.ctx.state = .proofs ∧
    t'.ctx.state = .verificationKeysLength ∧ t'.ctx.updateCredentialState = .credentialIndex

instance (t t' : Device Context) : Decidable (BeginsNext t t') :=
  inferInstanceAs (Decidable (_ ∧ _ ∧ _ ∧ _))

def Forward (t t' : Device Context) : Prop :=
  t.ctx.state.rank ≤ t'.ctx.state.rank ∨ BeginsNext t t'

instance (t t' : Device Context) : Decidable (Forward t t') :=
  inferInstanceAs (Decidable (_ ∨ _))

/-- A deployment takes the last proof bytes for those of a credential of an update, with another
one to come. -/
def MistakenForUpdate (c : Context) (a : Apdu) : Prop :=
  a.ins = insCredentialDeployment ∧ a.p1 = p1Proofs ∧ c.state = .proofs ∧
    c.proofLength.toNat ≤ maxCdataLength ∧ Updates c a.p2 ∧ c.credentialDeploymentCount ≠ 1

/-- The last section comes again, below the Sign screen that it has led to. -/
def SentAgain (t : Device Context) (a : Apdu) : Prop :=
  a.p1 = p1NewOrExisting ∧ t.ctx.state = .newOrExisting ∧ Offered t.shared

/-- The events that do not lead back: no step "Continue" is confirmed late, and the two kinds of
commands above do not come. -/
def Steady (t : Device Context) : Event → Prop
  | .press i => (t.shared.pressed i).isShared = true ∨
      t.shared.pressed i = .processNextVerificationKey ∧
        (t.ctx.numberOfVerificationKeys = 0 → t.ctx.state.rank ≤ State.signatureThreshold.rank)
  | .command a => ¬ MistakenForUpdate t.ctx a ∧ ¬ SentAgain t a
  | .noApdu => True

instance (t : Device Context) (e : Event) : Decidable (Steady t e) :=
  match e with
  | .press _ => inferInstanceAs (Decidable (_ ∨ _ ∧ (_ → _)))
  | .command _ =>
    inferInstanceAs (Decidable (¬ (_ ∧ _ ∧ _ ∧ _ ∧ _ ∧ _) ∧ ¬ (_ ∧ _ ∧ _ ∧ _)))
  | .noApdu => inferInstanceAs (Decidable True)

/-! ## The log -/

section Log

variable (s : Shared)

@[simp] theorem sections_updateHash (bytes : List UInt8) :
    sections (s.updateHash bytes) = sections s := by
  simp [sections, sessionStep, sectionsStep]

@[simp] theorem sections_sha256Init : sections s.sha256Init = sections s := by
  simp [sections, sessionStep, sectionsStep]

@[simp] theorem sections_reply (data : List UInt8) (sw : UInt16) :
    sections (s.reply data sw) = sections s := by
  simp [sections, sessionStep, sectionsStep]

@[simp] theorem sections_uxFlowInit (flow : List Step) :
    sections (s.uxFlowInit flow) = sections s := by
  simp [sections, sessionStep, sectionsStep]

@[simp] theorem sections_loadPath (cdata : Ptr) : sections (s.loadPath cdata) = sections s := by
  simp [sections, sessionStep, sectionsStep]

theorem sections_handler (ins p1 p2 : UInt8) (data : List UInt8) :
    sections (s.act (.handler ins p1 p2 data)) =
      sectionsStep (sections s) (.handler ins p1 p2 data) := by
  simp [sections, sessionStep]

theorem sections_of_quiet {s s' : Shared} {as : List Action} (h : s'.log = s.log ++ as)
    (hq : ∀ a ∈ as, a.quiet = true) : sections s' = sections s := by
  have hfold : ∀ (as : List Action) (read : List Section), (∀ a ∈ as, a.quiet = true) →
      as.foldl sectionsStep read = read := by
    intro as
    induction as with
    | nil => intro read _; rfl
    | cons a as ih =>
      intro read hq
      have ha : sectionsStep read a = read := by
        have hqa := hq a List.mem_cons_self
        cases a with
        | handler ins p1 p2 data => cases hqa
        | _ => rfl
      rw [List.foldl_cons, ha]
      exact ih read fun b hb => hq b (List.mem_cons_of_mem _ hb)
  rw [sections, h, sessionLog_append_quiet hq, List.foldl_append]
  exact hfold as _ hq

end Log

/-! ## One packet -/

/-- The packet of a section was read in its place. -/
structure Reads (s : Section) (t t' : Device Context) : Prop where
  place : s.rank = t.ctx.state.rank
  next : s.rank ≤ t'.ctx.state.rank
  once : s.repeats = false → s.rank < t'.ctx.state.rank ∨ s = .newOrExisting ∧ Offered t'.shared
  update : t'.ctx.updateCredentialState = t.ctx.updateCredentialState
  sections : sections t'.shared = sections t.shared
  instruction : t'.shared.currentInstruction = t.shared.currentInstruction

/-- The last proof bytes of a credential of an update were read. -/
structure Finishes (p2 : UInt8) (t t' : Device Context) : Prop where
  state : t.ctx.state = .proofs
  length : t.ctx.proofLength.toNat ≤ maxCdataLength
  updates : Updates t.ctx p2
  last : t.ctx.credentialDeploymentCount = 1 →
    t'.ctx.state = .stale ∧ t'.ctx.updateCredentialState = .idCount
  more : t.ctx.credentialDeploymentCount ≠ 1 →
    t'.ctx.state = .verificationKeysLength ∧ t'.ctx.updateCredentialState = .credentialIndex
  sections : sections t'.shared = sections t.shared
  instruction : t'.shared.currentInstruction = t.shared.currentInstruction

/-- The first packet of a deployment was read. -/
structure Begun (t t' : Device Context) : Prop where
  state : t.ctx.state = .initial
  next : t'.ctx.state = .verificationKeysLength
  update : t'.ctx.updateCredentialState = t.ctx.updateCredentialState
  sections : sections t'.shared = sections t.shared
  instruction : t'.shared.currentInstruction = t.shared.currentInstruction

section Packets

variable {t : Device Context} {buf : Ptr}

/-- A packet that moves the state from `st` to `st'`. -/
theorem Reads.move {s : Section} (st st' : State) {t t' : Device Context}
    (hs : t.ctx.state = st) (hs' : t'.ctx.state = st') (hplace : s.rank = st.rank)
    (hnext : s.repeats = true ∧ s.rank ≤ st'.rank ∨ s.rank < st'.rank)
    (hu : t'.ctx.updateCredentialState = t.ctx.updateCredentialState)
    (hsec : SignCredentialDeployment.sections t'.shared = SignCredentialDeployment.sections t.shared)
    (hi : t'.shared.currentInstruction = t.shared.currentInstruction) : Reads s t t' where
  place := by rw [hs, hplace]
  next := by
    rw [hs']
    rcases hnext with ⟨_, h⟩ | h
    · exact h
    · exact Nat.le_of_lt h
  once := by
    intro hr
    rcases hnext with ⟨h, _⟩ | h
    · rw [hr] at h
      cases h
    · rw [hs']
      exact .inl h
  update := hu
  sections := hsec
  instruction := hi

theorem keysLength_reads (hs : t.ctx.state = .verificationKeysLength) :
    wp (keysLength buf) (fun _ t' => Reads .keysLength t t') (fun _ _ => True) t := by
  simp only [keysLength, setState, wp_bind, Fw.wp_modifyCtx, wp_updateHash, wp_sendSuccessNoIdle]
  exact .move .verificationKeysLength .verificationKey hs rfl (by decide) (by decide) rfl (by simp) rfl

theorem handleVerificationKey_reads :
    wp (handleVerificationKey buf) (fun _ t' => Reads .keys t t') (fun _ _ => True) t := by
  simp only [handleVerificationKey, parseVerificationKey, setState, wp_bind, Fw.wp_getCtx,
    Fw.wp_throwIf, wp_updateHash, Fw.wp_eval, Fw.wp_modifyCtx, wp_ite, wp_uxFlowInit,
    wp_sendSuccessNoIdle, implies_true, and_true, true_and, not_not]
  rintro ⟨_, hs⟩ hex _
  constructor
  · intro _
    exact .move .verificationKey .verificationKey hs hs (by decide) (by decide) rfl (by simp) rfl
  · intro _
    exact .move .verificationKey .signatureThreshold hs rfl (by decide) (by decide) rfl (by simp) rfl

theorem handleSignatureThreshold_reads (hs : t.ctx.state = .signatureThreshold) :
    wp (handleSignatureThreshold buf) (fun _ t' => Reads .signatureThreshold t t')
      (fun _ _ => True) t := by
  simp only [handleSignatureThreshold, setState, wp_bind, Fw.wp_getCtx, Fw.wp_throwIf,
    wp_updateHash, Fw.wp_eval, Fw.wp_modifyCtx, wp_sendSuccessNoIdle, implies_true, and_true,
    true_and]
  intro _ text _ text' _
  exact .move .signatureThreshold .arIdentity hs rfl (by decide) (by decide) rfl (by simp) rfl

theorem handleArIdentity_reads (hs : t.ctx.state = .arIdentity) :
    wp (handleArIdentity buf) (fun _ t' => Reads .arIdentities t t') (fun _ _ => True) t := by
  simp only [handleArIdentity, setState, wp_bind, Fw.wp_getCtx, Fw.wp_throwIf, wp_updateHash,
    Fw.wp_when, Fw.wp_modifyCtx, wp_sendSuccessNoIdle, implies_true, true_and]
  intro _
  constructor
  · intro _
    exact .move .arIdentity .credentialDates hs rfl (by decide) (by decide) rfl (by simp) rfl
  · intro _
    exact .move .arIdentity .arIdentity hs hs (by decide) (by decide) rfl (by simp) rfl

theorem handleCredentialDates_reads (hs : t.ctx.state = .credentialDates) :
    wp (handleCredentialDates buf) (fun _ t' => Reads .dates t t') (fun _ _ => True) t := by
  simp only [handleCredentialDates, setState, wp_bind, wp_updateHash, Fw.wp_modifyCtx,
    wp_sendSuccessNoIdle]
  by_cases hz : (buf.advance 6).u2be 0 = 0
  · exact .move .credentialDates .lengthOfProofs hs (if_pos hz) (by decide) (by decide) rfl (by simp) rfl
  · exact .move .credentialDates .attributeTag hs (if_neg hz) (by decide) (by decide) rfl (by simp) rfl

theorem handleAttributeTag_reads (hs : t.ctx.state = .attributeTag) :
    wp (handleAttributeTag buf) (fun _ t' => Reads .attributes t t') (fun _ _ => True) t := by
  simp only [handleAttributeTag, setState, wp_bind, Fw.wp_getCtx, Fw.wp_throwIf, wp_updateHash,
    Fw.wp_modifyCtx, wp_sendSuccessNoIdle, implies_true, true_and]
  intro _
  exact .move .attributeTag .attributeValue hs rfl (by decide) (by decide) rfl (by simp) rfl

theorem handleAttributeValue_reads (hs : t.ctx.state = .attributeValue) :
    wp (handleAttributeValue buf) (fun _ t' => Reads .attributes t t') (fun _ _ => True) t := by
  simp only [handleAttributeValue, setState, wp_bind, Fw.wp_getCtx, wp_updateHash,
    Fw.wp_modifyCtx, wp_sendSuccessNoIdle]
  by_cases hz : t.ctx.attributeListLength - 1 = 0
  · exact .move .attributeValue .lengthOfProofs hs (if_pos hz) (by decide) (by decide) rfl (by simp) rfl
  · exact .move .attributeValue .attributeTag hs (if_neg hz) (by decide) (by decide) rfl (by simp) rfl

theorem handleLengthOfProofs_reads {p2 : UInt8} (hs : t.ctx.state = .lengthOfProofs) :
    wp (handleLengthOfProofs buf p2) (fun _ t' => Reads .lengthOfProofs t t')
      (fun _ _ => True) t := by
  simp only [handleLengthOfProofs, setState, wp_bind, wp_updateHash, Fw.wp_modifyCtx, Fw.wp_when,
    wp_sendSuccessNoIdle]
  constructor
  · intro _
    exact .move .lengthOfProofs .proofs hs rfl (by decide) (by decide) rfl (by simp) rfl
  · intro _
    exact .move .lengthOfProofs .proofs hs rfl (by decide) (by decide) rfl (by simp) rfl

theorem finishCredential_updateState {c : Context} {p2 : UInt8} (h : Updates c p2) :
    (c.finishCredential p2).updateCredentialState =
      if c.credentialDeploymentCount = 1 then .idCount else .credentialIndex := by
  unfold Updates at h
  unfold Context.finishCredential
  rw [if_pos h]
  simp only [count_sub]
  split <;> rfl

theorem handleProofs_reads {p2 : UInt8} (hs : t.ctx.state = .proofs) :
    wp (handleProofs buf p2) (fun _ t' => Reads .proofs t t' ∨ Finishes p2 t t')
      (fun _ _ => True) t := by
  simp only [handleProofs, wp_bind, Fw.wp_getCtx, wp_ite, wp_updateHash, Fw.wp_modifyCtx,
    wp_sendSuccessNoIdle]
  constructor
  · intro _
    exact .inl (.move .proofs .proofs hs hs (by decide) (by decide) rfl (by simp) rfl)
  · intro hlen
    by_cases hup : Updates t.ctx p2
    · have hstate := finishCredential_update hup
      have hupdate := finishCredential_updateState hup
      refine .inr ⟨hs, not_lt.mp hlen, hup, fun hlast => ?_, fun hmore => ?_, by simp, rfl⟩
      · rw [if_pos hlast] at hstate hupdate
        exact ⟨hstate, hupdate⟩
      · rw [if_neg hmore] at hstate hupdate
        exact ⟨hstate, hupdate⟩
    · refine .inl (.move .proofs .newOrExisting hs (finishCredential_deployment hup) (by decide)
        (by decide) ?_ (by simp) rfl)
      show (t.ctx.finishCredential p2).updateCredentialState = _
      unfold Updates at hup
      unfold Context.finishCredential
      rw [if_neg hup]

theorem withIntro_offers {b : Bool} {flow : List Step} (h : offersSign flow = true) :
    offersSign (withIntro b flow) = true := by
  cases b with
  | false => exact h
  | true =>
    show offersSign (uxReviewDetails :: flow) = true
    rw [offersSign, List.any_cons, show flow.any Step.signs = true from h, Bool.or_true]

theorem signDetails_offers (flow : List Step) : offersSign (flow ++ signDetails) = true := by
  rw [offersSign, List.any_append, show signDetails.any Step.signs = true from rfl, Bool.or_true]

theorem handleNewOrExisting_reads {sdk : Sdk} (hs : t.ctx.state = .newOrExisting) :
    wp (handleNewOrExisting sdk buf) (fun _ t' => Reads .newOrExisting t t')
      (fun _ _ => True) t := by
  have hreads {t' : Device Context} {s : Shared} {flow : List Step}
      (hs' : t'.ctx.state = .newOrExisting)
      (hu : t'.ctx.updateCredentialState = t.ctx.updateCredentialState)
      (hshared : t'.shared = s.uxFlowInit flow) (hflow : offersSign flow = true)
      (hsec : sections s = sections t.shared)
      (hi : s.currentInstruction = t.shared.currentInstruction) : Reads .newOrExisting t t' := by
    refine ⟨by rw [hs]; rfl, by rw [hs']; decide, fun _ => .inr ⟨rfl, ?_, ?_⟩, hu, ?_, ?_⟩
    · rw [hshared]
      exact hflow
    · rw [hshared, screens_uxFlowInit]
      simp
    · rw [hshared, sections_uxFlowInit]
      exact hsec
    · rw [hshared]
      exact hi
  simp only [handleNewOrExisting, wp_bind, Fw.wp_getCtx, wp_ite, wp_updateHash, Fw.wp_modifyCtx,
    Fw.wp_eval, wp_uxFlowInit, Fw.wp_throw, implies_true, and_true]
  constructor
  · intro _
    exact hreads hs rfl rfl (withIntro_offers (signDetails_offers _)) (by simp) rfl
  · intro _ _ text _
    refine hreads hs rfl rfl (withIntro_offers ?_) (by simp) rfl
    unfold uxSignCredentialDeploymentExisting
    rw [List.append_cons]
    exact signDetails_offers _

/-- What a packet of a credential does. -/
def Packet (p1 p2 : UInt8) (t t' : Device Context) : Prop :=
  Section.ofP1 p1 = none ∧ Begun t t' ∨
    ∃ s, Section.ofP1 p1 = some s ∧ (Reads s t t' ∨ s = .proofs ∧ Finishes p2 t t')

theorem Packet.wait {p1 p2 : UInt8} {t' : Device Context} (h : Packet p1 p2 t t') :
    Packet p1 p2 t ⟨t'.ctx, { t'.shared with asynchReply := true }⟩ := by
  rcases h with ⟨hp, h⟩ | ⟨s, hp, h | ⟨hs, h⟩⟩
  · exact .inl ⟨hp, h.state, h.next, h.update, h.sections, h.instruction⟩
  · exact .inr ⟨s, hp, .inl ⟨h.place, h.next, h.once, h.update, h.sections, h.instruction⟩⟩
  · exact .inr ⟨s, hp, .inr ⟨hs, h.state, h.length, h.updates, h.last, h.more, h.sections,
      h.instruction⟩⟩

theorem Reads.packet {s : Section} {p1 p2 : UInt8} {t' : Device Context}
    (hs : Section.ofP1 p1 = some s) (h : Reads s t t') : Packet p1 p2 t t' :=
  .inr ⟨s, hs, .inl h⟩

theorem initialPacket_begun (hs : t.ctx.state = .initial) :
    wp (initialPacket buf) (fun _ t' => Begun t t') (fun _ _ => True) t := by
  simp only [initialPacket, wp_bind, wp_parseKeyDerivationPath, wp_cxSha256Init, Fw.wp_modifyCtx,
    wp_sendSuccessNoIdle, implies_true, true_and]
  intro _
  exact ⟨hs, rfl, rfl, by simp, rfl⟩

theorem handleSignCredentialDeployment_packet (sdk : Sdk) (buf : Ptr) (p1 p2 : UInt8)
    (t : Device Context) :
    wp (handleSignCredentialDeployment sdk buf p1 p2 false) (fun _ t' => Packet p1 p2 t t')
      (fun _ _ => True) t := by
  unfold handleSignCredentialDeployment
  rw [wp_bind, Fw.wp_when]
  refine ⟨fun h => absurd h (by decide), fun _ => ?_⟩
  rw [wp_bind, Fw.wp_getCtx, wp_bind]
  -- the last action only keeps the reply back
  refine wp_mono (?_ : wp _ (fun (_ : PUnit.{1}) t' => Packet p1 p2 t t') (fun _ _ => True) t)
    (fun _ t' h => ?_) fun _ _ h => h
  · refine (wp_ite _ _ _).mpr ⟨?_, fun _ => ?_⟩
    · rintro ⟨rfl, hs⟩
      exact wp_mono (initialPacket_begun hs) (fun _ _ h => .inl ⟨rfl, h⟩) fun _ _ h => h
    refine (wp_ite _ _ _).mpr ⟨?_, fun _ => ?_⟩
    · rintro ⟨rfl, hs⟩
      exact wp_mono (keysLength_reads hs) (fun _ _ h => h.packet rfl) fun _ _ h => h
    refine (wp_ite _ _ _).mpr ⟨?_, fun _ => ?_⟩
    · rintro rfl
      exact wp_mono handleVerificationKey_reads (fun _ _ h => h.packet rfl) fun _ _ h => h
    refine (wp_ite _ _ _).mpr ⟨?_, fun _ => ?_⟩
    · rintro ⟨rfl, hs⟩
      exact wp_mono (handleSignatureThreshold_reads hs) (fun _ _ h => h.packet rfl) fun _ _ h => h
    refine (wp_ite _ _ _).mpr ⟨?_, fun _ => ?_⟩
    · rintro ⟨rfl, hs⟩
      exact wp_mono (handleArIdentity_reads hs) (fun _ _ h => h.packet rfl) fun _ _ h => h
    refine (wp_ite _ _ _).mpr ⟨?_, fun _ => ?_⟩
    · rintro ⟨rfl, hs⟩
      exact wp_mono (handleCredentialDates_reads hs) (fun _ _ h => h.packet rfl) fun _ _ h => h
    refine (wp_ite _ _ _).mpr ⟨?_, fun _ => ?_⟩
    · rintro ⟨rfl, hs⟩
      exact wp_mono (handleAttributeTag_reads hs) (fun _ _ h => h.packet rfl) fun _ _ h => h
    refine (wp_ite _ _ _).mpr ⟨?_, fun _ => ?_⟩
    · rintro ⟨rfl, hs⟩
      exact wp_mono (handleAttributeValue_reads hs) (fun _ _ h => h.packet rfl) fun _ _ h => h
    refine (wp_ite _ _ _).mpr ⟨?_, fun _ => ?_⟩
    · rintro ⟨rfl, hs⟩
      exact wp_mono (handleLengthOfProofs_reads hs) (fun _ _ h => h.packet rfl) fun _ _ h => h
    refine (wp_ite _ _ _).mpr ⟨?_, fun _ => ?_⟩
    · rintro ⟨rfl, hs⟩
      refine wp_mono (handleProofs_reads hs) (fun _ _ h => ?_) fun _ _ h => h
      exact .inr ⟨.proofs, rfl, h.imp (fun h => h) fun h => ⟨rfl, h⟩⟩
    refine (wp_ite _ _ _).mpr ⟨?_, fun _ => trivial⟩
    rintro ⟨rfl, hs⟩
    exact wp_mono (handleNewOrExisting_reads hs) (fun _ _ h => h.packet rfl) fun _ _ h => h
  · rw [wp_waitForButton]
    exact h.wait

/-- A command of an update that is not one of a credential. -/
structure Outside (p2 : UInt8) (t t' : Device Context) : Prop where
  other : p2 ≠ p2CredentialCredential
  update : p2 = p2CredentialCredentialIndex ∨ t'.ctx.updateCredentialState ≠ .credential
  state : t'.ctx.state = t.ctx.state
  sections : sections t'.shared = sections t.shared
  instruction : t'.shared.currentInstruction = t.shared.currentInstruction

theorem handleUpdateInitial_outside (sdk : Sdk) :
    wp (handleUpdateInitial sdk buf) (fun _ t' => Outside p2CredentialInitial t t')
      (fun _ _ => True) t := by
  simp only [handleUpdateInitial, setUpdateState, wp_bind, wp_parseKeyDerivationPath,
    wp_cxSha256Init, implies_true, true_and]
  intro _
  refine wp_header fun s hs => ?_
  have hsec : sections s = sections t.shared := by
    simp [sections, hs.log, sessionStep, sectionsStep]
  simp only [wp_bind, wp_updateHash, Fw.wp_modifyCtx, wp_uxFlowInit, wp_waitForButton]
  refine ⟨by decide, .inr ?_, rfl, ?_, hs.instruction⟩
  · split <;> simp
  · show sections (Shared.uxFlowInit _ _) = _
    rw [sections_uxFlowInit, sections_updateHash, hsec]

theorem handleCredentialIdCount_outside :
    wp (handleCredentialIdCount buf) (fun _ t' => Outside p2CredentialIdCount t t')
      (fun _ _ => True) t := by
  simp only [handleCredentialIdCount, setUpdateState, wp_bind, wp_updateHash, Fw.wp_modifyCtx,
    wp_sendSuccessNoIdle]
  refine ⟨by decide, .inr ?_, rfl, by simp, rfl⟩
  split <;> simp

theorem handleCredentialId_outside (hu : t.ctx.updateCredentialState = .id) :
    wp (handleCredentialId buf) (fun _ t' => Outside p2CredentialId t t') (fun _ _ => True) t := by
  simp only [handleCredentialId, setUpdateState, wp_bind, Fw.wp_getCtx, wp_updateHash, Fw.wp_eval,
    Fw.wp_when, Fw.wp_modifyCtx, wp_uxFlowInit, wp_waitForButton, implies_true, and_true]
  intro hex _
  constructor
  · intro _
    refine ⟨by decide, .inr (by simp), rfl, ?_, rfl⟩
    show sections (Shared.uxFlowInit _ _) = _
    simp
  · intro _
    refine ⟨by decide, .inr (by simp [hu]), rfl, ?_, rfl⟩
    show sections (Shared.uxFlowInit _ _) = _
    simp

theorem handleUpdateThreshold_outside (hu : t.ctx.updateCredentialState = .threshold) :
    wp (handleUpdateThreshold buf) (fun _ t' => Outside p2Threshold t t') (fun _ _ => True) t := by
  simp only [handleUpdateThreshold, wp_bind, wp_updateHash, Fw.wp_eval, Fw.wp_modifyCtx,
    wp_uxFlowInit, wp_waitForButton, implies_true, and_true]
  intro text _
  refine ⟨by decide, .inr (by simp [hu]), rfl, ?_, rfl⟩
  show sections (Shared.uxFlowInit _ _) = _
  simp

/-- What a command of an update does. -/
theorem handleSignUpdateCredential_packet (sdk : Sdk) (buf : Ptr) (p1 p2 : UInt8)
    (t : Device Context) :
    wp (handleSignUpdateCredential sdk buf p1 p2 false)
      (fun _ t' => p2 = p2CredentialCredential ∧ t.ctx.updateCredentialState = .credential ∧
          Packet p1 p2 t t' ∨ Outside p2 t t')
      (fun _ _ => True) t := by
  unfold handleSignUpdateCredential
  rw [wp_bind, Fw.wp_when]
  refine ⟨fun h => absurd h (by decide), fun _ => ?_⟩
  rw [wp_bind, Fw.wp_getCtx]
  refine (wp_ite _ _ _).mpr ⟨?_, fun _ => ?_⟩
  · rintro ⟨rfl, hu⟩
    exact wp_mono (handleUpdateInitial_outside sdk) (fun _ _ h => .inr h) fun _ _ h => h
  refine (wp_ite _ _ _).mpr ⟨?_, fun _ => ?_⟩
  · rintro ⟨rfl, hu, _⟩
    simp only [setUpdateState, wp_bind, wp_updateHash, Fw.wp_modifyCtx, wp_sendSuccessNoIdle]
    exact .inr ⟨by decide, .inl rfl, rfl, by simp, rfl⟩
  refine (wp_ite _ _ _).mpr ⟨?_, fun _ => ?_⟩
  · rintro ⟨rfl, hu, _⟩
    exact wp_mono (handleSignCredentialDeployment_packet sdk buf p1 _ t)
      (fun _ _ h => .inl ⟨rfl, hu, h⟩) fun _ _ h => h
  refine (wp_ite _ _ _).mpr ⟨?_, fun _ => ?_⟩
  · rintro ⟨rfl, hu⟩
    exact wp_mono handleCredentialIdCount_outside (fun _ _ h => .inr h) fun _ _ h => h
  refine (wp_ite _ _ _).mpr ⟨?_, fun _ => ?_⟩
  · rintro ⟨rfl, hu⟩
    exact wp_mono (handleCredentialId_outside hu) (fun _ _ h => .inr h) fun _ _ h => h
  refine (wp_ite _ _ _).mpr ⟨?_, fun _ => trivial⟩
  rintro ⟨rfl, hu⟩
  exact wp_mono (handleUpdateThreshold_outside hu) (fun _ _ h => .inr h) fun _ _ h => h

end Packets

/-! ## Sessions -/

/-- The sections read so far lie before the state, or are the one it reads. -/
def Front (t : Device Context) : Prop :=
  ∀ s ∈ sections t.shared, s.rank ≤ t.ctx.state.rank ∧
    (s.repeats = false → s.rank < t.ctx.state.rank ∨ s = .newOrExisting ∧ Offered t.shared)

/-- The invariant of a session. Between two credentials of an update the state is already the one
of the next, of which nothing has been read. -/
structure Ordered (ins : UInt8) (t : Device Context) : Prop where
  instruction : ∀ i, t.shared.currentInstruction = some i → i = ins
  order : InOrder (sections t.shared)
  front : t.shared.running = true → t.shared.currentInstruction = some ins →
    (ins = insSignUpdateCredential → t.ctx.updateCredentialState = .credential) → Front t

section Sessions

variable {t t' : Device Context} {a : Apdu}

theorem Front.mono (h : Front t) (hsec : sections t'.shared = sections t.shared)
    (hstate : t.ctx.state.rank ≤ t'.ctx.state.rank)
    (hoffer : Offered t.shared → Offered t'.shared) : Front t' := by
  intro s hs
  rw [hsec] at hs
  obtain ⟨hle, hlt⟩ := h s hs
  refine ⟨hle.trans hstate, fun hr => ?_⟩
  rcases hlt hr with h | ⟨h, ho⟩
  · exact .inl (Nat.lt_of_lt_of_le h hstate)
  · exact .inr ⟨h, hoffer ho⟩

/-- The sections before the one that the state reads. -/
theorem Front.before (h : Front t) {s : Section} (hs : s.rank = t.ctx.state.rank)
    (hagain : ¬ (s = .newOrExisting ∧ Offered t.shared)) {b : Section}
    (hb : b ∈ sections t.shared) : b.rank < s.rank ∨ b = s ∧ b.repeats = true := by
  obtain ⟨hle, hlt⟩ := h b hb
  rw [← hs] at hle hlt
  rcases Nat.lt_or_eq_of_le hle with hlt' | heq
  · exact .inl hlt'
  have hbs := Section.eq_of_rank heq
  cases hr : b.repeats with
  | true => exact .inr ⟨hbs, rfl⟩
  | false =>
    rcases hlt hr with hlt' | ⟨hnew, hoff⟩
    · exact .inl hlt'
    · exact absurd ⟨hbs.symm.trans hnew, hoff⟩ hagain

theorem inOrder_append {read : List Section} {s : Section} (h : InOrder read)
    (hs : ∀ b ∈ read, b.rank < s.rank ∨ b = s ∧ b.repeats = true) : InOrder (read ++ [s]) := by
  refine List.pairwise_append.mpr ⟨h, List.pairwise_singleton _ _, ?_⟩
  intro b hb c hc
  rw [List.mem_singleton.mp hc]
  exact hs b hb

theorem Front.after (h : ∀ b ∈ sections t.shared, b.rank < t.ctx.state.rank) : Front t :=
  fun b hb => ⟨(h b hb).le, fun _ => .inl (h b hb)⟩

theorem Section.rank_lt_stale (s : Section) : s.rank < State.stale.rank := by
  cases s <;> decide

/-- What a packet of a credential keeps. `t` is the state before the command. -/
theorem Packet.keeps (hp : Packet a.p1 a.p2 (entered t a) t') (hf : Front t)
    (ho : InOrder (sections t.shared)) (hagain : ¬ SentAgain t a)
    (hsec : sections (entered t a).shared = sections t.shared ++ (Section.ofP1 a.p1).toList) :
    InOrder (sections t'.shared) ∧ t'.shared.currentInstruction = t.shared.currentInstruction ∧
      (Front t' ∧ t.ctx.state.rank ≤ t'.ctx.state.rank ∧
          (t'.ctx.updateCredentialState = t.ctx.updateCredentialState ∨
            t'.ctx.updateCredentialState = .idCount) ∨
        a.p1 = p1Proofs ∧ Finishes a.p2 (entered t a) t' ∧ t.ctx.credentialDeploymentCount ≠ 1) := by
  rcases hp with ⟨hnone, hb⟩ | ⟨s, hs, h⟩
  · rw [hnone, Option.toList_none, List.append_nil] at hsec
    have hstate : t.ctx.state = .initial := hb.state
    have hle : t.ctx.state.rank ≤ t'.ctx.state.rank := by
      rw [hstate, hb.next]
      decide
    refine ⟨?_, hb.instruction, .inl ⟨fun b hbm => ?_, hle, .inl hb.update⟩⟩
    · rw [hb.sections, hsec]
      exact ho
    · -- nothing was read before the first packet
      rw [hb.sections, hsec] at hbm
      have hlow := (hf b hbm).1
      rw [hstate] at hlow
      cases b <;> exact absurd hlow (by decide)
  rw [hs, Option.toList_some] at hsec
  have hplace : s.rank = t.ctx.state.rank := by
    rcases h with h | ⟨rfl, h⟩
    · exact h.place
    · have hstate : t.ctx.state = .proofs := h.state
      rw [hstate]
      rfl
  have hlast : ¬ (s = .newOrExisting ∧ Offered t.shared) := by
    rintro ⟨rfl, hoff⟩
    exact hagain ⟨Section.p1_of_newOrExisting hs, State.eq_of_rank hplace.symm, hoff⟩
  have hsec' : sections t'.shared = sections t.shared ++ [s] := by
    rcases h with h | ⟨_, h⟩
    · exact h.sections.trans hsec
    · exact h.sections.trans hsec
  have hinstr : t'.shared.currentInstruction = t.shared.currentInstruction := by
    rcases h with h | ⟨_, h⟩
    · exact h.instruction
    · exact h.instruction
  refine ⟨?_, hinstr, ?_⟩
  · rw [hsec']
    exact inOrder_append ho fun b hb => hf.before hplace hlast hb
  rcases h with h | ⟨rfl, h⟩
  · have hnext := h.next
    refine .inl ⟨fun b hb => ?_, hplace ▸ h.next, .inl h.update⟩
    rw [hsec'] at hb
    rcases List.mem_append.mp hb with hb | hb
    · rcases hf.before hplace hlast hb with hlt | ⟨rfl, hr⟩
      · exact ⟨by omega, fun _ => .inl (by omega)⟩
      · refine ⟨hnext, fun hno => ?_⟩
        rw [hr] at hno
        cases hno
    · rw [List.mem_singleton.mp hb]
      exact ⟨h.next, h.once⟩
  · by_cases hcount : t.ctx.credentialDeploymentCount = 1
    · obtain ⟨hstate, hupdate⟩ := h.last hcount
      refine .inl ⟨.after fun b _ => ?_, ?_, .inr hupdate⟩
      · rw [hstate]
        exact b.rank_lt_stale
      · rw [← hplace, hstate]
        exact (Section.rank_lt_stale _).le
    · exact .inr ⟨Section.p1_of_proofs hs, h, hcount⟩

variable {ins : UInt8}

/-- A press of a shared step. -/
theorem Ordered.passed (h : Ordered ins t) (hp : Passed t t') : Ordered ins t' := by
  obtain ⟨as, hlog, hquiet⟩ := hp.log
  have hsec := sections_of_quiet hlog hquiet
  refine ⟨fun i hi => h.instruction i (hp.instruction i hi), ?_, fun hr hi hu => ?_⟩
  · rw [hsec]
    exact h.order
  · obtain ⟨hd, hcur, hrun, hscr⟩ := hp.goes_on hr (by rw [hi]; simp)
    rw [hcur] at hi
    rw [hp.ctx] at hu
    refine (h.front hrun hi hu).mono hsec (by rw [hp.ctx]) fun hoff => ?_
    exact ⟨by rw [hd]; exact hoff.1, by rw [hscr]; exact hoff.2⟩

/-- Continue, confirmed while the session is not past the threshold. -/
theorem Ordered.next (h : Ordered ins t)
    (hlate : t.ctx.numberOfVerificationKeys = 0 →
      t.ctx.state.rank ≤ State.signatureThreshold.rank) :
    Ordered ins (finish (processNextVerificationKey t)) ∧
      t.ctx.state.rank ≤ (finish (processNextVerificationKey t)).ctx.state.rank := by
  by_cases hz : t.ctx.numberOfVerificationKeys = 0
  · rw [processNext_last hz]
    have hle := hlate hz
    refine ⟨⟨h.instruction, ?_, fun hr hi hu => ?_⟩, hle⟩
    · show InOrder (sections (t.shared.reply [] success))
      rw [sections_reply]
      exact h.order
    · refine (h.front hr hi hu).mono (sections_reply _ _ _) hle fun hoff => ⟨hoff.1, ?_⟩
      show screens (t.shared.reply [] success) ≠ []
      rw [screens_reply]
      exact hoff.2
  · rw [processNext_more hz]
    exact ⟨h.passed (.reply t [] success), le_refl _⟩

theorem sections_entered (d : Device Context) (c : Apdu) :
    sections (entered d c).shared =
      sectionsStep (sections d.shared) (.handler c.ins c.p1 c.p2 c.data) :=
  sections_handler _ _ _ _ _

/-- A command of the deployment. -/
theorem Ordered.deployment (h : Ordered insCredentialDeployment t)
    (hr : t.shared.running = true) (hi : t.shared.currentInstruction = some insCredentialDeployment)
    (ha : a.ins = insCredentialDeployment) (hs : Steady t (.command a))
    (hp : Packet a.p1 a.p2 (entered t a) t') :
    Ordered insCredentialDeployment t' ∧ t.ctx.state.rank ≤ t'.ctx.state.rank := by
  have hsec := sections_entered t a
  rw [sectionsStep, ha, if_neg (by decide)] at hsec
  obtain ⟨ho, hinstr, ⟨hf, hle, _⟩ | ⟨hp1, hfin, hcount⟩⟩ :=
    hp.keeps (h.front hr hi fun hno => absurd hno (by decide)) h.order hs.2 hsec
  · refine ⟨⟨fun i hi' => ?_, ho, fun _ _ _ => hf⟩, hle⟩
    rw [hinstr] at hi'
    exact h.instruction i hi'
  · exact absurd ⟨ha, hp1, hfin.state, hfin.length, hfin.updates, hcount⟩ hs.1

/-- A command of the update. -/
theorem Ordered.update (h : Ordered insSignUpdateCredential t)
    (hr : t.shared.running = true) (hi : t.shared.currentInstruction = some insSignUpdateCredential)
    (ha : a.ins = insSignUpdateCredential) (hs : Steady t (.command a))
    (hp : a.p2 = p2CredentialCredential ∧ t.ctx.updateCredentialState = .credential ∧
        Packet a.p1 a.p2 (entered t a) t' ∨ Outside a.p2 (entered t a) t') :
    Ordered insSignUpdateCredential t' ∧ Forward t t' := by
  have hsec := sections_entered t a
  rw [sectionsStep, if_pos ha] at hsec
  rcases hp with ⟨hp2, hu, hp⟩ | hout
  · rw [hp2, if_neg (by decide), if_pos rfl] at hsec
    obtain ⟨ho, hinstr, hcase⟩ := hp.keeps (h.front hr hi fun _ => hu) h.order hs.2 hsec
    have hinstr' : ∀ i, t'.shared.currentInstruction = some i → i = insSignUpdateCredential := by
      rw [hinstr]
      exact h.instruction
    rcases hcase with ⟨hf, hle, _⟩ | ⟨_, hfin, hcount⟩
    · exact ⟨⟨hinstr', ho, fun _ _ _ => hf⟩, .inl hle⟩
    · obtain ⟨hstate, hupdate⟩ := hfin.more hcount
      refine ⟨⟨hinstr', ho, fun _ _ hno => ?_⟩, .inr ⟨hi, hfin.state, hstate, hupdate⟩⟩
      rw [hupdate] at hno
      cases hno rfl
  · have hle : t.ctx.state.rank ≤ t'.ctx.state.rank := by
      rw [hout.state]
      exact le_refl _
    have hinstr' : ∀ i, t'.shared.currentInstruction = some i → i = insSignUpdateCredential := by
      rw [hout.instruction]
      exact h.instruction
    by_cases hindex : a.p2 = p2CredentialCredentialIndex
    · -- the next credential begins
      rw [if_pos hindex] at hsec
      have hnone := hout.sections.trans hsec
      refine ⟨⟨hinstr', ?_, fun _ _ _ => ?_⟩, .inl hle⟩
      · rw [hnone]
        exact .nil
      · intro s hmem
        rw [hnone] at hmem
        cases hmem
    · rw [if_neg hindex, if_neg hout.other] at hsec
      refine ⟨⟨hinstr', ?_, fun _ _ hu => ?_⟩, .inl hle⟩
      · rw [hout.sections, hsec]
        exact h.order
      · rcases hout.update with hno | hno
        · exact absurd hno hindex
        · exact absurd (hu rfl) hno

theorem opened_sections (d : Device Context) (c : Apdu) :
    sections (opened d c).shared = sectionsStep [] (.handler c.ins c.p1 c.p2 c.data) := by
  simp [opened, sections, Shared.act, Shared.setInstruction, sessionStep]

theorem Ordered.of_none (hi : t.shared.currentInstruction = some ins)
    (h : sections t.shared = []) : Ordered ins t where
  instruction := by
    intro i hi'
    rw [hi] at hi'
    exact (Option.some.inj hi').symm
  order := by
    rw [h]
    exact .nil
  front := by
    intro _ _ _ s hs
    rw [h] at hs
    cases hs

/-- The first command of a deployment. -/
theorem deployment_opens (sdk : Sdk) (ha : a.ins = insCredentialDeployment) :
    wp (handleSignCredentialDeployment sdk a.cdata a.p1 a.p2 true)
      (fun _ t' => Ordered insCredentialDeployment t') (fun _ _ => True) (opened t a) := by
  have hsec := opened_sections t a
  rw [sectionsStep, ha, if_neg (by decide), List.nil_append] at hsec
  have hpacket := handleSignCredentialDeployment_packet sdk a.cdata a.p1 a.p2
    ⟨{ t.ctx with state := .initial }, (opened t a).shared⟩
  refine wp_mono hpacket (fun _ t' hp => ?_) fun _ _ h => h
  rcases hp with ⟨hnone, hb⟩ | ⟨s, _, hr | ⟨_, hf⟩⟩
  · refine .of_none (hb.instruction.trans (congrArg some ha)) (hb.sections.trans ?_)
    rw [hsec, hnone]
    rfl
  · -- no section is read in the first state
    have hplace : s.rank = 0 := hr.place
    cases s <;> cases hplace
  · cases hf.state

/-- The first command of an update. -/
theorem update_opens (sdk : Sdk) (ha : a.ins = insSignUpdateCredential) :
    wp (handleSignUpdateCredential sdk a.cdata a.p1 a.p2 true)
      (fun _ t' => Ordered insSignUpdateCredential t') (fun _ _ => True) (opened t a) := by
  have hsec := opened_sections t a
  rw [sectionsStep, if_pos ha, List.nil_append] at hsec
  have hpacket := handleSignUpdateCredential_packet sdk a.cdata a.p1 a.p2
    ⟨{ t.ctx with updateCredentialState := .initial, state := .verificationKeysLength },
      (opened t a).shared⟩
  refine wp_mono hpacket (fun _ t' hp => ?_) fun _ _ h => h
  rcases hp with ⟨_, hu, _⟩ | hout
  · cases hu
  · refine .of_none (hout.instruction.trans (congrArg some ha)) (hout.sections.trans ?_)
    rw [hsec, if_neg hout.other]
    exact ite_self _

end Sessions

/-! ## Runs -/

section Runs

variable {sdk : Sdk} {u : InstructionContext μ} {d₀ d₁ d d' : Device μ} {first : Apdu}
  {ins : UInt8}

theorem mainHandler_update {a : Apdu} {b : Bool} (h : a.ins = insSignUpdateCredential) :
    (mainApp sdk u).handler a b = Fw.on u.signCredentialDeploymentContext
      (handleSignUpdateCredential sdk a.cdata a.p1 a.p2 b) := by
  show mainHandler sdk u a b = _
  unfold mainHandler
  rw [h]
  rfl

theorem begins_ordered (hins : ins = insCredentialDeployment ∨ ins = insSignUpdateCredential)
    (hb : begins (mainApp sdk u) ins d₀ first d₁) :
    Ordered ins (d₁.view u.signCredentialDeploymentContext) := by
  obtain ⟨_, hi, hh⟩ := begins_handler hb
  rcases hins with rfl | rfl
  · rw [mainHandler_credential sdk u hi] at hh
    have ho := of_wp_ok (deployment_opens (t := d₀.view u.signCredentialDeploymentContext) sdk hi)
      (Fw.view_of_on hh)
    exact ho
  · rw [mainHandler_update hi] at hh
    have ho := of_wp_ok (update_opens (t := d₀.view u.signCredentialDeploymentContext) sdk hi)
      (Fw.view_of_on hh)
    exact ho

/-- One event of a session. -/
theorem Ordered.step (hins : ins = insCredentialDeployment ∨ ins = insSignUpdateCredential)
    (h : Ordered ins (d.view u.signCredentialDeploymentContext)) {e : Event}
    (hs : Steady (d.view u.signCredentialDeploymentContext) e)
    (hd : withinSession (mainApp sdk u) d e = some d') :
    Ordered ins (d'.view u.signCredentialDeploymentContext) ∧
      Forward (d.view u.signCredentialDeploymentContext)
        (d'.view u.signCredentialDeploymentContext) := by
  cases e with
  | command a =>
    obtain ⟨hr, hi, hh⟩ := commandStep_handler hd
    have ha := h.instruction a.ins hi
    rcases hins with rfl | rfl
    · rw [mainHandler_credential sdk u ha] at hh
      have hp := of_wp_ok (handleSignCredentialDeployment_packet sdk a.cdata a.p1 a.p2 _)
        (Fw.view_of_on hh)
      rw [ha] at hi
      obtain ⟨ho, hle⟩ := h.deployment hr hi ha hs hp
      exact ⟨ho, .inl hle⟩
    · rw [mainHandler_update ha] at hh
      have hp := of_wp_ok (handleSignUpdateCredential_packet sdk a.cdata a.p1 a.p2 _)
        (Fw.view_of_on hh)
      rw [ha] at hi
      exact h.update hr hi ha hs hp
  | press i =>
    have hpress : (if d.shared.running = true ∧ d.shared.currentInstruction ≠ none then
        some (finish ((mainApp sdk u).callback (d.shared.pressed i) d)) else none) = some d' := hd
    split at hpress
    · obtain rfl := Option.some.inj hpress
      rcases hs with hcb | ⟨hcb, hlate⟩
      · have hcb' : (d.shared.pressed i).isShared = true := hcb
        have hp : Passed (d.view u.signCredentialDeploymentContext) (finish (sharedCallback sdk
            (fun _ => Pure.pure ⟨⟩) (d.shared.pressed i)
            (d.view u.signCredentialDeploymentContext))) :=
          sharedCallback_passed (d.view u.signCredentialDeploymentContext) sdk hcb'
        rw [← finish_view (Views.sharedCallback u.signCredentialDeploymentContext sdk hcb') d] at hp
        exact ⟨h.passed hp, .inl (le_of_eq (congrArg (fun c => c.state.rank) hp.ctx).symm)⟩
      · have hcb' : d.shared.pressed i = .processNextVerificationKey := hcb
        rw [hcb']
        obtain ⟨ho, hle⟩ := h.next hlate
        rw [← finish_view (Views.on u.signCredentialDeploymentContext processNextVerificationKey) d]
          at ho hle
        exact ⟨ho, .inl hle⟩
    · cases hpress
  | noApdu => cases hd

/-- In a session whose events are all steady, whatever the order of its commands and presses, the
sections of each credential are read in their order and hashed once, and no event leads back. -/
theorem credential_read_in_order
    (hins : ins = insCredentialDeployment ∨ ins = insSignUpdateCredential)
    (hb : begins (mainApp sdk u) ins d₀ first d₁)
    (hrun : Run (withinSession (mainApp sdk u))
      (fun d e => Steady (d.view u.signCredentialDeploymentContext) e) d₁ d) :
    InOrder (sections d.shared) ∧ HashedOnce (hashed d.shared) ∧
      ∀ e d', Steady (d.view u.signCredentialDeploymentContext) e →
        withinSession (mainApp sdk u) d e = some d' →
        Forward (d.view u.signCredentialDeploymentContext)
          (d'.view u.signCredentialDeploymentContext) := by
  have h : Ordered ins (d.view u.signCredentialDeploymentContext) :=
    hrun.invariant (P := fun d => Ordered ins (d.view u.signCredentialDeploymentContext))
      (begins_ordered hins hb) fun _ _ _ ht hC hs => (ht.step hins hC hs).1
  exact ⟨h.order, h.order.hashedOnce, fun _ _ hs hd => (h.step hins hs hd).2⟩

/-- A deployment with two keys: the first key is confirmed before the second one is sent. -/
def twoKeys : List Event :=
  [ .command (credentialCommand p1VerificationKeyLength 0 [2]),
    .command (credentialCommand p1VerificationKey 0 (List.replicate 34 0)),
    .press 2,
    .command (credentialCommand p1VerificationKey 0 (List.replicate 34 1)),
    .command (credentialCommand p1SignatureThreshold 0 (1 :: List.replicate 52 0 ++ [1, 0, 1])) ]

theorem twoKeys_read_in_order : ∃ d₁ d,
    begins (mainApp zeroAddressSdk Contexts.layout) insCredentialDeployment bootedDevice
      credentialPacket d₁ ∧
    Run (withinSession (mainApp zeroAddressSdk Contexts.layout))
      (fun d e => Steady (d.view Contexts.layout.signCredentialDeploymentContext) e) d₁ d ∧
    sections d.shared = [.keysLength, .keys, .keys, .signatureThreshold] ∧
    InOrder (sections d.shared) ∧ HashedOnce (hashed d.shared) := by
  have hex : ((opening (mainApp zeroAddressSdk Contexts.layout) bootedDevice credentialPacket).any
      fun d₁ => (exec (guarded (withinSession (mainApp zeroAddressSdk Contexts.layout))
        fun d e => Steady (d.view Contexts.layout.signCredentialDeploymentContext) e) d₁
          twoKeys).any fun d =>
        sections d.shared = [.keysLength, .keys, .keys, .signatureThreshold]) = true := by
    decide
  obtain ⟨d₁, hd₁, hex⟩ := (Option.any_eq_true _ _).mp hex
  obtain ⟨d, hd, hsec⟩ := (Option.any_eq_true _ _).mp hex
  have hb : begins (mainApp zeroAddressSdk Contexts.layout) insCredentialDeployment bootedDevice
      credentialPacket d₁ := ⟨⟨rfl, rfl, rfl⟩, rfl, hd₁⟩
  have hrun := exec_run hd
  obtain ⟨horder, honce, _⟩ := credential_read_in_order (.inl rfl) hb hrun
  exact ⟨d₁, d, hb, hrun, of_decide_eq_true hsec, horder, honce⟩

/-- The first key is confirmed after the threshold was sent, which leads back to it. -/
def confirmedLate : List Event :=
  [ .command (credentialCommand p1VerificationKeyLength 0 [2]),
    .command (credentialCommand p1VerificationKey 0 (List.replicate 34 0)),
    .command (credentialCommand p1VerificationKey 0 (List.replicate 34 1)),
    .command (credentialCommand p1SignatureThreshold 0 (1 :: List.replicate 52 0 ++ [1, 0, 1])),
    .press 2,
    .command (credentialCommand p1SignatureThreshold 0 (2 :: List.replicate 52 0 ++ [1, 0, 1])) ]

theorem confirmedLate_hashes_twice :
    ¬ ∀ d₁ d, begins (mainApp zeroAddressSdk Contexts.layout) insCredentialDeployment bootedDevice
        credentialPacket d₁ →
      Run (withinSession (mainApp zeroAddressSdk Contexts.layout)) (fun _ _ => True) d₁ d →
      InOrder (sections d.shared) ∧ HashedOnce (hashed d.shared) ∧
        ∀ e d', withinSession (mainApp zeroAddressSdk Contexts.layout) d e = some d' →
          Forward (d.view Contexts.layout.signCredentialDeploymentContext)
            (d'.view Contexts.layout.signCredentialDeploymentContext) := by
  intro h
  have hex : ((opening (mainApp zeroAddressSdk Contexts.layout) bootedDevice credentialPacket).any
      fun d₁ => (exec (guarded (withinSession (mainApp zeroAddressSdk Contexts.layout))
        fun _ _ => True) d₁ confirmedLate).any fun d => !decide (HashedOnce (hashed d.shared)))
        = true := by
    decide
  obtain ⟨d₁, hd₁, hex⟩ := (Option.any_eq_true _ _).mp hex
  obtain ⟨d, hd, hno⟩ := (Option.any_eq_true _ _).mp hex
  have honce := (h d₁ d ⟨⟨rfl, rfl, rfl⟩, rfl, hd₁⟩ (exec_run hd)).2.1
  exact absurd honce (by simpa using hno)

end Runs

end SignCredentialDeployment
end ConcordiumLedger
