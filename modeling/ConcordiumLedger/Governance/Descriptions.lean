import ConcordiumLedger.Governance.DescriptionParts
import ConcordiumLedger.Lib.Encoding
import Mathlib.Data.List.Forall2

/-!
# Governance.Descriptions

The declared length of an identity provider or an anonymity revoker is the length of what is
signed.

* `SignedAsDeclared` — what holds when the Sign step is displayed.
* `AddsUp`           — when the lengths agree.
* `ChunksReadable`   — when the screens show what was hashed.
* `Phase`            — where a session of either update is.
-/

namespace ConcordiumLedger

open CMem CProg CProg.Prog Transition DescriptionView WithDescription

/-! ## What the property says -/

namespace DescriptionView

/-- The length that the first command declares. -/
def payloadLengthOf (first : Apdu) : UInt32 := (updatePayload first.cdata).u4be 0

/-- The bytes that were hashed after it. -/
def payloadOf (s : Shared) : List UInt8 := s.hash.drop 33

/-- The number of bytes of the parts that the commands declare, with their lengths. -/
def declaredBytes (parts : List Part) : Nat := (parts.map fun p => 4 + p.declared).sum

/-- A Sign step of a session that goes on is displayed. -/
def SignUp (s : Shared) : Prop :=
  s.running = true ∧ s.currentInstruction ≠ none ∧ offersSign s.display = true

/-- The declared length was hashed in front of as many bytes: the identity, the three parts, each
as long as declared, and the keys. Each chunk was shown under the title of its part. -/
structure SignedAsDeclared (first : Apdu) (s : Shared) : Prop where
  start : s.hash.take 33 =
    updateHeaderOf first.cdata ++ beBytes 4 (payloadLengthOf first).toNat
  length : (payloadLengthOf first).toNat = (payloadOf s).length
  sum : (payloadOf s).length = 4 + declaredBytes (reading s).parts + (reading s).keyBytes
  complete : ∀ p ∈ (reading s).parts, p.Complete
  shown : List.Forall₂ Part.ShownUnder allHeaders (reading s).parts

/-- Each chunk of the description is one that its array can show. -/
def ChunksReadable (s : Shared) : Prop := ∀ p ∈ (reading s).parts, ∀ c ∈ p.chunks, Readable c.1

instance (s : Shared) : Decidable (ChunksReadable s) := by
  unfold ChunksReadable
  infer_instance

/-- The identity provider counts in 32 bits, the anonymity revoker not at all. -/
def AddsUp (ins : UInt8) (first : Apdu) (s : Shared) : Prop :=
  if ins = insAddIdentityProvider then
    4 + declaredBytes (reading s).parts + (reading s).keyBytes < 2 ^ 32
  else (payloadLengthOf first).toNat = 4 + declaredBytes (reading s).parts + 96

instance (ins : UInt8) (first : Apdu) (s : Shared) : Decidable (AddsUp ins first s) := by
  unfold AddsUp
  infer_instance

/-! ## Phases -/

/-- The payload bytes read so far, without the length. -/
def bytesRead (s : Shared) : Nat := 4 + partsBytes (reading s).parts + (reading s).keyBytes

/-- What the sessions of both updates have in common. -/
structure Update (γ : Type) extends Outer γ where
  ins : UInt8
  AwaitsLastKey : γ → Prop
  /-- What the counters say after some payload bytes, of which some are key bytes. -/
  Counts : UInt32 → Nat → Nat → γ → Prop
  /-- What is known of the bytes when the Sign step is displayed. -/
  Signs : UInt32 → Nat → Nat → Prop
  counts_moved : ∀ {L : UInt32} {n keyBytes m : Nat} {c c' : γ}, Counts L n keyBytes c →
    payloadLength c' = payloadLength c - .ofNat m → Counts L (n + m) keyBytes c'

/-- The hash input so far. -/
def Base (first : Apdu) (s : Shared) : Prop :=
  ∃ rest, s.hash = updateHeaderOf first.cdata ++ beBytes 4 (payloadLengthOf first).toNat ++ rest ∧
    rest.length = bytesRead s

variable {γ : Type}

/-- Where a session is. -/
inductive Phase (up : Update γ) (k : Nat) (first : Apdu) (t : Device (WithDescription γ)) : Prop
  | described (h : Described up.toOuter k t) (base : Base first t.shared)
      (counts : up.Counts (payloadLengthOf first) (bytesRead t.shared) (reading t.shared).keyBytes
        t.ctx.inner)
  | lastKey (awaits : up.AwaitsLastKey t.ctx.inner) (base : Base first t.shared)
      (settled : Settled k allHeaders (reading t.shared).parts)
      (counts : up.Counts (payloadLengthOf first) (bytesRead t.shared) (reading t.shared).keyBytes
        t.ctx.inner)
      (display : Only [.none, .sendSuccessNoIdle] t.shared.display)
  | signing (signing : Signing t) (base : Base first t.shared)
      (settled : Settled k allHeaders (reading t.shared).parts)
      (signs : up.Signs (payloadLengthOf first) (bytesRead t.shared) (reading t.shared).keyBytes)

def Own (cb : Callback) : Prop := cb.isShared = true ∨ cb = .handleDescriptionPart

structure Inv (up : Update γ) (k : Nat) (first : Apdu) (t : Device (WithDescription γ)) : Prop where
  instruction : ∀ i, t.shared.currentInstruction = some i → i = up.ins
  own : ∀ st ∈ t.shared.display, Own st.callback
  active : t.shared.running = true → t.shared.currentInstruction ≠ none → Phase up k first t

section Phases

variable {up : Update γ} {k : Nat} {first : Apdu} {t t' : Device (WithDescription γ)}

theorem Base.moved (h : Base first t.shared) (hm : Moved up.toOuter t t') :
    Base first t'.shared ∧ ∃ n, bytesRead t'.shared = bytesRead t.shared + n ∧
      up.payloadLength t'.ctx.inner = up.payloadLength t.ctx.inner - .ofNat n := by
  obtain ⟨rest, hhash, hrest⟩ := h
  obtain ⟨bytes, hb, hparts, hpay⟩ := hm.bytes
  have htotal : bytesRead t'.shared = bytesRead t.shared + bytes.length := by
    rw [bytesRead, bytesRead, hparts, hm.keyBytes]
    omega
  refine ⟨⟨rest ++ bytes, ?_, ?_⟩, bytes.length, htotal, hpay⟩
  · rw [hb, hhash, List.append_assoc]
  · rw [List.length_append, htotal, hrest]

/-- A step of the description. -/
theorem Phase.moved {k' : Nat} (h : Described up.toOuter k' t') (hm : Moved up.toOuter t t')
    (base : Base first t.shared)
    (counts : up.Counts (payloadLengthOf first) (bytesRead t.shared) (reading t.shared).keyBytes
      t.ctx.inner) : Phase up k' first t' := by
  obtain ⟨hbase, n, htotal, hpay⟩ := base.moved hm
  refine .described h hbase ?_
  rw [htotal, hm.keyBytes]
  exact up.counts_moved counts hpay

theorem Described.display (h : Described up.toOuter k t) :
    Only [.none, .sendSuccessNoIdle, .handleDescriptionPart] t.shared.display := by
  cases h with
  | waiting _ _ _ display _ => exact display
  | receiving _ _ _ _ _ _ _ _ _ display => exact display
  | shown _ _ _ _ _ display => exact display.mono (by simp)
  | keys _ _ _ _ display => exact display

/-- The callbacks of both updates. -/
def describedCallback : Callback → Fw (WithDescription γ) PUnit
  | .handleDescriptionPart => handleDescriptionPart
  | _ => Pure.pure ⟨⟩

theorem own_of_only {cbs : List Callback} {flow : List Step} (h : Only cbs flow)
    (hcbs : ∀ cb ∈ cbs, Own cb) : ∀ st ∈ flow, Own st.callback := fun st hst => hcbs _ (h st hst)

/-- A step of the session after which the display is the same. -/
theorem Inv.step {k' : Nat} (h : Inv up k first t)
    (hi : t'.shared.currentInstruction = t.shared.currentInstruction)
    (hd : t'.shared.display = t.shared.display) (hp : Phase up k' first t') :
    Inv up k' first t' where
  instruction := by
    rw [hi]
    exact h.instruction
  own := by
    rw [hd]
    exact h.own
  active := fun _ _ => hp

theorem Base.reply {s : Shared} (h : Base first s) : Base first (s.reply [] success) ∧
    bytesRead (s.reply [] success) = bytesRead s := by
  have htotal : bytesRead (s.reply [] success) = bytesRead s := by rw [bytesRead, bytesRead, reading_reply]
  obtain ⟨rest, hhash, hrest⟩ := h
  exact ⟨⟨rest, hhash, hrest.trans htotal.symm⟩, htotal⟩

/-- A screen that is not one of a part. -/
theorem Base.displayed {s : Shared} (h : Base first s)
    (hp : (reading s).p1 ≠ SignAddIdentityProvider.p1Description) (flow : List Step) :
    Base first (s.uxFlowInit flow) ∧ bytesRead (s.uxFlowInit flow) = bytesRead s ∧
      reading (s.uxFlowInit flow) = reading s := by
  have hr : reading (s.uxFlowInit flow) = reading s := by
    rw [reading_uxFlowInit, Reading.displayed, if_neg hp]
  have htotal : bytesRead (s.uxFlowInit flow) = bytesRead s := by rw [bytesRead, bytesRead, hr]
  obtain ⟨rest, hhash, hrest⟩ := h
  exact ⟨⟨rest, hhash, hrest.trans htotal.symm⟩, htotal, hr⟩

theorem Inv.press (h : Inv up k first t) (sdk : Sdk) (i : Nat) (hr : t.shared.running = true)
    (hne : t.shared.currentInstruction ≠ none) :
    (¬ Skips t (.press i) →
      Inv up k first (finish (sharedCallback sdk describedCallback (t.shared.pressed i) t))) ∧
    (Skips t (.press i) →
      Inv up (k + 1) first
        (finish (sharedCallback sdk describedCallback (t.shared.pressed i) t))) := by
  have hshared (hp : t.shared.pressed i ≠ .handleDescriptionPart)
      (hinv : Inv up k first (finish (sharedCallback sdk describedCallback (t.shared.pressed i) t))) :
      (¬ Skips t (.press i) →
        Inv up k first (finish (sharedCallback sdk describedCallback (t.shared.pressed i) t))) ∧
      (Skips t (.press i) →
        Inv up (k + 1) first
          (finish (sharedCallback sdk describedCallback (t.shared.pressed i) t))) :=
    ⟨fun _ => hinv, fun hsk => absurd hsk.1 hp⟩
  cases h.active hr hne with
  | described hd base counts =>
    have hm := pressed_mem hd.display (by decide) i
    simp only [List.mem_cons, List.not_mem_nil, or_false] at hm
    rcases hm with hp | hp | hp
    · refine hshared (by rw [hp]; decide) ?_
      rw [hp]
      exact h
    · refine hshared (by rw [hp]; decide) ?_
      have hmoved : Moved up.toOuter t ⟨t.ctx, t.shared.reply [] success⟩ := .reply t _ rfl
      rw [hp]
      exact h.step rfl rfl (.moved (hd.reply hp) hmoved base counts)
    · obtain ⟨t', hok, hmoved, hsame, hkeep, hskip⟩ := hd.next hp
      have hfin : finish (sharedCallback sdk describedCallback (t.shared.pressed i) t) = t' := by
        rw [hp]
        show finish (handleDescriptionPart t) = t'
        rw [hok]
        rfl
      rw [hfin]
      exact ⟨fun hno => h.step hmoved.instruction hsame (.moved (hkeep hno) hmoved base counts),
        fun hsk => h.step hmoved.instruction hsame (.moved (hskip hsk) hmoved base counts)⟩
  | lastKey awaits base settled counts display =>
    have hm := pressed_mem display (by decide) i
    simp only [List.mem_cons, List.not_mem_nil, or_false] at hm
    rcases hm with hp | hp
    · refine hshared (by rw [hp]; decide) ?_
      rw [hp]
      exact h
    · refine hshared (by rw [hp]; decide) ?_
      rw [hp]
      obtain ⟨hbase, htotal⟩ := base.reply
      refine h.step rfl rfl (.lastKey awaits hbase ?_ ?_ display)
      · show Settled k allHeaders (reading (t.shared.reply [] success)).parts
        rw [reading_reply]
        exact settled
      · show up.Counts _ (bytesRead (t.shared.reply [] success))
          (reading (t.shared.reply [] success)).keyBytes _
        rw [htotal, reading_reply]
        exact counts
  | signing hsign base settled signs =>
    have hm := pressed_mem hsign.only (by decide) i
    have hne' : t.shared.pressed i ≠ .handleDescriptionPart := by
      intro hp
      rw [hp] at hm
      exact absurd hm (by decide)
    refine hshared hne' ?_
    rcases hsign.press sdk describedCallback i with hstay | hend
    · rw [hstay]
      exact h
    · have hcb : (t.shared.pressed i).isShared = true := by
        simp only [List.mem_cons, List.not_mem_nil, or_false] at hm
        rcases hm with hp | hp | hp <;> rw [hp] <;> rfl
      have hpass : Passed t
          (finish (sharedCallback sdk describedCallback (t.shared.pressed i) t)) :=
        sharedCallback_passed t sdk hcb
      refine ⟨fun i hi => h.instruction i (hpass.instruction i hi), ?_,
        fun hr' hne'' => absurd (hend hr') hne''⟩
      rcases hpass.display with ⟨_, hd⟩ | hd
      · rw [hd]
        exact h.own
      · rw [hd]
        exact fun st hst => .inl (uxMenuIdleFlow_shared st hst)

/-! ### Commands -/

theorem reading_entered (t : Device (WithDescription γ)) (a : Apdu) :
    reading (entered t a).shared = { reading t.shared with p1 := a.p1 } :=
  reading_handler _ _ _ _ _

theorem Base.entered (h : Base first t.shared) (a : Apdu) : Base first (entered t a).shared := by
  obtain ⟨rest, hhash, hrest⟩ := h
  refine ⟨rest, hhash, ?_⟩
  rw [hrest, bytesRead, bytesRead, reading_entered]

theorem bytesRead_entered (t : Device (WithDescription γ)) (a : Apdu) :
    bytesRead (entered t a).shared = bytesRead t.shared := by
  rw [bytesRead, bytesRead, reading_entered]

theorem Inv.of_phase (hi : t.shared.currentInstruction = some up.ins) (hp : Phase up k first t) :
    Inv up k first t where
  instruction := by
    intro i hi'
    rw [hi] at hi'
    exact (Option.some.inj hi').symm
  own := by
    cases hp with
    | described h _ _ =>
      exact own_of_only h.display (by simp [Own, Callback.isShared])
    | lastKey _ _ _ _ display => exact own_of_only display (by simp [Own, Callback.isShared])
    | signing hsign _ _ _ => exact own_of_only hsign.only (by simp [Own, Callback.isShared])
  active := fun _ _ => hp

/-- Key bytes that a command hashes. -/
theorem Base.keys {s s' : Shared} {bytes : List UInt8} (h : Base first s)
    (hhash : s'.hash = s.hash ++ bytes)
    (hread : reading s' = { reading s with keyBytes := (reading s).keyBytes + bytes.length }) :
    Base first s' ∧ bytesRead s' = bytesRead s + bytes.length := by
  obtain ⟨rest, hh, hrest⟩ := h
  have htotal : bytesRead s' = bytesRead s + bytes.length := by
    rw [bytesRead, hread, bytesRead]
    show 4 + partsBytes (reading s).parts + ((reading s).keyBytes + bytes.length) = _
    omega
  refine ⟨⟨rest ++ bytes, ?_, ?_⟩, htotal⟩
  · rw [hhash, hh, List.append_assoc]
  · rw [List.length_append, htotal, hrest]

theorem Reading.hashed_key {r : Reading} (h0 : r.p1 ≠ SignAddIdentityProvider.p1Initial)
    (h1 : r.p1 ≠ SignAddIdentityProvider.p1DescriptionLength)
    (h2 : r.p1 ≠ SignAddIdentityProvider.p1Description) (bytes : List UInt8) :
    r.hashed bytes = { r with keyBytes := r.keyBytes + bytes.length } := by
  rw [Reading.hashed, if_neg h0, if_neg h1, if_neg h2]

theorem reading_opened (t : Device (WithDescription γ)) (a : Apdu) :
    reading (opened t a).shared = ⟨a.p1, [], 0⟩ := by
  simp [opened, reading, sessionStep, Reading.step]

/-- What both updates hash with their first command, and what they await after it. -/
theorem Phase.start {s : Shared} {c : WithDescription γ} {flow : List Step}
    (hread : reading s = ⟨SignAddIdentityProvider.p1Initial, [], 0⟩)
    (hhash : s.hash = updateHeaderOf first.cdata)
    (awaits : up.AwaitsLength c.inner) (state : c.description.descriptionState = .name)
    (display : Only [.none, .sendSuccessNoIdle] flow)
    (counts : up.Counts (payloadLengthOf first) 4 0 c.inner) :
    Phase up 0 first ⟨c, { ((s.updateHash ((updatePayload first.cdata).slice 4)).updateHash
      (((updatePayload first.cdata).advance 4).slice 4)).uxFlowInit flow with
        asynchReply := true }⟩ := by
  let s' := (s.updateHash ((updatePayload first.cdata).slice 4)).updateHash
    (((updatePayload first.cdata).advance 4).slice 4)
  have hr : reading (s'.uxFlowInit flow) = ⟨SignAddIdentityProvider.p1Initial, [], 0⟩ := by
    simp only [s', reading_uxFlowInit, reading_updateHash, hread]
    rfl
  have htotal : bytesRead (s'.uxFlowInit flow) = 4 := by
    rw [bytesRead, hr]
    rfl
  refine .described (.waiting awaits (by rw [state]; decide) ?_ (display.mono (by simp))
    fun hup => ?_) ?_ ?_
  · show Settled 0 _ (reading (s'.uxFlowInit flow)).parts
    rw [state, hr]
    exact ⟨rfl, fun p hp => (by cases hp), fun _ => .nil⟩
  · obtain ⟨st, hst, hcb⟩ := hup
    have hno := display st hst
    rw [hcb] at hno
    exact absurd hno (by decide)
  · refine ⟨((updatePayload first.cdata).advance 4).slice 4, ?_, ?_⟩
    · show (s.hash ++ (updatePayload first.cdata).slice 4) ++ _ = _
      rw [hhash, Ptr.slice_four (updatePayload first.cdata)]
      rfl
    · rw [Ptr.slice_length]
      exact htotal.symm
  · show up.Counts _ (bytesRead (s'.uxFlowInit flow)) (reading (s'.uxFlowInit flow)).keyBytes _
    rw [htotal, hr]
    exact counts

/-- Reading the update header leaves the payload to be read. -/
theorem reading_header {s : Shared} (h : (reading s).p1 = SignAddIdentityProvider.p1Initial)
    (cdata : Ptr) (a b : List UInt8) :
    reading (((s.loadPath cdata).sha256Init.updateHash a).updateHash b) = reading s := by
  simp only [reading_updateHash, reading_sha256Init, reading_loadPath, Reading.hashed, if_pos h]

end Phases

end DescriptionView

/-! ## Identity providers -/

namespace SignAddIdentityProvider

/-- How the update reads its description and its keys. -/
def update : Update Context where
  payloadLength := Context.payloadLength
  subtract n c := { c with payloadLength := c.payloadLength - n }
  awaitLength c := { c with state := .descriptionLength }
  awaitText c := { c with state := .description }
  awaitKeys c := { c with
    state := .verifyKey
    verifyKeyLength := c.payloadLength - .ofNat cdiVerifyKeyLength }
  AwaitsLength c := c.state = .descriptionLength
  AwaitsText c := c.state = .description
  AwaitsKeys c := c.state = .verifyKey ∧ c.verifyKeyLength = c.payloadLength - 32
  payloadLength_subtract _ _ := rfl
  payloadLength_await _ := ⟨rfl, rfl, rfl⟩
  awaitsLength _ := rfl
  awaitsText _ := rfl
  awaitsKeys _ := ⟨rfl, rfl⟩
  awaitsText_subtract _ _ h := h
  ins := insAddIdentityProvider
  AwaitsLastKey c := c.state = .cdiVerifyKey ∧ c.payloadLength = 32
  Counts L n _ c := c.payloadLength + .ofNat n = L
  Signs L n _ := .ofNat n = L
  counts_moved := by
    intro L n keyBytes m c c' h hc
    rw [hc, UInt32.ofNat_add, ← h, UInt32.add_comm (.ofNat n), ← UInt32.add_assoc,
      UInt32.sub_add_cancel]

def providerApp (sdk : Sdk) : App Blob where
  handler := fun a b => handleSignAddIdentityProvider sdk a.cdata a.p1 a.lc b
  callback := sharedCallback sdk describedCallback

section Commands

variable {k : Nat} {first : Apdu} {t t' : Device Blob} {sdk : Sdk}

theorem handleVerifyKey_phase {cdata : Ptr} {len : UInt8}
    (hp1 : (reading t.shared).p1 = p1VerifyKey)
    (awaits : update.AwaitsKeys t.ctx.inner)
    (state : t.ctx.description.descriptionState = .description)
    (settled : Settled k allHeaders (reading t.shared).parts)
    (done : t.ctx.description.textLength = 0)
    (display : Only [.none, .sendSuccessNoIdle, .handleDescriptionPart] t.shared.display)
    (base : Base first t.shared)
    (counts : update.Counts (payloadLengthOf first) (bytesRead t.shared) (reading t.shared).keyBytes
      t.ctx.inner) :
    wp (handleVerifyKey sdk cdata len)
      (fun _ t' => Phase update k first t' ∧
        t'.shared.currentInstruction = t.shared.currentInstruction) (fun _ _ => True) t := by
  simp only [handleVerifyKey, SignAddIdentityProvider.setState, wp_bind, wp_updateHash,
    wp_modifyInner, wp_getInner, wp_ite, Fw.wp_eval, wp_uxFlowInit, wp_waitForButton,
    wp_sendSuccessNoIdle, implies_true, and_true]
  have hread : reading (t.shared.updateHash (cdata.slice len.toNat)) = { reading t.shared with
      keyBytes := (reading t.shared).keyBytes + (cdata.slice len.toNat).length } := by
    rw [reading_updateHash, Reading.hashed_key (by rw [hp1]; decide) (by rw [hp1]; decide)
      (by rw [hp1]; decide)]
  obtain ⟨hbase, htotal⟩ := base.keys rfl hread
  have hn : UInt32.ofNat (cdata.slice len.toNat).length = len.toUInt32 := by
    apply UInt32.toNat_inj.mp
    have := len.toNat_lt
    rw [Ptr.slice_length, UInt32.toNat_ofNat', UInt8.toNat_toUInt32]
    exact Nat.mod_eq_of_lt (by omega)
  have hcounts : update.Counts (payloadLengthOf first)
      (bytesRead (t.shared.updateHash (cdata.slice len.toNat)))
      (reading (t.shared.updateHash (cdata.slice len.toNat))).keyBytes
      { t.ctx.inner with payloadLength := t.ctx.inner.payloadLength - len.toUInt32 } := by
    rw [htotal]
    have hmoved := @update.counts_moved (payloadLengthOf first) (bytesRead t.shared) 0
      (cdata.slice len.toNat).length t.ctx.inner
    exact hmoved counts (by rw [hn]; rfl)
  have hleft {n : UInt32} (hn : t.ctx.inner.verifyKeyLength - len.toUInt32 = n) :
      t.ctx.inner.payloadLength - len.toUInt32 - 32 = n := by
    rw [← hn, awaits.2]
    grind
  constructor
  · intro hz hex _
    obtain ⟨hbase', htotal', hshown⟩ := hbase.displayed (by rw [hread, hp1]; decide)
      (uxSignAddIdentityProviderVerifyKey { t.ctx.inner with verifyKeyHash := hex })
    refine ⟨.lastKey ⟨rfl, ?_⟩ hbase' ?_ ?_ ?_, rfl⟩
    · have h0 := hleft hz
      show t.ctx.inner.payloadLength - len.toUInt32 = 32
      grind
    · have hparts : Settled k allHeaders (reading ((t.shared.updateHash (cdata.slice
          len.toNat)).uxFlowInit (uxSignAddIdentityProviderVerifyKey
            { t.ctx.inner with verifyKeyHash := hex }))).parts := by
        rw [hshown, hread]
        exact settled
      exact hparts
    · rw [← htotal', ← hshown] at hcounts
      exact hcounts
    · simp [Only, uxSignAddIdentityProviderVerifyKey]
  · intro hz
    obtain ⟨hbase', htotal'⟩ := hbase.reply
    refine ⟨.described (.keys ⟨awaits.1, (hleft rfl).symm⟩ state ?_ done display) hbase' ?_, rfl⟩
    · rw [reading_reply, hread]
      exact settled
    · rw [← htotal'] at hcounts
      exact hcounts

theorem handleCdiVerifyKey_phase {cdata : Ptr} {len : UInt8}
    (hp1 : (reading t.shared).p1 = p1CdiVerifyKey) (howed : t.shared.replyOwed = true)
    (base : Base first t.shared) (settled : Settled k allHeaders (reading t.shared).parts)
    (counts : update.Counts (payloadLengthOf first) (bytesRead t.shared) (reading t.shared).keyBytes
      t.ctx.inner) :
    wp (handleCdiVerifyKey cdata len)
      (fun _ t' => Phase update k first t' ∧
        t'.shared.currentInstruction = t.shared.currentInstruction) (fun _ _ => True) t := by
  simp only [handleCdiVerifyKey, wp_bind, wp_updateHash, wp_modifyInner, wp_getInner, Fw.wp_eval,
    wp_ite, wp_uxFlowInit, wp_waitForButton, Fw.wp_throw, implies_true, and_true, true_and, not_or,
    not_not]
  intro hex _ hkeys
  obtain ⟨_, hzero⟩ := hkeys
  have hread : reading (t.shared.updateHash (cdata.slice cdiVerifyKeyLength)) = { reading t.shared
      with keyBytes := (reading t.shared).keyBytes + (cdata.slice cdiVerifyKeyLength).length } := by
    rw [reading_updateHash, Reading.hashed_key (by rw [hp1]; decide) (by rw [hp1]; decide)
      (by rw [hp1]; decide)]
  obtain ⟨hbase, htotal⟩ := base.keys rfl hread
  obtain ⟨hbase', htotal', hshown⟩ := hbase.displayed (by rw [hread, hp1]; decide)
    (uxSignAddIdentityProviderFinish { t.ctx.inner with cdiVerifyKey := hex })
  refine ⟨.signing ⟨howed, ?_⟩ hbase' ?_ ?_, rfl⟩
  · simp [Only, uxSignAddIdentityProviderFinish, uxSignAndDecline, uxSignFlowSharedSign,
      uxSignFlowSharedDecline]
  · have hparts : Settled k allHeaders (reading ((t.shared.updateHash (cdata.slice
        cdiVerifyKeyLength)).uxFlowInit (uxSignAddIdentityProviderFinish
          { t.ctx.inner with cdiVerifyKey := hex }))).parts := by
      rw [hshown, hread]
      exact settled
    exact hparts
  · have hcounts : update.Counts (payloadLengthOf first)
        (bytesRead t.shared + (cdata.slice cdiVerifyKeyLength).length) 0 { t.ctx.inner with
          payloadLength := t.ctx.inner.payloadLength - .ofNat cdiVerifyKeyLength } := by
      have hmoved := @update.counts_moved (payloadLengthOf first) (bytesRead t.shared) 0
        (cdata.slice cdiVerifyKeyLength).length t.ctx.inner
      exact hmoved counts (by rw [Ptr.slice_length]; rfl)
    rw [← htotal, ← htotal'] at hcounts
    have hsum : t.ctx.inner.payloadLength - .ofNat cdiVerifyKeyLength + UInt32.ofNat (bytesRead _) =
        payloadLengthOf first := hcounts
    rw [hzero, UInt32.zero_add] at hsum
    exact hsum

/-- A command of the session. -/
theorem command_inv {a : Apdu} (h : Inv update k first t)
    (hs : SessionStep (providerApp sdk) t (.command a) t') : Inv update k first t' := by
  obtain ⟨hc, hr, ho, hh⟩ := hs
  have hi : t.shared.currentInstruction = some update.ins :=
    hc.trans (congrArg some (h.instruction _ hc))
  have hread := reading_entered t a
  have hparts : (reading (entered t a).shared).parts = (reading t.shared).parts := by rw [hread]
  have hp1 : (reading (entered t a).shared).p1 = a.p1 := by rw [hread]
  have hw : wp ((providerApp sdk).handler a false)
      (fun _ t' => Phase update k first t' ∧
        t'.shared.currentInstruction = t.shared.currentInstruction)
      (fun _ _ => True) (entered t a) := by
    show wp (handleSignAddIdentityProvider sdk a.cdata a.p1 a.lc false) _ _ _
    unfold handleSignAddIdentityProvider
    rw [wp_bind, Fw.wp_when]
    refine ⟨fun h => absurd h (by decide), fun _ => ?_⟩
    rw [wp_bind, wp_getInner]
    cases h.active hr (by rw [hc]; simp) with
    | described hd base counts =>
      have hbase := base.entered a
      have hcounts : update.Counts (payloadLengthOf first) (bytesRead (entered t a).shared)
          (reading (entered t a).shared).keyBytes (entered t a).ctx.inner := by
        rw [bytesRead_entered, hread]
        exact counts
      have hmoved {x : Fw Blob PUnit}
          (hx : wp x (fun _ t' => Described update.toOuter k t' ∧
            Moved update.toOuter (entered t a) t') (fun _ _ => True) (entered t a)) :
          wp x (fun _ t' => Phase update k first t' ∧
            t'.shared.currentInstruction = t.shared.currentInstruction) (fun _ _ => True)
            (entered t a) :=
        wp_mono hx (fun _ _ h => ⟨.moved h.1 h.2 hbase hcounts, h.2.instruction⟩) fun _ _ h => h
      cases hd with
      | waiting awaits state settled display _ =>
        have hst : (entered t a).ctx.inner.state = .descriptionLength := awaits
        simp only [hst, reduceCtorEq, and_false, and_true, if_false, wp_ite, Fw.wp_throw,
          implies_true]
        intro hlen
        exact hmoved (handleLength_described (o := update.toOuter) (hp1.trans hlen) state
          (by rw [hparts]; exact settled) display)
      | receiving p ps awaits state parts settled left more shown display =>
        have hst : (entered t a).ctx.inner.state = .description := awaits
        simp only [hst, reduceCtorEq, and_false, and_true, if_false, wp_ite, Fw.wp_throw,
          implies_true]
        intro htext
        exact hmoved (handleText_described (o := update.toOuter) (hp1.trans htext) rfl awaits state
          (hparts.trans parts) settled left shown)
      | shown _ _ _ _ owed _ =>
        rw [owed] at ho
        cases ho
      | keys awaits state settled done display =>
        have hst : (entered t a).ctx.inner.state = .verifyKey := awaits.1
        simp only [hst, reduceCtorEq, and_false, and_true, if_false, wp_ite, Fw.wp_throw,
          implies_true]
        intro hkey
        exact handleVerifyKey_phase (hp1.trans hkey) awaits state (by rw [hparts]; exact settled)
          done display hbase hcounts
    | lastKey awaits base settled counts display =>
      have hst : (entered t a).ctx.inner.state = .cdiVerifyKey := awaits.1
      simp only [hst, reduceCtorEq, and_false, and_true, if_false, wp_ite, Fw.wp_throw,
        implies_true]
      intro hkey
      refine handleCdiVerifyKey_phase (hp1.trans hkey) rfl (base.entered a)
        (by rw [hparts]; exact settled) ?_
      rw [bytesRead_entered, hread]
      exact counts
    | signing hsign base settled signs =>
      -- no command comes while the Sign screen is up
      rw [hsign.owed] at ho
      cases ho
  obtain ⟨hphase, hinstr⟩ := of_wp_ok hw hh
  exact .of_phase (hinstr.trans hi) hphase

/-- The first command. -/
theorem initial_inv (ha : first.ins = insAddIdentityProvider) :
    wp ((providerApp sdk).handler first true) (fun _ t' => Inv update 0 first t')
      (fun _ _ => True) (opened t first) := by
  show wp (handleSignAddIdentityProvider sdk first.cdata first.p1 first.lc true) _ _ _
  unfold handleSignAddIdentityProvider
  rw [wp_bind, Fw.wp_when]
  refine ⟨fun _ => ?_, fun h => absurd rfl h⟩
  rw [SignAddIdentityProvider.setState, wp_modifyInner, wp_bind, wp_getInner]
  refine (wp_ite _ _ _).mpr ⟨fun hinit => ?_, fun _ => ?_⟩
  · have hopened : reading (opened t first).shared = ⟨p1Initial, [], 0⟩ := by
      rw [reading_opened, hinit.1]
    simp only [SignAddIdentityProvider.handleInitial, hashUpdateHeaderAndType, hashHeaderAndType,
      SignAddIdentityProvider.setState, setDescriptionState, wp_bind, wp_parseKeyDerivationPath,
      wp_cxSha256Init, wp_updateHash, Fw.wp_throwIf, wp_pure, wp_modifyInner, wp_modifyDescription,
      Fw.wp_eval, wp_uxFlowInit, wp_waitForButton, implies_true, and_true, true_and]
    intro hpath htype text htext
    have hcounts : payloadLengthOf first - 4 + UInt32.ofNat 4 = payloadLengthOf first :=
      UInt32.sub_add_cancel _ _
    refine .of_phase (congrArg some ha) (.start ?_ (updateHashed first.cdata _).hash rfl rfl ?_
      hcounts)
    · exact (reading_header (by rw [hopened]) _ _ _).trans hopened
    · simp [Only, uxSignAddIdentityProviderStart, uxSignFlowSharedReview, uxUpdateType]
  · refine (wp_ite _ _ _).mpr ⟨fun h => (by cases h.2), fun _ => ?_⟩
    refine (wp_ite _ _ _).mpr ⟨fun h => (by cases h.2), fun _ => ?_⟩
    refine (wp_ite _ _ _).mpr ⟨fun h => (by cases h.2), fun _ => ?_⟩
    exact (wp_ite _ _ _).mpr ⟨fun h => (by cases h.2), fun _ => trivial⟩

end Commands

end SignAddIdentityProvider

/-! ## Anonymity revokers -/

namespace SignAddAnonymityRevoker

/-- How the update reads its description and its key. -/
def update : Update Context where
  payloadLength := Context.payloadLength
  subtract n c := { c with payloadLength := c.payloadLength - n }
  awaitLength c := { c with state := .descriptionLength }
  awaitText c := { c with state := .description }
  awaitKeys c := { c with state := .publicKey }
  AwaitsLength c := c.state = .descriptionLength
  AwaitsText c := c.state = .description
  AwaitsKeys c := c.state = .publicKey
  payloadLength_subtract _ _ := rfl
  payloadLength_await _ := ⟨rfl, rfl, rfl⟩
  awaitsLength _ := rfl
  awaitsText _ := rfl
  awaitsKeys _ := rfl
  awaitsText_subtract _ _ h := h
  ins := insAddAnonymityRevoker
  AwaitsLastKey _ := False
  Counts _ _ keyBytes _ := keyBytes = 0
  Signs _ _ keyBytes := keyBytes = 96
  counts_moved h _ := h

def revokerApp (sdk : Sdk) : App Blob where
  handler := fun a b => handleSignAddAnonymityRevoker a.cdata a.p1 a.lc b
  callback := sharedCallback sdk describedCallback

section Commands

variable {k : Nat} {first : Apdu} {t t' : Device Blob} {sdk : Sdk}

theorem handlePublicKey_phase {cdata : Ptr}
    (hp1 : (reading t.shared).p1 = p1PublicKey) (howed : t.shared.replyOwed = true)
    (base : Base first t.shared) (settled : Settled k allHeaders (reading t.shared).parts)
    (counts : (reading t.shared).keyBytes = 0) :
    wp (handlePublicKey cdata)
      (fun _ t' => Phase update k first t' ∧
        t'.shared.currentInstruction = t.shared.currentInstruction) (fun _ _ => True) t := by
  simp only [handlePublicKey, wp_bind, wp_updateHash, wp_modifyInner, wp_getInner, Fw.wp_eval,
    wp_uxFlowInit, wp_waitForButton, implies_true, and_true]
  intro hex _
  have hread : reading (t.shared.updateHash (cdata.slice 96)) = { reading t.shared with
      keyBytes := (reading t.shared).keyBytes + (cdata.slice 96).length } := by
    rw [reading_updateHash, Reading.hashed_key (by rw [hp1]; decide) (by rw [hp1]; decide)
      (by rw [hp1]; decide)]
  obtain ⟨hbase, htotal⟩ := base.keys rfl hread
  obtain ⟨hbase', htotal', hshown⟩ := hbase.displayed (by rw [hread, hp1]; decide)
    (uxSignAddAnonymityRevokerFinish { t.ctx.inner with publicKey := hex })
  have hafter : reading ((t.shared.updateHash (cdata.slice 96)).uxFlowInit
      (uxSignAddAnonymityRevokerFinish { t.ctx.inner with publicKey := hex })) =
        { reading t.shared with keyBytes := 96 } := by
    rw [hshown, hread, counts, Ptr.slice_length]
  refine ⟨.signing ⟨howed, ?_⟩ hbase' ?_ ?_, rfl⟩
  · simp [Only, uxSignAddAnonymityRevokerFinish, uxSignAndDecline, uxSignFlowSharedSign,
      uxSignFlowSharedDecline]
  · have hparts := congrArg Reading.parts hafter
    exact hparts ▸ settled
  · have hkeys := congrArg Reading.keyBytes hafter
    exact hkeys

/-- A command of the session. -/
theorem command_inv {a : Apdu} (h : Inv update k first t)
    (hs : SessionStep (revokerApp sdk) t (.command a) t') : Inv update k first t' := by
  obtain ⟨hc, hr, ho, hh⟩ := hs
  have hi : t.shared.currentInstruction = some update.ins :=
    hc.trans (congrArg some (h.instruction _ hc))
  have hread := reading_entered t a
  have hparts : (reading (entered t a).shared).parts = (reading t.shared).parts := by rw [hread]
  have hp1 : (reading (entered t a).shared).p1 = a.p1 := by rw [hread]
  have hw : wp ((revokerApp sdk).handler a false)
      (fun _ t' => Phase update k first t' ∧
        t'.shared.currentInstruction = t.shared.currentInstruction)
      (fun _ _ => True) (entered t a) := by
    show wp (handleSignAddAnonymityRevoker a.cdata a.p1 a.lc false) _ _ _
    unfold handleSignAddAnonymityRevoker
    rw [wp_bind, Fw.wp_when]
    refine ⟨fun h => absurd h (by decide), fun _ => ?_⟩
    rw [wp_bind, wp_getInner]
    cases h.active hr (by rw [hc]; simp) with
    | described hd base counts =>
      have hbase := base.entered a
      have hcounts : update.Counts (payloadLengthOf first) (bytesRead (entered t a).shared)
          (reading (entered t a).shared).keyBytes (entered t a).ctx.inner := by
        rw [bytesRead_entered, hread]
        exact counts
      have hmoved {x : Fw Blob PUnit}
          (hx : wp x (fun _ t' => Described update.toOuter k t' ∧
            Moved update.toOuter (entered t a) t') (fun _ _ => True) (entered t a)) :
          wp x (fun _ t' => Phase update k first t' ∧
            t'.shared.currentInstruction = t.shared.currentInstruction) (fun _ _ => True)
            (entered t a) :=
        wp_mono hx (fun _ _ h => ⟨.moved h.1 h.2 hbase hcounts, h.2.instruction⟩) fun _ _ h => h
      cases hd with
      | waiting awaits state settled display _ =>
        have hst : (entered t a).ctx.inner.state = .descriptionLength := awaits
        simp only [hst, reduceCtorEq, and_false, and_true, if_false, wp_ite, Fw.wp_throw,
          implies_true]
        intro hlen
        exact hmoved (handleLength_described (o := update.toOuter) (hp1.trans hlen) state
          (by rw [hparts]; exact settled) display)
      | receiving p ps awaits state parts settled left more shown display =>
        have hst : (entered t a).ctx.inner.state = .description := awaits
        simp only [hst, reduceCtorEq, and_false, and_true, if_false, wp_ite, Fw.wp_throw,
          implies_true]
        intro htext
        exact hmoved (handleText_described (o := update.toOuter) (hp1.trans htext) rfl awaits state
          (hparts.trans parts) settled left shown)
      | shown _ _ _ _ owed _ =>
        rw [owed] at ho
        cases ho
      | keys awaits state settled done display =>
        have hst : (entered t a).ctx.inner.state = .publicKey := awaits
        simp only [hst, reduceCtorEq, and_false, and_true, if_false, wp_ite, Fw.wp_throw,
          implies_true]
        intro hkey
        exact handlePublicKey_phase (hp1.trans hkey) rfl hbase (by rw [hparts]; exact settled)
          hcounts
    | lastKey awaits _ _ _ _ => exact awaits.elim
    | signing hsign base settled signs =>
      -- no command comes while the Sign screen is up
      rw [hsign.owed] at ho
      cases ho
  obtain ⟨hphase, hinstr⟩ := of_wp_ok hw hh
  exact .of_phase (hinstr.trans hi) hphase

/-- The first command. -/
theorem initial_inv (ha : first.ins = insAddAnonymityRevoker) :
    wp ((revokerApp sdk).handler first true) (fun _ t' => Inv update 0 first t')
      (fun _ _ => True) (opened t first) := by
  show wp (handleSignAddAnonymityRevoker first.cdata first.p1 first.lc true) _ _ _
  unfold handleSignAddAnonymityRevoker
  rw [wp_bind, Fw.wp_when]
  refine ⟨fun _ => ?_, fun h => absurd rfl h⟩
  rw [SignAddAnonymityRevoker.setState, wp_modifyInner, wp_bind, wp_getInner]
  refine (wp_ite _ _ _).mpr ⟨fun hinit => ?_, fun _ => ?_⟩
  · have hopened : reading (opened t first).shared = ⟨p1Initial, [], 0⟩ := by
      rw [reading_opened, hinit.1]
    simp only [SignAddAnonymityRevoker.handleInitial, readUpdateHeader, hashUpdateHeaderAndType,
      hashHeaderAndType, SignAddAnonymityRevoker.setState, setDescriptionState, wp_bind,
      wp_parseKeyDerivationPath, wp_cxSha256Init, wp_updateHash, Fw.wp_throwIf, wp_pure,
      wp_modifyInner, wp_modifyDescription, Fw.wp_eval, wp_uxFlowInit, wp_waitForButton,
      implies_true, and_true, true_and]
    intro hpath htype text htext
    refine .of_phase (congrArg some ha) (.start ?_ (updateHashed first.cdata _).hash rfl rfl ?_
      rfl)
    · exact (reading_header (by rw [hopened]; rfl) _ _ _).trans hopened
    · simp [Only, uxSignAddAnonymityRevokerStart, uxSignFlowSharedReview, uxUpdateType]
  · refine (wp_ite _ _ _).mpr ⟨fun h => (by cases h.2), fun _ => ?_⟩
    refine (wp_ite _ _ _).mpr ⟨fun h => (by cases h.2), fun _ => ?_⟩
    exact (wp_ite _ _ _).mpr ⟨fun h => (by cases h.2), fun _ => trivial⟩

end Commands

end SignAddAnonymityRevoker

/-! ## The device -/

namespace DescriptionView

theorem partsBytes_complete {parts : List Part} (h : ∀ p ∈ parts, p.Complete) :
    partsBytes parts = declaredBytes parts := by
  unfold partsBytes declaredBytes
  refine congrArg List.sum (List.map_congr_left fun p hp => ?_)
  rw [h p hp]

/-- When the Sign step is displayed, only a skipped part, the number of the bytes and the texts on
the screens can be wrong. -/
theorem Inv.signed {γ : Type} {up : Update γ} {k : Nat} {first : Apdu}
    {t : Device (WithDescription γ)} (h : Inv up k first t) (hs : SignUp t.shared) :
    (SignedAsDeclared first t.shared ↔
      k = 0 ∧ (payloadLengthOf first).toNat = bytesRead t.shared ∧ ChunksReadable t.shared) ∧
    bytesRead t.shared = 4 + declaredBytes (reading t.shared).parts + (reading t.shared).keyBytes ∧
    up.Signs (payloadLengthOf first) (bytesRead t.shared) (reading t.shared).keyBytes := by
  obtain ⟨hr, hne, hsign⟩ := hs
  have hno {cbs : List Callback} (hd : Only cbs t.shared.display)
      (hc : .buildAndSignTransactionHash ∉ cbs) : False := by
    rw [hd.not_offersSign hc] at hsign
    cases hsign
  cases h.active hr hne with
  | described hd _ _ => exact (hno hd.display (by decide)).elim
  | lastKey _ _ _ _ display => exact (hno display (by decide)).elim
  | signing _ base settled signs =>
    obtain ⟨rest, hhash, hrest⟩ := base
    have hsum : bytesRead t.shared =
        4 + declaredBytes (reading t.shared).parts + (reading t.shared).keyBytes := by
      rw [bytesRead, partsBytes_complete settled.complete]
    have hlen : (updateHeaderOf first.cdata ++
        beBytes 4 (payloadLengthOf first).toNat).length = 33 := by
      rw [List.length_append, updateHeaderOf_length, beBytes_length]
    have htake : t.shared.hash.take 33 =
        updateHeaderOf first.cdata ++ beBytes 4 (payloadLengthOf first).toNat := by
      rw [hhash, ← hlen, List.take_left]
    have hdrop : payloadOf t.shared = rest := by
      rw [payloadOf, hhash, ← hlen, List.drop_left]
    refine ⟨⟨fun hd => ?_, fun ⟨hk, hL, hchunks⟩ => ?_⟩, hsum, signs⟩
    · have hk : k = 0 := by
        have hthree := hd.shown.length_eq
        have hparts := settled.length
        omega
      refine ⟨hk, ?_, (Part.forall₂_shownUnder_iff (settled.shown hk)).mp hd.shown⟩
      rw [hd.length, hdrop, hrest]
    · exact ⟨htake, by rw [hL, hdrop, hrest], by rw [hdrop, hrest, hsum], settled.complete,
        (Part.forall₂_shownUnder_iff (settled.shown hk)).mpr hchunks⟩

section Device

variable {μ ν γ : Type} {sdk : Sdk} {u : GovernanceContext μ ν} {d₀ d₁ d : Device μ} {first : Apdu}

theorem handleDescriptionPart_stale {t : Device (WithDescription γ)}
    (hz : t.ctx.description.textLength = 0)
    (hs : t.ctx.description.descriptionState = .stale) :
    handleDescriptionPart t = .thrown .invalidState t := by
  show Prog.bind (Fw.when (t.ctx.description.textLength = 0) _) _ t = _
  rw [Fw.when, if_pos hz, hs]
  rfl

/-- The step of a part looks at the description only. -/
theorem views_handleDescriptionPart (w : Member μ (WithDescription ν)) (m : Member ν γ) :
    Views (WithDescription.member w m) (Fw.on w handleDescriptionPart) handleDescriptionPart := by
  intro d
  let t : Device (WithDescription γ) := d.view (WithDescription.member w m)
  by_cases hz : t.ctx.description.textLength = 0
  · by_cases hs : t.ctx.description.descriptionState = .stale
    · rw [Fw.on_thrown (handleDescriptionPart_stale (t := d.view w) hz hs),
        handleDescriptionPart_stale (t := d.view (WithDescription.member w m)) hz hs]
      simp [Device.view, WithDescription.member, w.get_set]
    · rw [Fw.on_ok (handleDescriptionPart_done (t := d.view w) hz hs),
        handleDescriptionPart_done (t := d.view (WithDescription.member w m)) hz hs]
      simp [Device.view, WithDescription.member, w.get_set]
  · rw [Fw.on_ok (handleDescriptionPart_more (t := d.view w) hz),
      handleDescriptionPart_more (t := d.view (WithDescription.member w m)) hz]
    simp [Device.view, WithDescription.member, w.get_set]

/-- A session of either update: it is in a phase for as many skipped parts as it had. -/
theorem exec_inv {up : Update γ} {m : Member ν γ} {loc : App (WithDescription γ)}
    (he : Embeds (governanceApp sdk u) (WithDescription.member u.withDescription m) loc up.ins Own)
    (hloc : loc.callback = sharedCallback sdk describedCallback)
    (hcommand : ∀ k t a t', Inv up k first t → SessionStep loc t (.command a) t' →
      Inv up k first t')
    (hd₁ : Inv up 0 first (d₁.view (WithDescription.member u.withDescription m)))
    {es : List Event} (hd : exec (lockStep (governanceApp sdk u)) d₁ es = some d) :
    ∃ k, Inv up k first (d.view (WithDescription.member u.withDescription m)) ∧
      (k = 0 ↔ Always (lockStep (governanceApp sdk u))
        (fun d e _ => ¬ Skips (d.view u.withDescription) e) d₁ es) := by
  have hcount : ∀ k s e s',
      Inv up k first (s.view (WithDescription.member u.withDescription m)) →
      lockStep (governanceApp sdk u) s e = some s' →
      (¬ Skips (s.view u.withDescription) e →
        Inv up k first (s'.view (WithDescription.member u.withDescription m))) ∧
      (Skips (s.view u.withDescription) e →
        Inv up (k + 1) first (s'.view (WithDescription.member u.withDescription m))) := by
    intro k s e s' hI hs
    have hown : ∀ i, e = .press i → Own (s.shared.pressed i) := by
      intro i _
      unfold Shared.pressed
      cases hi : s.shared.display[i]? with
      | none => exact .inl rfl
      | some st => exact hI.own st (List.mem_of_getElem? hi)
    have hstep := he.sessionStep hI.instruction hown (lockStep_session hs)
    cases e with
    | command a => exact ⟨fun _ => hcommand k _ a _ hI hstep, fun hsk => hsk.elim⟩
    | press i =>
      obtain ⟨hne, hr, hs'⟩ := hstep
      rw [hs', hloc]
      exact hI.press sdk i hr hne
    | noApdu => exact hstep.elim
  let I (k : Nat) (s : Device μ) : Prop :=
    Inv up k first (s.view (WithDescription.member u.withDescription m))
  have hrun : ∃ k, 0 ≤ k ∧ I k d ∧ (k = 0 ↔ Always (lockStep (governanceApp sdk u))
      (fun d e _ => ¬ Skips (d.view u.withDescription) e) d₁ es) :=
    exec_counting (I := I) (B := fun s e => Skips (s.view u.withDescription) e) hcount hd₁ hd
  obtain ⟨k, _, hinv, hk⟩ := hrun
  exact ⟨k, hinv, hk⟩

/-- Add identity provider or add anonymity revoker: what is signed is as declared exactly if no
press skipped a part, the lengths add up and the screens can show the chunks. -/
theorem signed_as_declared_iff {ins : UInt8}
    (hins : ins = insAddIdentityProvider ∨ ins = insAddAnonymityRevoker)
    (hb : begins (governanceApp sdk u) ins d₀ first d₁) {es : List Event}
    (hd : exec (lockStep (governanceApp sdk u)) d₁ es = some d) (hs : SignUp d.shared) :
    SignedAsDeclared first d.shared ↔
      Always (lockStep (governanceApp sdk u))
        (fun d e _ => ¬ Skips (d.view u.withDescription) e) d₁ es ∧ AddsUp ins first d.shared ∧
        ChunksReadable d.shared := by
  obtain ⟨_, ha, hh⟩ := begins_handler hb
  have hcallback {γ : Type} {m : Member ν γ} (cb : Callback) (hcb : Own cb) :
      Views (WithDescription.member u.withDescription m)
        ((governanceApp sdk u).callback cb) (sharedCallback sdk describedCallback cb) := by
    rcases hcb with hcb | rfl
    · exact Views.sharedCallback _ sdk hcb
    · exact views_handleDescriptionPart u.withDescription m
  rcases hins with rfl | rfl
  · have he : Embeds (governanceApp sdk u) u.signAddIdentityProvider
        (SignAddIdentityProvider.providerApp sdk) insAddIdentityProvider Own := by
      refine ⟨fun a b hab => ?_, hcallback⟩
      have happ : (governanceApp sdk u).handler a b = Fw.on u.signAddIdentityProvider
          (handleSignAddIdentityProvider sdk a.cdata a.p1 a.lc b) := by
        show governanceHandler sdk u a b = _
        unfold governanceHandler
        rw [hab]
        rfl
      rw [happ]
      exact Views.on _ _
    have hfirst := of_wp_ok
      (SignAddIdentityProvider.initial_inv (t := d₀.view u.signAddIdentityProvider) ha) (he.handler_ok ha hh)
    obtain ⟨k, hinv, hk⟩ := exec_inv he rfl
      (fun _ _ _ _ h hs => SignAddIdentityProvider.command_inv h hs) hfirst hd
    have hsigned : (SignedAsDeclared first d.shared ↔
        k = 0 ∧ (payloadLengthOf first).toNat = bytesRead d.shared ∧ ChunksReadable d.shared) ∧
        bytesRead d.shared =
          4 + declaredBytes (reading d.shared).parts + (reading d.shared).keyBytes ∧
        UInt32.ofNat (bytesRead d.shared) = payloadLengthOf first := hinv.signed hs
    obtain ⟨hiff, hsum, hL⟩ := hsigned
    refine hiff.trans (and_congr hk (and_congr_left' ?_))
    rw [AddsUp, if_pos rfl, ← hsum, ← hL, UInt32.toNat_ofNat']
    exact Nat.mod_eq_iff_lt (by decide)
  · have he : Embeds (governanceApp sdk u) u.signAddAnonymityRevoker
        (SignAddAnonymityRevoker.revokerApp sdk) insAddAnonymityRevoker Own := by
      refine ⟨fun a b hab => ?_, hcallback⟩
      have happ : (governanceApp sdk u).handler a b = Fw.on u.signAddAnonymityRevoker
          (handleSignAddAnonymityRevoker a.cdata a.p1 a.lc b) := by
        show governanceHandler sdk u a b = _
        unfold governanceHandler
        rw [hab]
        rfl
      rw [happ]
      exact Views.on _ _
    have hfirst := of_wp_ok
      (SignAddAnonymityRevoker.initial_inv (t := d₀.view u.signAddAnonymityRevoker) ha) (he.handler_ok ha hh)
    obtain ⟨k, hinv, hk⟩ := exec_inv he rfl
      (fun _ _ _ _ h hs => SignAddAnonymityRevoker.command_inv h hs) hfirst hd
    have hsigned : (SignedAsDeclared first d.shared ↔
        k = 0 ∧ (payloadLengthOf first).toNat = bytesRead d.shared ∧ ChunksReadable d.shared) ∧
        bytesRead d.shared =
          4 + declaredBytes (reading d.shared).parts + (reading d.shared).keyBytes ∧
        (reading d.shared).keyBytes = 96 := hinv.signed hs
    obtain ⟨hiff, hsum, hkeys⟩ := hsigned
    refine hiff.trans (and_congr hk (and_congr_left' ?_))
    rw [AddsUp, if_neg (by decide), hsum, hkeys]

end Device

/-! ## Two sessions -/

/-- The first command of an update with a description. -/
def firstOf (ins updateType : UInt8) (length : List UInt8) : Apdu :=
  sent ins 0 0 ([0] ++ List.replicate 28 0 ++ [updateType] ++ length ++ [0, 0, 0, 7])

/-- A part of one byte: its length, the byte and the press on its screen. -/
def oneByte (ins b : UInt8) : List Event :=
  [.command (sent ins 1 0 [0, 0, 0, 1]), .command (sent ins 2 0 [b]), .press 0]

/-- An identity provider with one byte in each part and a verify key of two bytes. -/
def providerEvents : List Event :=
  .press 2 :: oneByte insAddIdentityProvider 78 ++ oneByte insAddIdentityProvider 85 ++
    oneByte insAddIdentityProvider 68 ++
    [.command (sent insAddIdentityProvider 3 0 [1, 2]), .press 0,
      .command (sent insAddIdentityProvider 4 0 (List.replicate 32 9))]

/-- Its first command: 4 bytes of identity, three parts of 5 bytes, and 34 bytes of keys. -/
def providerFirst : Apdu := firstOf insAddIdentityProvider UpdateType.addIdentityProvider [0, 0, 0, 53]

theorem provider_as_declared : ∃ d₁ d,
    begins (governanceApp zeroAddressSdk GovernanceContexts.layout) insAddIdentityProvider
      bootedGovernance providerFirst d₁ ∧
    exec (lockStep (governanceApp zeroAddressSdk GovernanceContexts.layout)) d₁ providerEvents =
      some d ∧ SignUp d.shared ∧ SignedAsDeclared providerFirst d.shared := by
  have hex : ((accepted (dispatch (governanceApp zeroAddressSdk GovernanceContexts.layout)
      providerFirst (receivedCommand bootedGovernance))).any fun d₁ =>
        (exec (guarded (lockStep (governanceApp zeroAddressSdk GovernanceContexts.layout))
          fun d e => ¬ Skips (d.view GovernanceContexts.layout.withDescription) e) d₁
          providerEvents).any fun d => d.shared.running && d.shared.currentInstruction.isSome &&
            offersSign d.shared.display &&
              decide (AddsUp insAddIdentityProvider providerFirst d.shared) &&
                decide (ChunksReadable d.shared)) = true := by
    decide
  obtain ⟨d₁, hd₁, hex⟩ := (Option.any_eq_true _ _).mp hex
  obtain ⟨d, hd, hs⟩ := (Option.any_eq_true _ _).mp hex
  simp only [Bool.and_eq_true, decide_eq_true_eq] at hs
  obtain ⟨⟨⟨⟨hr, hi⟩, hsign⟩, hadds⟩, hchunks⟩ := hs
  have hb : begins (governanceApp zeroAddressSdk GovernanceContexts.layout) insAddIdentityProvider
      bootedGovernance providerFirst d₁ := ⟨⟨rfl, rfl, rfl⟩, rfl, hd₁⟩
  have hup : SignUp d.shared := ⟨hr, Option.isSome_iff_ne_none.mp hi, hsign⟩
  obtain ⟨hexec, hall⟩ := exec_guarded hd
  exact ⟨d₁, d, hb, hexec, hup,
    (signed_as_declared_iff (.inl rfl) hb hexec hup).mpr ⟨hall, hadds, hchunks⟩⟩

/-- An anonymity revoker with three empty parts. -/
def revokerEvents : List Event :=
  .press 2 :: List.replicate 3 (.command (sent insAddAnonymityRevoker 1 0 [0, 0, 0, 0])) ++
    [.command (sent insAddAnonymityRevoker 3 0 (List.replicate 96 9))]

/-- Its first command declares no payload at all. -/
def revokerFirst : Apdu := firstOf insAddAnonymityRevoker UpdateType.addAnonymityRevoker [0, 0, 0, 0]

theorem revoker_not_as_declared : ∃ d₁ d,
    begins (governanceApp zeroAddressSdk GovernanceContexts.layout) insAddAnonymityRevoker
      bootedGovernance revokerFirst d₁ ∧
    exec (lockStep (governanceApp zeroAddressSdk GovernanceContexts.layout)) d₁ revokerEvents =
      some d ∧ SignUp d.shared ∧ ¬ SignedAsDeclared revokerFirst d.shared := by
  have hex : ((accepted (dispatch (governanceApp zeroAddressSdk GovernanceContexts.layout)
      revokerFirst (receivedCommand bootedGovernance))).any fun d₁ =>
        (exec (lockStep (governanceApp zeroAddressSdk GovernanceContexts.layout)) d₁
          revokerEvents).any fun d => d.shared.running && d.shared.currentInstruction.isSome &&
            offersSign d.shared.display && decide ((payloadOf d.shared).length = 112)) = true := by
    decide
  obtain ⟨d₁, hd₁, hex⟩ := (Option.any_eq_true _ _).mp hex
  obtain ⟨d, hd, hs⟩ := (Option.any_eq_true _ _).mp hex
  simp only [Bool.and_eq_true, decide_eq_true_eq] at hs
  obtain ⟨⟨⟨hr, hi⟩, hsign⟩, hlen⟩ := hs
  refine ⟨d₁, d, ⟨⟨rfl, rfl, rfl⟩, rfl, hd₁⟩, hd, ⟨hr, Option.isSome_iff_ne_none.mp hi, hsign⟩,
    fun hno => ?_⟩
  have hzero : (payloadLengthOf revokerFirst).toNat = 0 := by decide
  rw [hno.length, hlen] at hzero
  cases hzero

end DescriptionView

end ConcordiumLedger
