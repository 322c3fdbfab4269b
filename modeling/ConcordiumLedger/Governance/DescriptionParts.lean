import ConcordiumLedger.Common.Presses
import ConcordiumLedger.Governance.Rules

/-!
# Governance.DescriptionParts

The parts of a description, as a session has received and shown them.

* `reading`   — the parts of a session, found in its log.
* `Outer`     — what the two updates with a description have in common.
* `Described` — where a session is in its description. A part that was skipped is counted by `k`.
-/

namespace ConcordiumLedger

open CMem CProg CProg.Prog

namespace DescriptionView

/-! ## Parts -/

/-- Bytes that the array of the text shows as they are: it has room for a NUL behind them, and there
is none in them. A chunk that fills the array is shown with what follows it in memory. -/
def Readable (chunk : List UInt8) : Prop := chunk.length < 255 ∧ 0 ∉ chunk

instance (chunk : List UInt8) : Decidable (Readable chunk) :=
  inferInstanceAs (Decidable (_ ∧ _))

/-- A part: its declared length, and its chunks with the screens put up for them, the last one
first. -/
structure Part where
  declared : Nat
  chunks : List (List UInt8 × List Step)

namespace Part

/-- How many bytes of the part were hashed. -/
def received (p : Part) : Nat := (p.chunks.map fun c => c.1.length).sum

def Complete (p : Part) : Prop := p.received = p.declared

/-- Each chunk was shown on one screen with the given title. -/
def ShownUnder (header : String) (p : Part) : Prop :=
  ∀ c ∈ p.chunks, ∃ st : Step, c.2 = [st] ∧ st.title = header ∧ st.shown = some c.1

/-- Each chunk had one screen with the given title, which shows it if its array can. -/
def PutUp (header : String) (p : Part) : Prop :=
  ∀ c ∈ p.chunks, ∃ st : Step, c.2 = [st] ∧ st.title = header ∧
    (st.shown = some c.1 ↔ Readable c.1)

theorem PutUp.shownUnder_iff {header : String} {p : Part} (h : p.PutUp header) :
    p.ShownUnder header ↔ ∀ c ∈ p.chunks, Readable c.1 := by
  refine forall₂_congr fun c hc => ?_
  obtain ⟨st, hst, htitle, hiff⟩ := h c hc
  rw [← hiff]
  constructor
  · rintro ⟨st', hst', -, hshown⟩
    rw [hst] at hst'
    cases hst'
    exact hshown
  · exact fun hshown => ⟨st, hst, htitle, hshown⟩

theorem forall₂_shownUnder_iff {headers : List String} {parts : List Part}
    (h : List.Forall₂ PutUp headers parts) :
    List.Forall₂ ShownUnder headers parts ↔ ∀ p ∈ parts, ∀ c ∈ p.chunks, Readable c.1 := by
  induction h with
  | nil => simp
  | cons hp _ ih => rw [List.forall₂_cons, hp.shownUnder_iff, ih, List.forall_mem_cons]

end Part

/-- The commands of a session: the current one, the parts of the description (the last one first)
and the number of the other payload bytes after the identity. -/
structure Reading where
  p1 : UInt8
  parts : List Part
  keyBytes : Nat

namespace Reading

/-- Bytes that the current command hashes. -/
def hashed (r : Reading) (bytes : List UInt8) : Reading :=
  if r.p1 = SignAddIdentityProvider.p1Initial then r
  else if r.p1 = SignAddIdentityProvider.p1DescriptionLength then
    { r with parts := ⟨beNat bytes, []⟩ :: r.parts }
  else if r.p1 = SignAddIdentityProvider.p1Description then
    match r.parts with
    | p :: ps => { r with parts := { p with chunks := (bytes, []) :: p.chunks } :: ps }
    | [] => r
  else { r with keyBytes := r.keyBytes + bytes.length }

/-- A flow that the current command puts up. -/
def displayed (r : Reading) (flow : List Step) : Reading :=
  if r.p1 = SignAddIdentityProvider.p1Description then
    match r.parts with
    | ⟨n, (bytes, shown) :: cs⟩ :: ps =>
      { r with parts := ⟨n, (bytes, shown ++ flow) :: cs⟩ :: ps }
    | _ => r
  else r

def step (r : Reading) : Action → Reading
  | .handler _ p1 _ _ => { r with p1 }
  | .updateHash bytes => r.hashed bytes
  | .uxFlowInit flow => r.displayed flow
  | _ => r

end Reading

def reading (s : Shared) : Reading := (sessionLog s.log).foldl Reading.step ⟨0, [], 0⟩

/-- The bytes of the parts with their lengths. -/
def partsBytes (parts : List Part) : Nat := (parts.map fun p => 4 + p.received).sum

section Log

variable (s : Shared)

@[simp] theorem reading_updateHash (bytes : List UInt8) :
    reading (s.updateHash bytes) = (reading s).hashed bytes := by
  simp [reading, sessionStep, Reading.step]

@[simp] theorem reading_uxFlowInit (flow : List Step) :
    reading (s.uxFlowInit flow) = (reading s).displayed flow := by
  simp [reading, sessionStep, Reading.step]

@[simp] theorem reading_reply (data : List UInt8) (sw : UInt16) :
    reading (s.reply data sw) = reading s := by
  simp [reading, sessionStep, Reading.step]

@[simp] theorem reading_handler (ins p1 p2 : UInt8) (data : List UInt8) :
    reading (s.act (.handler ins p1 p2 data)) = { reading s with p1 } := by
  simp [reading, sessionStep, Reading.step]

@[simp] theorem reading_sha256Init : reading s.sha256Init = reading s := by
  simp [reading, sessionStep, Reading.step]

@[simp] theorem reading_loadPath (cdata : Ptr) : reading (s.loadPath cdata) = reading s := by
  simp [reading, sessionStep, Reading.step]

end Log

/-! ## The two updates -/

/-- What the handlers of both updates do with their own context while they read the description. -/
structure Outer (γ : Type) where
  payloadLength : γ → UInt32
  /-- `ctx->payloadLength -= n` -/
  subtract : UInt32 → γ → γ
  awaitLength : γ → γ
  awaitText : γ → γ
  awaitKeys : γ → γ
  AwaitsLength : γ → Prop
  AwaitsText : γ → Prop
  AwaitsKeys : γ → Prop
  payloadLength_subtract : ∀ n c, payloadLength (subtract n c) = payloadLength c - n
  payloadLength_await : ∀ c, payloadLength (awaitLength c) = payloadLength c ∧
    payloadLength (awaitText c) = payloadLength c ∧ payloadLength (awaitKeys c) = payloadLength c
  awaitsLength : ∀ c, AwaitsLength (awaitLength c)
  awaitsText : ∀ c, AwaitsText (awaitText c)
  awaitsKeys : ∀ c, AwaitsKeys (awaitKeys c)
  awaitsText_subtract : ∀ n c, AwaitsText c → AwaitsText (subtract n c)

open WithDescription

namespace Outer

variable {γ : Type} (o : Outer γ)

/-- `checkIfDescriptionPartIsDone…` -/
def check : Fw (WithDescription γ) PUnit := do
  let descCtx ← getDescription
  Fw.when (descCtx.textLength = 0) (match descCtx.descriptionState with
    | .description => modifyInner o.awaitKeys
    | _ => modifyInner o.awaitLength)

/-- The command with the length of a part. -/
def handleLength (cdata : Ptr) : Fw (WithDescription γ) PUnit := do
  readTextLength cdata
  modifyInner (o.subtract 4)
  modifyInner o.awaitText
  o.check
  handleDescriptionPart

/-- A command with bytes of a part. -/
def handleText (cdata : Ptr) (dataLength : UInt8) : Fw (WithDescription γ) PUnit := do
  readText cdata dataLength (o.subtract dataLength.toUInt32)
  o.check
  displayDescriptionPart

end Outer

/-! ## Where a session is -/

namespace DescriptionState

/-- The title of a part's screens. -/
def header : DescriptionState → String
  | name => "Name"
  | url => "URL"
  | description => "Description"
  | stale => ""

/-- The titles of the parts before, the last one first. -/
def before : DescriptionState → List String
  | name => []
  | url => ["Name"]
  | description => ["URL", "Name"]
  | stale => []

end DescriptionState

/-- The titles of all parts. -/
def allHeaders : List String := ["Description", "URL", "Name"]

/-- All parts up to here were received, but for `k` of them, and unless one was skipped they were
shown under their titles. -/
structure Settled (k : Nat) (headers : List String) (parts : List Part) : Prop where
  length : parts.length + k = headers.length
  complete : ∀ p ∈ parts, p.Complete
  shown : k = 0 → List.Forall₂ Part.PutUp headers parts

variable {γ : Type}

/-- Where a session is in its description. -/
inductive Described (o : Outer γ) (k : Nat) (t : Device (WithDescription γ)) : Prop
  /-- The next length is awaited. The screen of the part before may still be up. -/
  | waiting (awaits : o.AwaitsLength t.ctx.inner)
      (state : t.ctx.description.descriptionState ≠ .stale)
      (settled : Settled k t.ctx.description.descriptionState.before (reading t.shared).parts)
      (display : Only [.none, .sendSuccessNoIdle, .handleDescriptionPart] t.shared.display)
      (up : (∃ st ∈ t.shared.display, st.callback = .handleDescriptionPart) →
        t.ctx.description.textLength = 0 ∧ t.shared.replyOwed = false ∧
          t.ctx.description.descriptionState ≠ .name)
  /-- More bytes of a part are awaited. -/
  | receiving (p : Part) (ps : List Part) (awaits : o.AwaitsText t.ctx.inner)
      (state : t.ctx.description.descriptionState ≠ .stale)
      (parts : (reading t.shared).parts = p :: ps)
      (settled : Settled k t.ctx.description.descriptionState.before ps)
      (left : p.received + t.ctx.description.textLength.toNat = p.declared)
      (more : t.ctx.description.textLength ≠ 0)
      (shown : p.PutUp t.ctx.description.descriptionState.header)
      (display : Only [.none, .sendSuccessNoIdle, .handleDescriptionPart] t.shared.display)
  /-- The last bytes of the name or the URL are shown. -/
  | shown (awaits : o.AwaitsLength t.ctx.inner)
      (state : t.ctx.description.descriptionState = .name ∨
        t.ctx.description.descriptionState = .url)
      (settled : Settled k (t.ctx.description.descriptionState.header ::
        t.ctx.description.descriptionState.before) (reading t.shared).parts)
      (done : t.ctx.description.textLength = 0) (owed : t.shared.replyOwed = true)
      (display : Only [.none, .handleDescriptionPart] t.shared.display)
  /-- The description is complete. -/
  | keys (awaits : o.AwaitsKeys t.ctx.inner)
      (state : t.ctx.description.descriptionState = .description)
      (settled : Settled k allHeaders (reading t.shared).parts)
      (done : t.ctx.description.textLength = 0)
      (display : Only [.none, .sendSuccessNoIdle, .handleDescriptionPart] t.shared.display)

/-- The bytes of the parts that were hashed are counted on and off. -/
structure Moved (o : Outer γ) (t t' : Device (WithDescription γ)) : Prop where
  bytes : ∃ bytes : List UInt8, t'.shared.hash = t.shared.hash ++ bytes ∧
    partsBytes (reading t'.shared).parts = partsBytes (reading t.shared).parts + bytes.length ∧
    o.payloadLength t'.ctx.inner = o.payloadLength t.ctx.inner - .ofNat bytes.length
  keyBytes : (reading t'.shared).keyBytes = (reading t.shared).keyBytes
  instruction : t'.shared.currentInstruction = t.shared.currentInstruction

/-- Continue on the screen of a part that was answered before, when the next part is the URL: its
step leads past the URL. -/
def Skips (t : Device (WithDescription γ)) : Event → Prop
  | .press i => t.shared.pressed i = .handleDescriptionPart ∧
      t.ctx.description.textLength = 0 ∧ t.ctx.description.descriptionState = .url ∧
      t.shared.replyOwed = false
  | _ => False

instance (t : Device (WithDescription γ)) (e : Event) : Decidable (Skips t e) :=
  match e with
  | .press i => inferInstanceAs (Decidable (t.shared.pressed i = .handleDescriptionPart ∧
      t.ctx.description.textLength = 0 ∧ t.ctx.description.descriptionState = .url ∧
      t.shared.replyOwed = false))
  | .command _ => inferInstanceAs (Decidable False)
  | .noApdu => inferInstanceAs (Decidable False)

section Steps

variable {o : Outer γ} {k : Nat} {t : Device (WithDescription γ)}

theorem Settled.cons {headers : List String} {parts : List Part} {p : Part} {header : String}
    (h : Settled k headers parts) (hp : p.Complete) (hs : p.PutUp header) :
    Settled k (header :: headers) (p :: parts) where
  length := by
    have := h.length
    rw [List.length_cons, List.length_cons]
    omega
  complete := by
    intro q hq
    rcases List.mem_cons.mp hq with rfl | hq
    · exact hp
    · exact h.complete q hq
  shown := fun hk => .cons hs (h.shown hk)

/-- A skipped part. -/
theorem Settled.skip {headers : List String} {parts : List Part} (header : String)
    (h : Settled k headers parts) : Settled (k + 1) (header :: headers) parts where
  length := by
    have := h.length
    rw [List.length_cons]
    omega
  complete := h.complete
  shown := by
    intro hk
    cases hk

theorem handleDescriptionPart_more (h : t.ctx.description.textLength ≠ 0) :
    handleDescriptionPart t = .ok ⟨⟩ ⟨t.ctx, t.shared.reply [] success⟩ := by
  show Prog.bind (Fw.when (t.ctx.description.textLength = 0) _) _ t = _
  rw [Fw.when, if_neg h]
  rfl

/-- The state that follows when a part is done. -/
def DescriptionState.next : DescriptionState → DescriptionState
  | name => url
  | _ => description

namespace DescriptionState

theorem next_ne_stale (s : DescriptionState) : s.next ≠ stale := by
  cases s <;> decide

theorem next_ne_name (s : DescriptionState) : s.next ≠ name := by
  cases s <;> decide

theorem before_next {s : DescriptionState} (h : s ≠ stale) (hlast : s ≠ description) :
    s.next.before = s.header :: s.before := by
  cases s with
  | name => rfl
  | url => rfl
  | description => exact absurd rfl hlast
  | stale => exact absurd rfl h

end DescriptionState

namespace Outer

variable (o)

theorem check_more (h : t.ctx.description.textLength ≠ 0) : o.check t = .ok ⟨⟩ t := by
  show Fw.when (t.ctx.description.textLength = 0) _ t = _
  rw [Fw.when, if_neg h]
  rfl

theorem check_keys (h : t.ctx.description.textLength = 0)
    (hs : t.ctx.description.descriptionState = .description) :
    o.check t = .ok ⟨⟩ ⟨⟨o.awaitKeys t.ctx.inner, t.ctx.description⟩, t.shared⟩ := by
  show Fw.when (t.ctx.description.textLength = 0) _ t = _
  rw [Fw.when, if_pos h, hs]
  rfl

theorem check_length (h : t.ctx.description.textLength = 0)
    (hs : t.ctx.description.descriptionState ≠ .description) :
    o.check t = .ok ⟨⟩ ⟨⟨o.awaitLength t.ctx.inner, t.ctx.description⟩, t.shared⟩ := by
  show Fw.when (t.ctx.description.textLength = 0) _ t = _
  rw [Fw.when, if_pos h]
  cases hst : t.ctx.description.descriptionState with
  | description => exact absurd hst hs
  | _ => rfl

end Outer

theorem handleDescriptionPart_done (h : t.ctx.description.textLength = 0)
    (hs : t.ctx.description.descriptionState ≠ .stale) :
    handleDescriptionPart t = .ok ⟨⟩ ⟨{ t.ctx with description := { t.ctx.description with
      descriptionState := t.ctx.description.descriptionState.next } },
      t.shared.reply [] success⟩ := by
  show Prog.bind (Fw.when (t.ctx.description.textLength = 0) _) _ t = _
  rw [Fw.when, if_pos h]
  cases hst : t.ctx.description.descriptionState with
  | stale => exact absurd hst hs
  | _ => rfl

theorem exists_of_pressed {s : Shared} {i : Nat} {cb : Callback} (h : s.pressed i = cb)
    (hcb : cb ≠ .none) : ∃ st ∈ s.display, st.callback = cb := by
  unfold Shared.pressed at h
  cases hi : s.display[i]? with
  | none =>
    rw [hi] at h
    exact absurd h.symm hcb
  | some st =>
    rw [hi] at h
    exact ⟨st, List.mem_of_getElem? hi, h⟩

theorem Moved.reply (t : Device (WithDescription γ)) (c : WithDescription γ)
    (h : c.inner = t.ctx.inner) : Moved o t ⟨c, t.shared.reply [] success⟩ where
  bytes := by
    refine ⟨[], (List.append_nil _).symm, ?_, ?_⟩
    · rw [reading_reply, List.length_nil, Nat.add_zero]
    · show o.payloadLength c.inner = _
      rw [h]
      simp
  keyBytes := by rw [reading_reply]
  instruction := rfl

/-- A press that only replies. -/
theorem Described.reply {i : Nat} (h : Described o k t)
    (hp : t.shared.pressed i = .sendSuccessNoIdle) :
    Described o k ⟨t.ctx, t.shared.reply [] success⟩ := by
  cases h with
  | waiting awaits state settled display up =>
    exact .waiting awaits state (by rw [reading_reply]; exact settled) display fun hup =>
      ⟨(up hup).1, rfl, (up hup).2.2⟩
  | receiving p ps awaits state parts settled left more shown display =>
    exact .receiving p ps awaits state (by rw [reading_reply]; exact parts) settled left more shown
      display
  | shown awaits state settled done owed display =>
    have hm := pressed_mem display (by decide) i
    rw [hp] at hm
    exact absurd hm (by decide)
  | keys awaits state settled done display =>
    exact .keys awaits state (by rw [reading_reply]; exact settled) done display

/-- Continue on the screen of a part. -/
theorem Described.next {i : Nat} (h : Described o k t)
    (hp : t.shared.pressed i = .handleDescriptionPart) :
    ∃ t', handleDescriptionPart t = .ok ⟨⟩ t' ∧ Moved o t t' ∧
      t'.shared.display = t.shared.display ∧ (¬ Skips t (.press i) → Described o k t') ∧
      (Skips t (.press i) → Described o (k + 1) t') := by
  cases h with
  | waiting awaits state settled display up =>
    obtain ⟨hdone, howed, hname⟩ := up (exists_of_pressed hp (by decide))
    refine ⟨_, handleDescriptionPart_done hdone state, .reply t _ rfl, rfl, fun hno => ?_, fun hsk => ?_⟩
    · cases hst : t.ctx.description.descriptionState with
      | name => exact absurd hst hname
      | url => exact absurd ⟨hp, hdone, hst, howed⟩ hno
      | stale => exact absurd hst state
      | description =>
        refine .waiting awaits (by simp [DescriptionState.next]) ?_ display
          fun _ => ⟨hdone, rfl, by simp [DescriptionState.next]⟩
        rw [reading_reply]
        rw [hst] at settled
        exact settled
    · have hst : t.ctx.description.descriptionState = .url := hsk.2.2.1
      rw [hst] at settled
      refine .waiting awaits (by simp [hst, DescriptionState.next]) ?_ display
        fun _ => ⟨hdone, rfl, by simp [hst, DescriptionState.next]⟩
      rw [reading_reply]
      simp only [hst]
      exact settled.skip "URL"
  | receiving p ps awaits state parts settled left more shown display =>
    refine ⟨_, handleDescriptionPart_more more, .reply t _ rfl, rfl, fun _ => ?_, fun hsk => ?_⟩
    · exact .receiving p ps awaits state (by rw [reading_reply]; exact parts) settled left more
        shown display
    · exact absurd hsk.2.1 more
  | shown awaits state settled done owed display =>
    have hst : t.ctx.description.descriptionState ≠ .stale := by
      rcases state with h | h <;> rw [h] <;> decide
    refine ⟨_, handleDescriptionPart_done done hst, .reply t _ rfl, rfl, fun _ => ?_, fun hsk => ?_⟩
    · have hown : Only [.none, .sendSuccessNoIdle, .handleDescriptionPart] t.shared.display :=
        display.mono (by simp)
      rcases state with hname | hurl
      · refine .waiting awaits (by simp [hname, DescriptionState.next]) ?_ hown
          fun _ => ⟨done, rfl, by simp [hname, DescriptionState.next]⟩
        rw [reading_reply]
        rw [hname] at settled
        simp only [hname]
        exact settled
      · refine .waiting awaits (by simp [hurl, DescriptionState.next]) ?_ hown
          fun _ => ⟨done, rfl, by simp [hurl, DescriptionState.next]⟩
        rw [reading_reply]
        rw [hurl] at settled
        simp only [hurl]
        exact settled
    · rw [hsk.2.2.2] at owed
      cases owed
  | keys awaits state settled done display =>
    have hst : t.ctx.description.descriptionState ≠ .stale := by
      rw [state]
      decide
    refine ⟨_, handleDescriptionPart_done done hst, .reply t _ rfl, rfl, fun _ => ?_, fun hsk => ?_⟩
    · exact .keys awaits (by simp [state, DescriptionState.next])
        (by rw [reading_reply]; exact settled) done display
    · have hurl := hsk.2.2.1
      rw [state] at hurl
      cases hurl

theorem partsBytes_cons (p : Part) (ps : List Part) :
    partsBytes (p :: ps) = 4 + p.received + partsBytes ps := by
  rw [partsBytes, List.map_cons, List.sum_cons, partsBytes]

theorem Reading.hashed_length {r : Reading} (h : r.p1 = SignAddIdentityProvider.p1DescriptionLength)
    (bytes : List UInt8) : r.hashed bytes = { r with parts := ⟨beNat bytes, []⟩ :: r.parts } := by
  rw [hashed, if_neg (by rw [h]; decide), if_pos h]

/-- The command with the length of a part. -/
theorem handleLength_described {cdata : Ptr}
    (hp1 : (reading t.shared).p1 = SignAddIdentityProvider.p1DescriptionLength)
    (state : t.ctx.description.descriptionState ≠ .stale)
    (settled : Settled k t.ctx.description.descriptionState.before (reading t.shared).parts)
    (display : Only [.none, .sendSuccessNoIdle, .handleDescriptionPart] t.shared.display) :
    wp (o.handleLength cdata) (fun _ t' => Described o k t' ∧ Moved o t t') (fun _ _ => True) t := by
  -- the context after the length was read, and the one after the check
  let c : WithDescription γ :=
    ⟨o.awaitText (o.subtract 4 t.ctx.inner), { t.ctx.description with textLength := cdata.u4be 0 }⟩
  let s := t.shared.updateHash (cdata.slice 4)
  have hread : reading s = { reading t.shared with
      parts := ⟨(cdata.u4be 0).toNat, []⟩ :: (reading t.shared).parts } := by
    rw [reading_updateHash, Reading.hashed_length hp1, Ptr.u4be_toNat, Ptr.advance_zero]
  have hpay : o.payloadLength c.inner = o.payloadLength t.ctx.inner - 4 := by
    rw [(o.payloadLength_await _).2.1, o.payloadLength_subtract]
  have hmoved (d : WithDescription γ) (hd : o.payloadLength d.inner = o.payloadLength c.inner) :
      Moved o t ⟨d, s.reply [] success⟩ := by
    refine ⟨⟨cdata.slice 4, rfl, ?_, ?_⟩, ?_, rfl⟩
    · rw [reading_reply, hread, partsBytes_cons, Nat.add_comm]
      rfl
    · exact hd.trans hpay
    · rw [reading_reply, hread]
  have hshown (header : String) : Part.PutUp header ⟨(cdata.u4be 0).toNat, []⟩ :=
    fun chunk hchunk => by cases hchunk
  show wp (o.check.bind fun _ => handleDescriptionPart) _ _ ⟨c, s⟩
  refine (wp_bind _ _).mpr ?_
  by_cases hz : cdata.u4be 0 = 0
  · -- an empty part is done at once
    have hcomplete : Part.Complete ⟨(cdata.u4be 0).toNat, []⟩ := by
      rw [hz]
      rfl
    have hnext := settled.cons hcomplete (hshown t.ctx.description.descriptionState.header)
    by_cases hlast : t.ctx.description.descriptionState = .description
    · refine wp_of_ok (o.check_keys hz hlast) (wp_of_ok (handleDescriptionPart_done hz state)
        ⟨.keys (o.awaitsKeys _) ?_ ?_ hz display, hmoved _ (o.payloadLength_await _).2.2⟩)
      · simp only [c, hlast, DescriptionState.next]
      · rw [reading_reply, hread]
        rw [hlast] at hnext
        exact hnext
    · refine wp_of_ok (o.check_length hz hlast) (wp_of_ok (handleDescriptionPart_done hz state)
        ⟨.waiting (o.awaitsLength _) (DescriptionState.next_ne_stale _) ?_ display
          fun _ => ⟨hz, rfl, DescriptionState.next_ne_name _⟩,
          hmoved _ (o.payloadLength_await _).1⟩)
      rw [reading_reply, hread]
      exact (DescriptionState.before_next state hlast).symm ▸ hnext
  · refine wp_of_ok (o.check_more hz) (wp_of_ok (handleDescriptionPart_more hz) ⟨?_, hmoved c rfl⟩)
    refine .receiving ⟨(cdata.u4be 0).toNat, []⟩ (reading t.shared).parts (o.awaitsText _) state
      ?_ settled (Nat.zero_add _) hz (hshown _) display
    rw [reading_reply, hread]

/-- What the array shows once a chunk is in it. -/
theorem cString_text_iff (b : Buffer 255) {chunk : List UInt8} (h : chunk.length < 255) :
    cString ((b.memmove 0 chunk).memmove chunk.length [0]).bytes = some chunk ↔ 0 ∉ chunk := by
  have hbytes := Buffer.memmove_memmove b chunk [0]
    (by rw [List.length_append, List.length_singleton]; omega)
  rw [hbytes]
  refine ⟨zero_not_mem_of_cString, fun h0 => ?_⟩
  have hlen : (chunk ++ [0]).length ≤ 255 := by
    rw [List.length_append, List.length_singleton]
    omega
  obtain ⟨rest, hrest⟩ := Buffer.prefix_memmove b hlen
  rw [← hrest, List.append_assoc]
  exact cString_append_nul chunk rest h0

/-- A chunk that fills the array leaves no NUL behind it. -/
theorem cString_text_ne (b : Buffer 255) {chunk : List UInt8} (h : chunk.length = 255) :
    cString (b.memmove 0 chunk).bytes ≠ some chunk := by
  intro hs
  have hbytes : (b.memmove 0 chunk).bytes = chunk := by
    obtain ⟨rest, hrest⟩ := Buffer.prefix_memmove b (show chunk.length ≤ 255 by omega)
    have hlen := congrArg List.length hrest
    rw [List.length_append, h, (b.memmove 0 chunk).length_eq] at hlen
    have hnil : rest = [] := List.eq_nil_of_length_eq_zero (by omega)
    rw [← hrest, hnil, List.append_nil]
  have h0 := zero_not_mem_of_cString hs
  rw [hbytes, cString, if_neg h0] at hs
  cases hs

theorem readText_ok (cdata : Ptr) (count : γ → γ) {dataLength : UInt8}
    (h : ¬ t.ctx.description.textLength < dataLength.toUInt32) :
    ∃ text : Buffer 255, (cString text.bytes = some (cdata.slice dataLength.toNat) ↔
        Readable (cdata.slice dataLength.toNat)) ∧
      readText cdata dataLength count t = .ok ⟨⟩ ⟨⟨count t.ctx.inner, { t.ctx.description with
        text := text
        textLength := t.ctx.description.textLength - dataLength.toUInt32 }⟩,
        t.shared.updateHash (cdata.slice dataLength.toNat)⟩ := by
  have hlen := Ptr.slice_length cdata dataLength.toNat
  by_cases hfull : dataLength < 255
  · have hlt : dataLength.toNat < 255 := UInt8.lt_iff_toNat_lt.mp hfull
    refine ⟨(t.ctx.description.text.memmove 0 (cdata.slice dataLength.toNat)).memmove
      dataLength.toNat [0], ?_, ?_⟩
    · have hchunk : (cdata.slice dataLength.toNat).length < 255 := by rw [hlen]; exact hlt
      have hiff := cString_text_iff t.ctx.description.text hchunk
      rw [hlen] at hiff
      rw [hiff, Readable, hlen]
      exact (and_iff_right hlt).symm
    · show Prog.bind (Fw.throwIf (t.ctx.description.textLength < dataLength.toUInt32) _) _ t = _
      rw [Fw.throwIf, if_neg h]
      show Fw.when (dataLength < 255) _ _ = _
      rw [Fw.when, if_pos hfull]
      rfl
  · have heq : dataLength.toNat = 255 := by
      have hge := UInt8.le_iff_toNat_le.mp (UInt8.not_lt.mp hfull)
      have hlt := dataLength.toNat_lt
      have h255 : (255 : UInt8).toNat = 255 := rfl
      omega
    refine ⟨t.ctx.description.text.memmove 0 (cdata.slice dataLength.toNat), ?_, ?_⟩
    · refine iff_of_false (cString_text_ne _ (hlen.trans heq)) fun hr => ?_
      have hshort := hr.1
      rw [hlen, heq] at hshort
      exact absurd hshort (Nat.lt_irrefl 255)
    · show Prog.bind (Fw.throwIf (t.ctx.description.textLength < dataLength.toUInt32) _) _ t = _
      rw [Fw.throwIf, if_neg h]
      show Fw.when (dataLength < 255) _ _ = _
      rw [Fw.when, if_neg hfull]
      rfl

theorem titleOf_header {b : Buffer 12} (header : String) (hz : 0 ∉ ascii header)
    (hlen : (ascii header).length < 12)
    (hback : .ofList ((ascii header).map fun b => Char.ofNat b.toNat) = header) :
    titleOf (b.memmove 0 (literal header)).bytes = header := by
  rw [titleOf, literal, cString_memmove b _ hz hlen]
  exact hback

theorem displayDescriptionPart_ok (hs : t.ctx.description.descriptionState ≠ .stale) :
    ∃ header : Buffer 12,
      titleOf header.bytes = t.ctx.description.descriptionState.header ∧
      displayDescriptionPart t = .ok ⟨⟩ ⟨⟨t.ctx.inner, { t.ctx.description with header := header }⟩,
        { t.shared.uxFlowInit (uxSignDescription { t.ctx.description with header := header }) with
          asynchReply := true }⟩ := by
  obtain ⟨⟨inner, textLength, header, text, state⟩, s⟩ := t
  cases state with
  | stale => exact absurd rfl hs
  | name =>
    exact ⟨_, titleOf_header (b := header) "Name" (by decide) (by decide) (by decide), rfl⟩
  | url => exact ⟨_, titleOf_header (b := header) "URL" (by decide) (by decide) (by decide), rfl⟩
  | description =>
    exact ⟨_, titleOf_header (b := header) "Description" (by decide) (by decide) (by decide), rfl⟩

theorem readText_thrown {cdata : Ptr} {dataLength : UInt8} {count : γ → γ}
    (h : t.ctx.description.textLength < dataLength.toUInt32) :
    readText cdata dataLength count t = .thrown .invalidState t := by
  show Prog.bind (Fw.throwIf (t.ctx.description.textLength < dataLength.toUInt32) _) _ t = _
  rw [Fw.throwIf, if_pos h]
  rfl

/-- The part with one chunk more. -/
theorem Reading.hashed_text {r : Reading} {p : Part} {ps : List Part}
    (h : r.p1 = SignAddIdentityProvider.p1Description) (hp : r.parts = p :: ps)
    (bytes : List UInt8) (flow : List Step) :
    (r.hashed bytes).displayed flow =
      { r with parts := { p with chunks := (bytes, flow) :: p.chunks } :: ps } := by
  rw [hashed, if_neg (by rw [h]; decide), if_neg (by rw [h]; decide), if_pos h, hp]
  simp only [displayed, if_pos h, List.nil_append]

theorem Part.received_chunk (p : Part) (bytes : List UInt8) (flow : List Step) :
    Part.received { p with chunks := (bytes, flow) :: p.chunks } = bytes.length + p.received := by
  rw [received, List.map_cons, List.sum_cons, received]

/-- The part `p'` is `p` with a chunk more, which is on the display. -/
structure Grown (t : Device (WithDescription γ)) (chunk : List UInt8) (p : Part) (ps : List Part)
    (t' : Device (WithDescription γ)) (p' : Part) : Prop where
  declared : p'.declared = p.declared
  received : p'.received = chunk.length + p.received
  putUp : p'.PutUp t.ctx.description.descriptionState.header
  read : reading t'.shared = { reading t.shared with parts := p' :: ps }
  textLength : t'.ctx.description.textLength.toNat =
    t.ctx.description.textLength.toNat - chunk.length
  state : t'.ctx.description.descriptionState = t.ctx.description.descriptionState
  hash : t'.shared.hash = t.shared.hash ++ chunk
  instruction : t'.shared.currentInstruction = t.shared.currentInstruction
  replyOwed : t'.shared.replyOwed = t.shared.replyOwed
  display : Only [.none, .handleDescriptionPart] t'.shared.display

section Text

variable {chunk : List UInt8} {p p' : Part} {ps : List Part} {t' : Device (WithDescription γ)}

theorem displayDescriptionPart_grown (inner : γ) {text : Buffer 255} {textLength : UInt32}
    (hp1 : (reading t.shared).p1 = SignAddIdentityProvider.p1Description)
    (state : t.ctx.description.descriptionState ≠ .stale)
    (parts : (reading t.shared).parts = p :: ps)
    (shown : p.PutUp t.ctx.description.descriptionState.header)
    (htext : cString text.bytes = some chunk ↔ Readable chunk)
    (hlength : textLength.toNat = t.ctx.description.textLength.toNat - chunk.length) :
    ∃ t' p', displayDescriptionPart ⟨⟨inner, { t.ctx.description with
        text := text, textLength := textLength }⟩, t.shared.updateHash chunk⟩ = .ok ⟨⟩ t' ∧
      t'.ctx.inner = inner ∧ t'.ctx.description.textLength = textLength ∧
      Grown t chunk p ps t' p' := by
  let desc : Context := { t.ctx.description with text := text, textLength := textLength }
  obtain ⟨header, htitle, hok⟩ :=
    displayDescriptionPart_ok (t := ⟨⟨inner, desc⟩, t.shared.updateHash chunk⟩) state
  let c : Context := { desc with header := header }
  refine ⟨_, { p with chunks := (chunk, uxSignDescription c) :: p.chunks }, hok, rfl, rfl, ?_⟩
  refine ⟨rfl, Part.received_chunk _ _ _, ?_, ?_, hlength, rfl, rfl, rfl, rfl, ?_⟩
  · intro chunk' hchunk
    rcases List.mem_cons.mp hchunk with rfl | hchunk
    · exact ⟨_, rfl, htitle, htext⟩
    · exact shown chunk' hchunk
  · show reading ((t.shared.updateHash chunk).uxFlowInit (uxSignDescription c)) = _
    rw [reading_uxFlowInit, reading_updateHash, Reading.hashed_text hp1 parts]
  · show Only _ (uxSignDescription c)
    simp [Only, uxSignDescription]

theorem Grown.moved (h : Grown t chunk p ps t' p') (parts : (reading t.shared).parts = p :: ps)
    (hpay : o.payloadLength t'.ctx.inner = o.payloadLength t.ctx.inner - .ofNat chunk.length) :
    Moved o t t' := by
  refine ⟨⟨chunk, h.hash, ?_, hpay⟩, ?_, h.instruction⟩
  · rw [h.read, parts, partsBytes_cons, partsBytes_cons, h.received]
    omega
  · rw [h.read]

/-- The part is settled with its last chunk. -/
theorem Grown.settled (h : Grown t chunk p ps t' p')
    (settled : Settled k t.ctx.description.descriptionState.before ps)
    (left : p.received + t.ctx.description.textLength.toNat = p.declared)
    (hle : chunk.length ≤ t.ctx.description.textLength.toNat)
    (hz : t'.ctx.description.textLength = 0) :
    Settled k (t.ctx.description.descriptionState.header ::
      t.ctx.description.descriptionState.before) (reading t'.shared).parts := by
  have hlength := h.textLength
  rw [hz, UInt32.toNat_zero] at hlength
  have hcomplete : p'.Complete := by
    rw [Part.Complete, h.received, h.declared]
    omega
  rw [h.read]
  exact settled.cons hcomplete h.putUp

theorem Grown.keys (h : Grown t chunk p ps t' p') (awaits : o.AwaitsKeys t'.ctx.inner)
    (hlast : t.ctx.description.descriptionState = .description)
    (settled : Settled k (t.ctx.description.descriptionState.header ::
      t.ctx.description.descriptionState.before) (reading t'.shared).parts)
    (hz : t'.ctx.description.textLength = 0) : Described o k t' := by
  rw [hlast] at settled
  exact .keys awaits (h.state.trans hlast) settled hz (h.display.mono (by simp))

theorem Grown.shown (h : Grown t chunk p ps t' p') (awaits : o.AwaitsLength t'.ctx.inner)
    (state : t.ctx.description.descriptionState ≠ .stale)
    (hlast : t.ctx.description.descriptionState ≠ .description)
    (howed : t.shared.replyOwed = true)
    (settled : Settled k (t.ctx.description.descriptionState.header ::
      t.ctx.description.descriptionState.before) (reading t'.shared).parts)
    (hz : t'.ctx.description.textLength = 0) : Described o k t' := by
  refine .shown awaits ?_ ?_ hz (h.replyOwed.trans howed) h.display
  · rw [h.state]
    cases hst : t.ctx.description.descriptionState with
    | name => exact .inl rfl
    | url => exact .inr rfl
    | description => exact absurd hst hlast
    | stale => exact absurd hst state
  · rw [h.state]
    exact settled

theorem Grown.receiving (h : Grown t chunk p ps t' p') (awaits : o.AwaitsText t'.ctx.inner)
    (state : t.ctx.description.descriptionState ≠ .stale)
    (settled : Settled k t.ctx.description.descriptionState.before ps)
    (left : p.received + t.ctx.description.textLength.toNat = p.declared)
    (hle : chunk.length ≤ t.ctx.description.textLength.toNat)
    (hz : t'.ctx.description.textLength ≠ 0) : Described o k t' := by
  refine .receiving p' ps awaits ?_ ?_ ?_ ?_ hz ?_ (h.display.mono (by simp))
  · rw [h.state]
    exact state
  · rw [h.read]
  · rw [h.state]
    exact settled
  · rw [h.textLength, h.received, h.declared]
    omega
  · rw [h.state]
    exact h.putUp

/-- A command with bytes of a part. -/
theorem handleText_described {cdata : Ptr} {dataLength : UInt8}
    (hp1 : (reading t.shared).p1 = SignAddIdentityProvider.p1Description)
    (howed : t.shared.replyOwed = true)
    (awaits : o.AwaitsText t.ctx.inner)
    (state : t.ctx.description.descriptionState ≠ .stale)
    (parts : (reading t.shared).parts = p :: ps)
    (settled : Settled k t.ctx.description.descriptionState.before ps)
    (left : p.received + t.ctx.description.textLength.toNat = p.declared)
    (shown : p.PutUp t.ctx.description.descriptionState.header) :
    wp (o.handleText cdata dataLength) (fun _ t' => Described o k t' ∧ Moved o t t')
      (fun _ _ => True) t := by
  refine (wp_bind _ _).mpr ?_
  by_cases hlen : t.ctx.description.textLength < dataLength.toUInt32
  · rw [wp, readText_thrown hlen]
    trivial
  obtain ⟨text, htext, hread⟩ := readText_ok cdata (o.subtract dataLength.toUInt32) hlen
  refine wp_of_ok hread ((wp_bind _ _).mpr ?_)
  have hslice := Ptr.slice_length cdata dataLength.toNat
  have hle : dataLength.toUInt32 ≤ t.ctx.description.textLength := UInt32.not_lt.mp hlen
  have hle' : (cdata.slice dataLength.toNat).length ≤ t.ctx.description.textLength.toNat := by
    have := UInt32.le_iff_toNat_le.mp hle
    rwa [UInt8.toNat_toUInt32, ← hslice] at this
  have hleft : (t.ctx.description.textLength - dataLength.toUInt32).toNat =
      t.ctx.description.textLength.toNat - (cdata.slice dataLength.toNat).length := by
    rw [UInt32.toNat_sub_of_le _ _ hle, UInt8.toNat_toUInt32, hslice]
  have hn : UInt32.ofNat (cdata.slice dataLength.toNat).length = dataLength.toUInt32 := by
    apply UInt32.toNat_inj.mp
    have := dataLength.toNat_lt
    rw [hslice, UInt32.toNat_ofNat', UInt8.toNat_toUInt32]
    exact Nat.mod_eq_of_lt (by omega)
  have hup (inner : γ) := displayDescriptionPart_grown inner hp1 state parts shown htext hleft
  by_cases hz : t.ctx.description.textLength - dataLength.toUInt32 = 0
  · by_cases hlast : t.ctx.description.descriptionState = .description
    · obtain ⟨t', p', hok, hinner, hlength, hgrown⟩ :=
        hup (o.awaitKeys (o.subtract dataLength.toUInt32 t.ctx.inner))
      have hdone := hlength.trans hz
      refine wp_of_ok (o.check_keys hz hlast) (wp_of_ok hok ⟨?_, hgrown.moved parts ?_⟩)
      · exact hgrown.keys (hinner ▸ o.awaitsKeys _) hlast (hgrown.settled settled left hle' hdone)
          hdone
      · rw [hinner, hn, (o.payloadLength_await _).2.2, o.payloadLength_subtract]
    · obtain ⟨t', p', hok, hinner, hlength, hgrown⟩ :=
        hup (o.awaitLength (o.subtract dataLength.toUInt32 t.ctx.inner))
      have hdone := hlength.trans hz
      refine wp_of_ok (o.check_length hz hlast) (wp_of_ok hok ⟨?_, hgrown.moved parts ?_⟩)
      · exact hgrown.shown (hinner ▸ o.awaitsLength _) state hlast howed
          (hgrown.settled settled left hle' hdone) hdone
      · rw [hinner, hn, (o.payloadLength_await _).1, o.payloadLength_subtract]
  · obtain ⟨t', p', hok, hinner, hlength, hgrown⟩ :=
      hup (o.subtract dataLength.toUInt32 t.ctx.inner)
    refine wp_of_ok (o.check_more hz) (wp_of_ok hok ⟨?_, hgrown.moved parts ?_⟩)
    · exact hgrown.receiving (hinner ▸ o.awaitsText_subtract _ _ awaits) state settled left hle'
        (by rw [hlength]; exact hz)
    · rw [hinner, hn, o.payloadLength_subtract]

end Text

end Steps

end DescriptionView
end ConcordiumLedger
