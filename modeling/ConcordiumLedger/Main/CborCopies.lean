import ConcordiumLedger.Common.Sessions
import ConcordiumLedger.Common.ZeroAddress
import ConcordiumLedger.Main.CborText
import ConcordiumLedger.Main.Frames

/-!
# Main.CborCopies

The copies that `readCborContent` makes to the display, in runs of any commands. A first command that
ends inside the head of its item makes `contentLength` wrap, and a second command is copied before
the remaining length is compared, so the copies stay in bounds exactly as long as neither happens.

* `copyOf`      — the copy that a command leads to.
* `DataReader`  — how an instruction reads its memo or its data, as its handler computes it.
* `InBounds`    — the copy takes what is in the command and fits the display.
* `DataFits`    — the head of an item arrives with its first command, and its text fits.
-/

namespace ConcordiumLedger

open CMem CProg CProg.Prog Transition

variable {μ γ : Type}

/-- The instructions that put up a step with this callback. -/
def Callback.owners : Callback → List UInt8
  | .sendPublicKey => [insGetPublicKey]
  | .exportPrivateKey => [insExportPrivateKey]
  | .processNextScheduledAmount =>
    [insSignTransferWithSchedule, insSignTransferWithScheduleAndMemo]
  | .processNextVerificationKey => [insCredentialDeployment, insSignUpdateCredential]
  | .handleData => [insRegisterData]
  | _ => []

/-- A press does not run a callback of another instruction than the current one. -/
def OwnCallback (d : Device μ) : Event → Prop
  | .press i => ∀ ins ∈ d.shared.currentInstruction,
      (d.shared.pressed i).isShared = true ∨ ins ∈ (d.shared.pressed i).owners
  | _ => True

instance (d : Device μ) (ev : Event) : Decidable (OwnCallback d ev) :=
  match ev with
  | .press _ => inferInstanceAs (Decidable (∀ ins ∈ d.shared.currentInstruction, _ ∨ _))
  | .command _ => inferInstanceAs (Decidable True)
  | .noApdu => inferInstanceAs (Decidable True)

/-! ## One copy -/

/-- The functions of `displayCbor.c` that a command leads to. -/
inductive CborCall where
  | initial
  | content
deriving DecidableEq

/-- A call of `memmove` in `readCborContent`: where its bytes start in the data of the command, how
many there are, and where in the display they go. -/
structure CborCopy where
  start : Nat
  contentLength : Nat
  displayUsed : Nat
deriving DecidableEq

def copyOf (c : CborContext) (apdu : Apdu) : CborCall → Option CborCopy
  | .initial =>
    match cborSize (apdu.cdata 0 &&& 0x1F) (apdu.cdata.advance 1) with
    | .error _ => none
    | .ok (sizeLength, length) =>
      if apdu.cdata 0 >>> 5 = 3 ∧ (c.cborLength - 1 - sizeLength.toUInt32).toUInt64 = length then
        some ⟨1 + sizeLength.toNat, (apdu.lc - 1 - sizeLength).toNat, 0⟩
      else none
  | .content => if c.majorType = 3 then some ⟨0, apdu.lc.toNat, c.displayUsed.toNat⟩ else none

/-- The copy is made, and nothing else is written to the display. -/
def Copied (c c' : CborContext) (apdu : Apdu) (k : CborCopy) : Prop :=
  c'.display = c.display.memmove k.displayUsed ((apdu.cdata.advance k.start).slice k.contentLength)

/-- What a call that returns leaves: a text has been copied and counted. -/
structure CborRead (call : CborCall) (c c' : CborContext) (apdu : Apdu) : Prop where
  copied : ∀ k, copyOf c apdu call = some k → Copied c c' apdu k
  used : ∀ k, copyOf c apdu call = some k →
    c'.displayUsed = .ofNat (k.displayUsed + k.contentLength)
  text : c'.majorType = 3 → ∃ k, copyOf c apdu call = some k

theorem copyOf_initial {c : CborContext} {apdu : Apdu} {s : UInt8} {n : UInt64}
    (hs : cborSize (apdu.cdata 0 &&& 0x1F) (apdu.cdata.advance 1) = .ok (s, n)) :
    copyOf c apdu .initial =
      if apdu.cdata 0 >>> 5 = 3 ∧ (c.cborLength - 1 - s.toUInt32).toUInt64 = n then
        some ⟨1 + s.toNat, (Memo.contentOf apdu.lc s).toNat, 0⟩
      else none := by
  simp only [copyOf, hs]
  rfl

theorem cborSize_of_sizeRead {short : UInt8} {p : Ptr} {s : UInt8} {n : UInt64}
    (h : Memo.SizeRead short p s n) : cborSize short p = .ok (s, n) := by
  obtain ⟨s', n', hok, hs⟩ := Memo.cborSize_total h.size p
  have hread := Memo.cborSize_ok hok
  have hn : n' = n := UInt64.toNat_inj.mp (by rw [hread.argument, h.argument, hs])
  rw [hok, hn, UInt8.toNat_inj.mp hs]

/-- `readCborInitial` makes the copy if it returns with a text, and else none. -/
theorem readCborInitial_read (c : CborContext) (s : Shared) (apdu : Apdu) :
    wp (readCborInitial apdu.cdata apdu.lc)
      (fun _ t => t.shared = s ∧ CborRead .initial c t.ctx apdu)
      (fun _ _ => copyOf c apdu .initial = none) ⟨c, s⟩ := by
  refine wp_mono (Memo.readCborInitial_outcome apdu.cdata apdu.lc) (fun _ t h => ?_)
    fun _ _ hno => ?_
  · obtain ⟨hshared, size, n, hitem⟩ := h
    have hcopy := copyOf_initial (c := c) (cborSize_of_sizeRead hitem.size)
    refine ⟨hshared, ?_⟩
    rcases hitem.content with ⟨h01, -⟩ | ⟨h3, hn, -, hused, hdisplay⟩
    · have hne : ¬ t.ctx.majorType = 3 := by
        rcases h01 with h | h <;> rw [h] <;> decide
      rw [if_neg fun h => hne (hitem.major.trans h.1)] at hcopy
      refine ⟨fun k hk => ?_, fun k hk => ?_, fun h => absurd h hne⟩
      · rw [hcopy] at hk
        cases hk
      · rw [hcopy] at hk
        cases hk
    · rw [if_pos ⟨hitem.major.symm.trans h3, hn⟩] at hcopy
      refine ⟨fun k hk => ?_, fun k hk => ?_, fun _ => ⟨_, hcopy⟩⟩
      · rw [hcopy] at hk
        cases hk
        exact hdisplay
      · rw [hcopy] at hk
        cases hk
        rw [hused, Nat.zero_add]
        exact UInt32.toNat_inj.mp (by simp)
  · cases hk : copyOf c apdu .initial with
    | none => rfl
    | some k =>
      refine absurd ?_ hno
      cases hs : cborSize (apdu.cdata 0 &&& 0x1F) (apdu.cdata.advance 1) with
      | error e => simp [copyOf, hs] at hk
      | ok p =>
        obtain ⟨size, n⟩ := p
        rw [copyOf_initial hs] at hk
        split at hk
        · rename_i htext
          exact ⟨size, n, hs, .inr htext⟩
        · cases hk

theorem readCborContent_read (c : CborContext) (s : Shared) (apdu : Apdu) :
    wp (readCborContent apdu.cdata apdu.lc)
      (fun _ t => t.shared = s ∧ CborRead .content c t.ctx apdu)
      (fun _ _ => copyOf c apdu .content = none) ⟨c, s⟩ := by
  rw [Memo.wp_readCborContent]
  have hcopy : copyOf c apdu .content =
      if c.majorType = 3 then some ⟨0, apdu.lc.toNat, c.displayUsed.toNat⟩ else none := rfl
  refine ⟨fun h3 => ⟨rfl, ?_, ?_, ?_⟩, fun h => ?_, fun h _ => ?_⟩
  · intro k hk
    rw [hcopy, if_pos h3] at hk
    cases hk
    show _ = c.display.memmove _ ((apdu.cdata.advance 0).slice _)
    rw [Ptr.advance_zero]
  · intro k hk
    rw [hcopy, if_pos h3] at hk
    cases hk
    apply UInt32.toNat_inj.mp
    simp [UInt32.toNat_add]
  · intro _
    exact ⟨_, by rw [hcopy, if_pos h3]⟩
  · rw [hcopy, if_neg]
    intro h3
    have h3' : c.majorType = 3 := h3
    rcases h with h | h
    · rw [show c.majorType = 0 from h] at h3'
      cases h3'
    · rw [show c.majorType = 1 from h] at h3'
      cases h3'
  · rw [hcopy, if_neg h]

/-! ## How an instruction reads its data -/

/-- Where a session stands: before its first data command, between a text's first command and its
second, or anywhere else. -/
inductive DataPhase where
  | fresh
  | content
  | past
deriving DecidableEq

/-- A command with content follows the first one of a text only. -/
def DataPhase.ofContent (c : CborContext) : DataPhase := if c.majorType = 3 then .content else .past

/-- An instruction with data: `call` is what its handler calls for a command, `p1` is the P1 of the
commands with data. -/
structure DataReader (μ γ : Type) where
  ins : UInt8
  p1 : UInt8
  member : Member μ (WithDataBlob γ)
  call : WithDataBlob γ → Apdu → Bool → Option CborCall
  phase : WithDataBlob γ → DataPhase

namespace DataReader

/-- What a handler that returns has done, from the context `c`. -/
structure Handled (r : DataReader μ γ) (apdu : Apdu) (b : Bool) (c c' : WithDataBlob γ) : Prop where
  read : ∀ call, r.call c apdu b = some call →
    CborRead call c.cborContext c'.cborContext apdu ∧ r.phase c' ≠ .fresh
  skipped : r.call c apdu b = none → c'.cborContext.display = c.cborContext.display ∧
    r.phase c' ≠ .content ∧
    (r.phase c' = .fresh → apdu.p1 ≠ r.p1 ∧ (b = false → r.phase c = .fresh))

/-- A handler that throws may have made its copy before. -/
def Thrown (r : DataReader μ γ) (apdu : Apdu) (b : Bool) (c c' : WithDataBlob γ) : Prop :=
  ∀ call k, r.call c apdu b = some call → copyOf c.cborContext apdu call = some k →
    Copied c.cborContext c'.cborContext apdu k

/-- The reader describes the instruction of the application. -/
structure Lawful (app : App μ) (r : DataReader μ γ) : Prop where
  handler : ∀ apdu b, apdu.ins = r.ins → ∃ x, app.handler apdu b = Fw.on r.member x ∧
    ∀ t, wp x (fun _ t' => r.Handled apdu b t.ctx t'.ctx) (fun _ t' => r.Thrown apdu b t.ctx t'.ctx) t
  callback : ∀ cb, r.ins ∈ cb.owners → ∃ x, app.callback cb = Fw.on r.member x ∧
    ∀ t, wp x (fun _ t' => r.phase t'.ctx = r.phase t.ctx ∧ t'.ctx.cborContext = t.ctx.cborContext)
      (fun _ _ => True) t
  shared : ∀ cb, cb.isShared = true → ∀ d, Passed d (finish (app.callback cb d))
  initial : ∀ c apdu b, r.call c apdu b = some .initial →
    b = false ∧ apdu.p1 = r.p1 ∧ r.phase c = .fresh
  content : ∀ c apdu b, r.call c apdu b = some .content →
    b = false ∧ apdu.p1 = r.p1 ∧ (c.cborContext.majorType = 3 → r.phase c = .content)
  phase : ∀ c, r.phase c = .content → c.cborContext.majorType = 3
  sessions : KeepsSessions app
  data : KeepsData app r.p1

/-! ## Runs -/

/-- What a command that arrives calls. -/
def callAt (r : DataReader μ γ) (d : Device μ) (apdu : Apdu) : Option CborCall :=
  if apdu.cla = 0xE0 ∧ apdu.ins = r.ins then
    match d.shared.currentInstruction with
    | none => r.call (r.member.get d.ctx) apdu true
    | some ins => if ins = r.ins then r.call (r.member.get d.ctx) apdu false else none
  else none

def copyAt (r : DataReader μ γ) (d : Device μ) (apdu : Apdu) : Option CborCopy :=
  (r.callAt d apdu).bind (copyOf (r.member.get d.ctx).cborContext apdu)

/-- The copy that is made takes at most the bytes of its command and ends within the display. -/
def InBounds (r : DataReader μ γ) (d : Device μ) (ev : Event) (d' : Device μ) : Prop :=
  ∀ apdu k, ev = .command apdu → r.copyAt d apdu = some k →
    Copied (r.member.get d.ctx).cborContext (r.member.get d'.ctx).cborContext apdu k ∧
      k.start + k.contentLength ≤ apdu.lc.toNat ∧ k.displayUsed + k.contentLength ≤ 255

/-- The length of the head of a CBOR item. -/
def headSize (header : UInt8) : Nat := 1 + (Cbor.argumentSize (header &&& 0x1F)).getD 0

/-- The bytes of text in the data of an item that has arrived so far. -/
def textBytes (data : List UInt8) : Nat := data.length - headSize (data.headD 0)

/-- A first command with a text has the whole head, and the text that has arrived with a second one
is not longer than 255 bytes. -/
def DataFits (r : DataReader μ γ) (d : Device μ) (ev : Event) : Prop :=
  ∀ apdu k, ev = .command apdu → r.copyAt d apdu = some k →
    (r.callAt d apdu = some .initial → headSize (apdu.cdata 0) ≤ apdu.lc.toNat) ∧
    (r.callAt d apdu = some .content →
      textBytes (dataWith r.p1 d.shared) + apdu.lc.toNat ≤ 255)

/-- A condition on the copy of a command, if the event is one that leads to a copy. -/
theorem forall_copyAt {r : DataReader μ γ} {d : Device μ} {ev : Event} {P : Apdu → CborCopy → Prop} :
    (match ev with
      | .command apdu => ∀ k ∈ r.copyAt d apdu, P apdu k
      | _ => True) ↔ ∀ apdu k, ev = .command apdu → r.copyAt d apdu = some k → P apdu k := by
  cases ev with
  | command apdu =>
    constructor
    · intro h apdu' k hev hk
      cases hev
      exact h k hk
    · exact fun h k hk => h apdu k rfl hk
  | noApdu => exact iff_of_true trivial fun _ _ h => by cases h
  | press i => exact iff_of_true trivial fun _ _ h => by cases h

instance (r : DataReader μ γ) (d : Device μ) (ev : Event) (d' : Device μ) :
    Decidable (r.InBounds d ev d') :=
  have : ∀ c c' apdu k, Decidable (Copied c c' apdu k) := fun _ _ _ _ =>
    inferInstanceAs (Decidable (_ = _))
  have : Decidable (match ev with
      | .command apdu => ∀ k ∈ r.copyAt d apdu,
        Copied (r.member.get d.ctx).cborContext (r.member.get d'.ctx).cborContext apdu k ∧
          k.start + k.contentLength ≤ apdu.lc.toNat ∧ k.displayUsed + k.contentLength ≤ 255
      | _ => True) :=
    match ev with
    | .command apdu => inferInstanceAs (Decidable (∀ k ∈ r.copyAt d apdu, _ ∧ _ ∧ _))
    | .noApdu => inferInstanceAs (Decidable True)
    | .press _ => inferInstanceAs (Decidable True)
  decidable_of_iff _ forall_copyAt

instance (r : DataReader μ γ) (d : Device μ) (ev : Event) : Decidable (r.DataFits d ev) :=
  have : Decidable (match ev with
      | .command apdu => ∀ k ∈ r.copyAt d apdu,
        (r.callAt d apdu = some .initial → headSize (apdu.cdata 0) ≤ apdu.lc.toNat) ∧
          (r.callAt d apdu = some .content →
            textBytes (dataWith r.p1 d.shared) + apdu.lc.toNat ≤ 255)
      | _ => True) :=
    match ev with
    | .command apdu => inferInstanceAs (Decidable (∀ k ∈ r.copyAt d apdu, (_ → _) ∧ (_ → _)))
    | .noApdu => inferInstanceAs (Decidable True)
    | .press _ => inferInstanceAs (Decidable True)
  decidable_of_iff _ forall_copyAt

/-- What the data received so far says about the context. -/
structure Holds (r : DataReader μ γ) (c : WithDataBlob γ) (data : List UInt8) : Prop where
  fresh : r.phase c = .fresh → data = []
  content : r.phase c = .content → headSize (data.headD 0) ≤ data.length ∧ data ≠ [] ∧
    c.cborContext.displayUsed.toNat = textBytes data

def Inv (r : DataReader μ γ) (d : Device μ) : Prop :=
  d.shared.running = true → d.shared.currentInstruction = some r.ins →
    r.Holds (r.member.get d.ctx) (dataWith r.p1 d.shared)

section Step

variable {app : App μ} {r : DataReader μ γ} {d d' : Device μ} {apdu : Apdu} {ev : Event}
  {call : CborCall} {k : CborCopy}

/-- Only a command of a session that has begun reads data. -/
theorem Lawful.callAt_some (hl : r.Lawful app) (h : r.callAt d apdu = some call) :
    (apdu.cla = 0xE0 ∧ apdu.ins = r.ins) ∧ d.shared.currentInstruction = some r.ins ∧
      r.call (r.member.get d.ctx) apdu false = some call := by
  have hfalse : ∀ b, r.call (r.member.get d.ctx) apdu b = some call → b = false := by
    intro b hb
    cases call with
    | initial => exact (hl.initial _ _ _ hb).1
    | content => exact (hl.content _ _ _ hb).1
  unfold callAt at h
  split at h
  · rename_i hc
    cases hi : d.shared.currentInstruction with
    | none =>
      rw [hi] at h
      cases hfalse true h
    | some ins =>
      rw [hi] at h
      dsimp only at h
      split at h
      · rename_i hins
        exact ⟨hc, by rw [hins], h⟩
      · cases h
  · cases h

theorem callAt_of_call (hcla : apdu.cla = 0xE0) (hins : apdu.ins = r.ins)
    (hcur : d.shared.currentInstruction = some r.ins)
    (h : r.call (r.member.get d.ctx) apdu false = some call) : r.callAt d apdu = some call := by
  rw [callAt, if_pos ⟨hcla, hins⟩, hcur]
  dsimp only
  rw [if_pos rfl, h]

/-- The copy of a first command takes what is left of it behind the head of the item. -/
theorem copyOf_initial_some {c : CborContext} (h : copyOf c apdu .initial = some k) :
    k.start = headSize (apdu.cdata 0) ∧ k.displayUsed = 0 ∧ 1 ≤ k.start ∧ k.start ≤ 9 ∧
      k.contentLength = (512 + apdu.lc.toNat - k.start) % 256 := by
  cases hs : cborSize (apdu.cdata 0 &&& 0x1F) (apdu.cdata.advance 1) with
  | error e => simp [copyOf, hs] at h
  | ok p =>
    obtain ⟨s, n⟩ := p
    have hread := Memo.cborSize_ok hs
    rw [copyOf_initial hs] at h
    split at h
    · cases h
      have hle := hread.size_le
      refine ⟨by rw [headSize, hread.size]; rfl, rfl, Nat.le_add_right _ _, by dsimp only; omega, ?_⟩
      rw [Memo.contentOf_toNat]
      dsimp only
      omega
    · cases h

theorem copyOf_content_some {c : CborContext} (h : copyOf c apdu .content = some k) :
    c.majorType = 3 ∧ k = ⟨0, apdu.lc.toNat, c.displayUsed.toNat⟩ := by
  unfold copyOf at h
  dsimp only at h
  split at h
  · rename_i h3
    cases h
    exact ⟨h3, rfl⟩
  · cases h

/-- The copy is made, whether the command is accepted or not. -/
theorem Lawful.copied (hl : r.Lawful app) (hs : step app d (.command apdu) = some d')
    (hk : r.copyAt d apdu = some k) :
    Copied (r.member.get d.ctx).cborContext (r.member.get d'.ctx).cborContext apdu k := by
  obtain ⟨call, hcall, hcopy⟩ := Option.bind_eq_some_iff.mp hk
  obtain ⟨⟨hcla, hins⟩, hcur, hnow⟩ := hl.callAt_some hcall
  have hd : finish (app.handler apdu false (entered d apdu)) = d' := by
    have hdis := dispatch_eq app (hcur.trans (by rw [hins])) hcla
    unfold step at hs
    split at hs
    · rw [← hdis]
      exact Option.some.inj hs
    · cases hs
  obtain ⟨x, hx, hspec⟩ := hl.handler apdu false hins
  rw [← hd, hx]
  refine finish_of_wp (P := fun t => Copied (r.member.get d.ctx).cborContext
    (r.member.get t.ctx).cborContext apdu k) ?_
  rw [Fw.wp_on]
  refine wp_mono (hspec _) (fun _ t h => ?_) fun e t h => ?_
  · rw [r.member.get_set]
    exact (h.read call hnow).1.copied k hcopy
  · show Copied _ (r.member.get (r.member.set t.ctx _)).cborContext apdu k
    rw [r.member.get_set]
    exact h call k hnow hcopy

/-- The copies of a step are in bounds exactly if the data fit. -/
theorem inBounds_iff (hl : r.Lawful app) (hI : r.Inv d) (hs : step app d ev = some d') :
    r.InBounds d ev d' ↔ r.DataFits d ev := by
  have hr : d.shared.running = true := by
    unfold step at hs
    split at hs
    · assumption
    · cases hs
  refine forall_congr' fun apdu => forall_congr' fun k => forall_congr' fun hev =>
    forall_congr' fun hk => ?_
  subst hev
  refine (and_iff_right (hl.copied hs hk)).trans ?_
  obtain ⟨call, hcall, hcopy⟩ := Option.bind_eq_some_iff.mp hk
  obtain ⟨-, hcur, hnow⟩ := hl.callAt_some hcall
  rw [hcall]
  cases call with
  | initial =>
    obtain ⟨hstart, hused, hone, hnine, hlen⟩ := copyOf_initial_some hcopy
    have hlc := apdu.lc.toNat_lt
    simp only [true_implies, reduceCtorEq, Option.some.injEq, false_implies, and_true, hused,
      ← hstart, hlen]
    omega
  | content =>
    obtain ⟨h3, rfl⟩ := copyOf_content_some hcopy
    have hphase := (hl.content _ _ _ hnow).2.2 h3
    have hused := ((hI hr hcur).content hphase).2.2
    simp only [reduceCtorEq, Option.some.injEq, false_implies, true_implies, true_and, hused]
    omega

theorem textBytes_append {data more : List UInt8} (hne : data ≠ [])
    (hle : headSize (data.headD 0) ≤ data.length) :
    headSize ((data ++ more).headD 0) ≤ (data ++ more).length ∧ data ++ more ≠ [] ∧
      textBytes (data ++ more) = textBytes data + more.length := by
  cases data with
  | nil => exact absurd rfl hne
  | cons b data =>
    simp only [List.headD_cons, List.cons_append, List.length_cons, List.length_append, textBytes]
      at hle ⊢
    exact ⟨by omega, by simp, by omega⟩

/-- The first command of an item, if it has the head. -/
theorem textBytes_data (apdu : Apdu) (h : headSize (apdu.cdata 0) ≤ apdu.lc.toNat) :
    headSize (apdu.data.headD 0) ≤ apdu.data.length ∧ apdu.data ≠ [] ∧
      textBytes apdu.data = apdu.lc.toNat - headSize (apdu.cdata 0) := by
  have hlen : apdu.data.length = apdu.lc.toNat := Ptr.slice_length _ _
  have hpos : 1 ≤ apdu.lc.toNat := Nat.le_trans (Nat.le_add_right 1 _) h
  have hhead : apdu.data.headD 0 = apdu.cdata 0 := by
    obtain ⟨n, hn⟩ := Nat.exists_eq_add_of_le' hpos
    rw [Apdu.data, hn, Ptr.slice_succ, List.headD_cons]
  rw [textBytes, hhead, hlen]
  refine ⟨h, fun hnil => ?_, rfl⟩
  rw [hnil] at hlen
  simp only [List.length_nil] at hlen
  omega

/-- What a command of the instruction has done when it returns. -/
theorem Lawful.handled (hl : r.Lawful app) {b : Bool} {t : Device μ} (hins : apdu.ins = r.ins)
    (hh : app.handler apdu b t = .ok ⟨⟩ d') :
    r.Handled apdu b (r.member.get t.ctx) (r.member.get d'.ctx) ∧
      dataWith r.p1 d'.shared = dataWith r.p1 t.shared := by
  have hdata := of_wp_ok ((hl.data.handler apdu b).holds t) hh
  refine ⟨?_, hdata⟩
  obtain ⟨x, hx, hspec⟩ := hl.handler apdu b hins
  rw [hx] at hh
  have hon : wp (Fw.on r.member x)
      (fun _ d' => r.Handled apdu b (r.member.get t.ctx) (r.member.get d'.ctx))
      (fun _ _ => True) t := by
    rw [Fw.wp_on]
    refine wp_mono (hspec _) (fun _ t' h => ?_) fun _ _ _ => trivial
    rw [r.member.get_set]
    exact h
  have hq := of_wp_ok hon hh
  exact hq

/-- The session goes on after its first command. -/
theorem Handled.began {c c' : WithDataBlob γ} (hl : r.Lawful app) (h : r.Handled apdu true c c') :
    r.Holds c' (if apdu.p1 = r.p1 then apdu.data else []) := by
  have hnone : r.call c apdu true = none := by
    cases hcall : r.call c apdu true with
    | none => rfl
    | some call =>
      cases call with
      | initial => cases (hl.initial _ _ _ hcall).1
      | content => cases (hl.content _ _ _ hcall).1
  obtain ⟨-, hcontent, hfresh⟩ := h.skipped hnone
  refine ⟨fun hf => ?_, fun hc => absurd hc hcontent⟩
  rw [if_neg (hfresh hf).1]

/-- The session goes on after a command in it. -/
theorem Handled.continued {c c' : WithDataBlob γ} {data : List UInt8} (hl : r.Lawful app)
    (h : r.Handled apdu false c c') (hholds : r.Holds c data)
    (hhead : ∀ k, r.call c apdu false = some .initial → copyOf c.cborContext apdu .initial = some k →
      headSize (apdu.cdata 0) ≤ apdu.lc.toNat)
    (hfits : ∀ k, r.call c apdu false = some .content → copyOf c.cborContext apdu .content = some k →
      textBytes data + apdu.lc.toNat ≤ 255) :
    r.Holds c' (data ++ if apdu.p1 = r.p1 then apdu.data else []) := by
  cases hcall : r.call c apdu false with
  | none =>
    obtain ⟨-, hcontent, hfresh⟩ := h.skipped hcall
    refine ⟨fun hf => ?_, fun hc => absurd hc hcontent⟩
    rw [if_neg (hfresh hf).1, hholds.fresh ((hfresh hf).2 rfl), List.append_nil]
  | some call =>
    obtain ⟨hread, hnew⟩ := h.read call hcall
    refine ⟨fun hf => absurd hf hnew, fun hc => ?_⟩
    obtain ⟨k, hk⟩ := hread.text (hl.phase c' hc)
    have hused := hread.used k hk
    cases call with
    | initial =>
      obtain ⟨-, hp1, hphase⟩ := hl.initial _ _ _ hcall
      obtain ⟨hstart, hzero, hone, hnine, hlen⟩ := copyOf_initial_some hk
      have hlc := apdu.lc.toNat_lt
      have hle := hhead k hcall hk
      obtain ⟨hsize, hne, htext⟩ := textBytes_data apdu hle
      rw [if_pos hp1, hholds.fresh hphase, List.nil_append]
      refine ⟨hsize, hne, ?_⟩
      rw [hused, htext, UInt32.toNat_ofNat', hzero, hlen, ← hstart]
      omega
    | content =>
      obtain ⟨-, hp1, hphase⟩ := hl.content _ _ _ hcall
      obtain ⟨h3, rfl⟩ := copyOf_content_some hk
      obtain ⟨hsize, hne, hprev⟩ := hholds.content (hphase h3)
      obtain ⟨hsize', hne', htext⟩ := @textBytes_append _ apdu.data hne hsize
      have hle := hfits _ hcall hk
      have hdata : apdu.data.length = apdu.lc.toNat := Ptr.slice_length _ _
      rw [if_pos hp1]
      refine ⟨hsize', hne', ?_⟩
      rw [hused, htext, UInt32.toNat_ofNat', hprev, hdata]
      dsimp only
      omega

theorem inv_command (hl : r.Lawful app) (hI : r.Inv d) (hs : step app d (.command apdu) = some d')
    (hfits : r.DataFits d (.command apdu)) : r.Inv d' := by
  intro hr' hcur'
  obtain ⟨hr, hdel⟩ := step_command hs
  have hins := (hdel.instruction hl.sessions hr' hcur').symm
  cases hdel with
  | began hcla hidle hh =>
    obtain ⟨hh', hdata⟩ := hl.handled hins hh
    rw [hdata, dataWith_opened]
    exact hh'.began hl
  | continued hcla hcur hh =>
    rw [hins] at hcur
    obtain ⟨hh', hdata⟩ := hl.handled hins hh
    rw [hdata, dataWith_entered]
    have hcopy {call : CborCall} (hcall : r.call (r.member.get d.ctx) apdu false = some call)
        {k : CborCopy} (hk : copyOf (r.member.get d.ctx).cborContext apdu call = some k) :
        r.callAt d apdu = some call ∧ r.copyAt d apdu = some k := by
      have hat := callAt_of_call hcla hins hcur hcall
      exact ⟨hat, by rw [copyAt, hat]; exact hk⟩
    refine hh'.continued hl (hI hr hcur) (fun k hcall hk => ?_) fun k hcall hk => ?_
    · obtain ⟨hat, hk'⟩ := hcopy hcall hk
      exact (hfits apdu k rfl hk').1 hat
    · obtain ⟨hat, hk'⟩ := hcopy hcall hk
      exact (hfits apdu k rfl hk').2 hat
  | rejected hend =>
    rw [hend hr'] at hcur'
    cases hcur'

theorem inv_press (hl : r.Lawful app) (hI : r.Inv d) {i : Nat}
    (hs : step app d (.press i) = some d') (hown : OwnCallback d (.press i)) : r.Inv d' := by
  intro hr' hcur'
  obtain ⟨hr, rfl⟩ := step_press hs
  have hcur := press_instruction hl.sessions _ hcur'
  have hdata : dataWith r.p1 (finish (app.callback (d.shared.pressed i) d)).shared =
      dataWith r.p1 d.shared :=
    (hl.data.callback (d.shared.pressed i)).finish (fun _ _ e h => h.caught e) d
  have hholds := hI hr hcur
  rw [hdata]
  rcases hown r.ins hcur with hshared | howner
  · rw [(hl.shared _ hshared d).ctx]
    exact hholds
  · obtain ⟨x, hx, hspec⟩ := hl.callback _ howner
    rw [hx] at hr' hcur' ⊢
    have hw := hspec (d.view r.member)
    cases hxd : x (d.view r.member) with
    | ok a t =>
      obtain ⟨hphase, hcbor⟩ := of_wp_ok hw hxd
      rw [Fw.on_ok hxd]
      show r.Holds (r.member.get (r.member.set t.ctx d.ctx)) _
      rw [r.member.get_set]
      refine ⟨fun hf => hholds.fresh (hphase.symm.trans hf), fun hc => ?_⟩
      rw [hcbor]
      exact hholds.content (hphase.symm.trans hc)
    | thrown e t =>
      rw [Fw.on_thrown hxd] at hr' hcur'
      have hend : (catchOther e t.shared).currentInstruction = none := catchOther_ended e _ hr'
      rw [show (finish (Outcome.thrown e ⟨r.member.set t.ctx d.ctx, t.shared⟩ :
        Outcome _ _ PUnit)).shared.currentInstruction = none from hend] at hcur'
      cases hcur'

theorem inv_step (hl : r.Lawful app) (hI : r.Inv d) (hs : step app d ev = some d')
    (hown : OwnCallback d ev) (hfits : r.DataFits d ev) : r.Inv d' := by
  cases ev with
  | command apdu => exact inv_command hl hI hs hfits
  | press i => exact inv_press hl hI hs hown
  | noApdu =>
    intro hr' hcur'
    rw [step_noApdu hs hr'] at hcur'
    cases hcur'

end Step

/-! ## The parts of a handler -/

section Parts

variable {r : DataReader μ γ} {apdu : Apdu} {b : Bool} {call : CborCall}
  {c c' : WithDataBlob γ} {t : Device (WithDataBlob γ)} {finish more : Fw (WithDataBlob γ) PUnit.{1}}

theorem Handled.of_read (hcall : r.call c apdu b = some call)
    (h : CborRead call c.cborContext c'.cborContext apdu) (hphase : r.phase c' ≠ .fresh) :
    r.Handled apdu b c c' where
  read call' h' := by
    rw [hcall] at h'
    cases h'
    exact ⟨h, hphase⟩
  skipped hnone := by
    rw [hcall] at hnone
    cases hnone

theorem Handled.of_skip (hcall : r.call c apdu b = none)
    (hdisplay : c'.cborContext.display = c.cborContext.display)
    (hphase : r.phase c' = .past ∨ r.phase c' = .fresh ∧ apdu.p1 ≠ r.p1 ∧
      (b = false → r.phase c = .fresh)) : r.Handled apdu b c c' where
  read call h := by
    rw [hcall] at h
    cases h
  skipped _ := by
    rcases hphase with h | ⟨h, hrest⟩
    · exact ⟨hdisplay, by rw [h]; simp, fun hf => by rw [h] at hf; cases hf⟩
    · exact ⟨hdisplay, by rw [h]; simp, fun _ => hrest⟩

theorem Thrown.of_read (hcall : r.call c apdu b = some call)
    (h : CborRead call c.cborContext c'.cborContext apdu) : r.Thrown apdu b c c' := by
  intro call' k h' hk
  rw [hcall] at h'
  cases h'
  exact h.copied k hk

theorem Thrown.of_skip (hcall : r.call c apdu b = none) : r.Thrown apdu b c c' := by
  intro call k h _
  rw [hcall] at h
  cases h

theorem Thrown.of_copy (hcall : r.call c apdu b = some call)
    (hcopy : copyOf c.cborContext apdu call = none) : r.Thrown apdu b c c' := by
  intro call' k h' hk
  rw [hcall] at h'
  cases h'
  rw [hcopy] at hk
  cases hk

/-- What follows a call leaves the CBOR context alone and goes on to another phase. -/
def Continues (r : DataReader μ γ) (x : Fw (WithDataBlob γ) PUnit.{1}) : Prop :=
  ∀ t, wp x (fun _ t' => r.phase t'.ctx ≠ .fresh ∧ t'.ctx.cborContext = t.ctx.cborContext)
    (fun _ _ => False) t

theorem wp_first (hcall : r.call t.ctx apdu b = some .initial) (hfinish : r.Continues finish)
    (hmore : r.Continues more) :
    wp (memoInitial apdu.cdata apdu.lc finish more)
      (fun _ t' => r.Handled apdu b t.ctx t'.ctx) (fun _ t' => r.Thrown apdu b t.ctx t'.ctx) t := by
  simp only [memoInitial, Fw.onCbor, wp_bind, wp_updateHash, wp_zoom, Fw.wp_getCtx, wp_ite]
  refine wp_mono (readCborInitial_read _ _ apdu) ?_ fun _ _ h => Thrown.of_copy hcall h
  rintro _ ⟨c, s⟩ ⟨rfl, hread⟩
  constructor
  · intro _
    refine wp_mono (hfinish _) (fun _ t' ht => ?_) fun _ _ h => h.elim
    exact Handled.of_read hcall (by rw [ht.2]; exact hread) ht.1
  · intro _
    refine wp_mono (hmore _) (fun _ t' ht => ?_) fun _ _ h => h.elim
    exact Handled.of_read hcall (by rw [ht.2]; exact hread) ht.1

theorem wp_second (hcall : r.call t.ctx apdu b = some .content) (hfinish : r.Continues finish) :
    wp (memoContent apdu.cdata apdu.lc finish)
      (fun _ t' => r.Handled apdu b t.ctx t'.ctx) (fun _ t' => r.Thrown apdu b t.ctx t'.ctx) t := by
  simp only [memoContent, Fw.onCbor, wp_bind, wp_updateHash, wp_zoom, Fw.wp_getCtx, Fw.wp_throwIf]
  refine wp_mono (readCborContent_read _ _ apdu) ?_ fun _ _ h => Thrown.of_copy hcall h
  rintro _ ⟨c, s⟩ ⟨rfl, hread⟩
  refine ⟨fun _ => Thrown.of_read hcall hread, fun _ => ?_⟩
  refine wp_mono (hfinish _) (fun _ t' ht => ?_) fun _ _ h => h.elim
  exact Handled.of_read hcall (by rw [ht.2]; exact hread) ht.1

end Parts

/-! ## Readers by the state of the handler -/

/-- What a state awaits: the command that opens the session, or one with data. -/
inductive Stage where
  | start
  | first
  | second
deriving DecidableEq

/-- The stage of a handler whose state is `st`. -/
def stageOf {σ : Type} [DecidableEq σ] (st : WithDataBlob γ → σ) (start first second : σ)
    (c : WithDataBlob γ) : Option Stage :=
  if st c = start then some .start
  else if st c = first then some .first
  else if st c = second then some .second
  else none

/-- The reader of a handler that goes by its state, and by `takes` before it reads the data. -/
def ofStages (ins p1 : UInt8) (member : Member μ (WithDataBlob γ))
    (stage : WithDataBlob γ → Option Stage) (takes : WithDataBlob γ → Apdu → Prop)
    [∀ c apdu, Decidable (takes c apdu)] : DataReader μ γ where
  ins := ins
  p1 := p1
  member := member
  call c apdu b :=
    if b = false ∧ apdu.p1 = p1 ∧ takes c apdu then
      match stage c with
      | some .first => some .initial
      | some .second => some .content
      | _ => none
    else none
  phase c :=
    match stage c with
    | some .start => .fresh
    | some .first => .fresh
    | some .second => .ofContent c.cborContext
    | none => .past

section Stages

variable {ins p1 : UInt8} {member : Member μ (WithDataBlob γ)}
  {stage : WithDataBlob γ → Option Stage} {takes : WithDataBlob γ → Apdu → Prop}
  [∀ c apdu, Decidable (takes c apdu)] {c : WithDataBlob γ} {apdu : Apdu} {b : Bool}

theorem ofStages_initial (h : (ofStages ins p1 member stage takes).call c apdu b = some .initial) :
    b = false ∧ apdu.p1 = p1 ∧ (ofStages ins p1 member stage takes).phase c = .fresh := by
  simp only [ofStages] at h ⊢
  split at h
  · rename_i hc
    cases hs : stage c with
    | none => simp [hs] at h
    | some st =>
      cases st with
      | first => exact ⟨hc.1, hc.2.1, rfl⟩
      | start => simp [hs] at h
      | second => simp [hs] at h
  · cases h

theorem ofStages_content (h : (ofStages ins p1 member stage takes).call c apdu b = some .content) :
    b = false ∧ apdu.p1 = p1 ∧ (c.cborContext.majorType = 3 →
      (ofStages ins p1 member stage takes).phase c = .content) := by
  simp only [ofStages] at h ⊢
  split at h
  · rename_i hc
    cases hs : stage c with
    | none => simp [hs] at h
    | some st =>
      cases st with
      | second => exact ⟨hc.1, hc.2.1, fun h3 => by simp [DataPhase.ofContent, h3]⟩
      | start => simp [hs] at h
      | first => simp [hs] at h
  · cases h

theorem ofStages_phase (h : (ofStages ins p1 member stage takes).phase c = .content) :
    c.cborContext.majorType = 3 := by
  simp only [ofStages] at h
  cases hs : stage c with
  | none => simp [hs] at h
  | some st =>
    cases st with
    | second =>
      simp only [hs, DataPhase.ofContent] at h
      split at h
      · assumption
      · cases h
    | start => simp [hs] at h
    | first => simp [hs] at h

theorem Continues.of_stage {r : DataReader μ γ} {x : Fw (WithDataBlob γ) PUnit.{1}}
    (hr : r = ofStages ins p1 member stage takes)
    (h : ∀ t, wp x (fun _ t' => (stage t'.ctx = none ∨ stage t'.ctx = some .second) ∧
      t'.ctx.cborContext = t.ctx.cborContext) (fun _ _ => False) t) : r.Continues x := by
  subst hr
  intro t
  refine wp_mono (h t) (fun _ t' ht => ⟨?_, ht.2⟩) fun _ _ h => h
  rcases ht.1 with hs | hs
  · simp [ofStages, hs]
  · simp only [ofStages, hs, DataPhase.ofContent]
    split <;> simp

end Stages

/-- A handler with a memo: the initial command `opening`, the two memo commands, and the `rest`. -/
theorem wp_memoHandler {ins pInitial pMemo : UInt8} {member : Member μ (WithDataBlob γ)} {σ : Type}
    [DecidableEq σ] (st : WithDataBlob γ → σ) (start first second : σ)
    (hdistinct : [start, first, second].Nodup) {reset : WithDataBlob γ → WithDataBlob γ}
    (hreset : ∀ c, st (reset c) = start ∧ (reset c).cborContext = c.cborContext)
    (hp : pInitial ≠ pMemo) {opening finish more : Fw (WithDataBlob γ) PUnit.{1}}
    {rest : WithDataBlob γ → Fw (WithDataBlob γ) PUnit.{1}} (apdu : Apdu) (b : Bool)
    (t : Device (WithDataBlob γ))
    (hopening : ∀ t, wp opening (fun _ t' => st t'.ctx = first ∧
      t'.ctx.cborContext.display = t.ctx.cborContext.display) (fun _ _ => True) t)
    (hrest : ∀ t, wp (rest t.ctx) (fun _ t' => stageOf st start first second t'.ctx = none ∧
      t'.ctx.cborContext.display = t.ctx.cborContext.display) (fun _ _ => True) t)
    (hfinish : ∀ t, wp finish (fun _ t' => stageOf st start first second t'.ctx = none ∧
      t'.ctx.cborContext = t.ctx.cborContext) (fun _ _ => False) t)
    (hmore : ∀ t, wp more (fun _ t' => st t'.ctx = second ∧
      t'.ctx.cborContext = t.ctx.cborContext) (fun _ _ => False) t) :
    wp (do
        Fw.when b (Fw.modifyCtx reset)
        let ctx ← Fw.getCtx
        if apdu.p1 = pInitial ∧ st ctx = start then opening
        else if apdu.p1 = pMemo ∧ st ctx = first then memoInitial apdu.cdata apdu.lc finish more
        else if apdu.p1 = pMemo ∧ st ctx = second then memoContent apdu.cdata apdu.lc finish
        else rest ctx)
      (fun _ t' => (ofStages ins pMemo member (stageOf st start first second)
        fun _ _ => True).Handled apdu b t.ctx t'.ctx)
      (fun _ t' => (ofStages ins pMemo member (stageOf st start first second)
        fun _ _ => True).Thrown apdu b t.ctx t'.ctx) t := by
  simp only [List.nodup_cons, List.mem_cons, List.not_mem_nil, or_false, not_or, not_false_eq_true,
    and_true, List.nodup_nil] at hdistinct
  obtain ⟨⟨hsf, hss⟩, hfs⟩ := hdistinct
  have hfirst {c : WithDataBlob γ} (h : st c = first) :
      stageOf st start first second c = some .first := by
    rw [stageOf, if_neg (by rw [h]; exact Ne.symm hsf), if_pos h]
  have hsecond {c : WithDataBlob γ} (h : st c = second) :
      stageOf st start first second c = some .second := by
    rw [stageOf, if_neg (by rw [h]; exact Ne.symm hss), if_neg (by rw [h]; exact Ne.symm hfs),
      if_pos h]
  -- a command that is not about the memo
  have hskip {c : WithDataBlob γ} {b : Bool} (hf : ¬ (b = false ∧ apdu.p1 = pMemo ∧ st c = first))
      (hs : ¬ (b = false ∧ apdu.p1 = pMemo ∧ st c = second)) :
      (ofStages ins pMemo member (stageOf st start first second)
        fun _ _ => True).call c apdu b = none := by
    simp only [ofStages, and_true]
    split
    · rename_i hc
      have hnf : ¬ st c = first := fun h => hf ⟨hc.1, hc.2, h⟩
      have hns : ¬ st c = second := fun h => hs ⟨hc.1, hc.2, h⟩
      simp only [stageOf, if_neg hnf, if_neg hns]
      split <;> simp_all
    · rfl
  rw [wp_bind]
  cases b with
  | true =>
    have hnone := hskip (c := t.ctx) (b := true) (by simp) (by simp)
    refine (Fw.wp_when _ _).mpr ⟨fun _ => ?_, fun h => absurd rfl h⟩
    rw [Fw.wp_modifyCtx, wp_bind, Fw.wp_getCtx]
    obtain ⟨hstart, hcbor⟩ := hreset t.ctx
    refine (wp_ite _ _ _).mpr ⟨fun hc => ?_, fun _ => ?_⟩
    · refine wp_mono (hopening _) (fun _ t' ht => ?_) fun _ _ _ => .of_skip hnone
      refine .of_skip hnone (ht.2.trans (by rw [hcbor])) (.inr ⟨by simp [ofStages, hfirst ht.1],
        ?_, fun h => (by cases h)⟩)
      rw [hc.1]
      exact hp
    refine (wp_ite _ _ _).mpr ⟨fun hc => absurd (hstart.symm.trans hc.2) hsf, fun _ => ?_⟩
    refine (wp_ite _ _ _).mpr ⟨fun hc => absurd (hstart.symm.trans hc.2) hss, fun _ => ?_⟩
    refine wp_mono (hrest ⟨reset t.ctx, t.shared⟩) (fun _ t' ht => ?_) fun _ _ _ => .of_skip hnone
    exact .of_skip hnone (ht.2.trans (by rw [hcbor])) (.inl (by simp [ofStages, ht.1]))
  | false =>
    refine (Fw.wp_when _ _).mpr ⟨fun h => (by cases h), fun _ => ?_⟩
    rw [wp_bind, Fw.wp_getCtx]
    refine (wp_ite _ _ _).mpr ⟨fun hc => ?_, fun _ => ?_⟩
    · have hnone := hskip (c := t.ctx) (b := false) (fun h => hsf (hc.2.symm.trans h.2.2))
        fun h => hss (hc.2.symm.trans h.2.2)
      refine wp_mono (hopening _) (fun _ t' ht => ?_) fun _ _ _ => .of_skip hnone
      refine .of_skip hnone ht.2 (.inr ⟨by simp [ofStages, hfirst ht.1], ?_, fun _ => ?_⟩)
      · rw [hc.1]
        exact hp
      · simp [ofStages, stageOf, hc.2]
    refine (wp_ite _ _ _).mpr ⟨fun hc => ?_, fun hnf => ?_⟩
    · refine wp_first (by simp [ofStages, hfirst hc.2, hc.1]) ?_ ?_
      · exact .of_stage rfl fun t => wp_mono (hfinish t) (fun _ _ h => ⟨.inl h.1, h.2⟩) fun _ _ h => h
      · exact .of_stage rfl fun t =>
          wp_mono (hmore t) (fun _ _ h => ⟨.inr (hsecond h.1), h.2⟩) fun _ _ h => h
    refine (wp_ite _ _ _).mpr ⟨fun hc => ?_, fun hns => ?_⟩
    · refine wp_second (by simp [ofStages, hsecond hc.2, hc.1]) ?_
      exact .of_stage rfl fun t => wp_mono (hfinish t) (fun _ _ h => ⟨.inl h.1, h.2⟩) fun _ _ h => h
    have hnone := hskip (c := t.ctx) (b := false) (fun h => hnf h.2) fun h => hns h.2
    refine wp_mono (hrest t) (fun _ t' ht => ?_) fun _ _ _ => .of_skip hnone
    exact .of_skip hnone ht.2 (.inl (by simp [ofStages, ht.1]))

end DataReader

/-! ## The four instructions -/

open DataReader

section Instructions

variable {sdk : Sdk} {u : InstructionContext μ}

theorem mainApp_keepsSessions (sdk : Sdk) (u : InstructionContext μ) :
    KeepsSessions (mainApp sdk u) := mainApp_framed sdk u

theorem mainApp_keepsData (sdk : Sdk) (u : InstructionContext μ) (p1 : UInt8) :
    KeepsData (mainApp sdk u) p1 := mainApp_framed sdk u

end Instructions

namespace SignTransfer

def memoReader (u : InstructionContext μ) : DataReader μ Context :=
  ofStages insSignTransferWithMemo p1Memo u.signTransferContext
    (stageOf (fun c => c.inner.state) .initial .memoInitial .memo) fun _ _ => True

variable {u : InstructionContext μ}

theorem memoReader_handled (sdk : Sdk) (apdu : Apdu) (b : Bool) (t : Device Blob) :
    wp (handleSignTransferWithMemo sdk apdu.cdata apdu.p1 apdu.lc b)
      (fun _ t' => (memoReader u).Handled apdu b t.ctx t'.ctx)
      (fun _ t' => (memoReader u).Thrown apdu b t.ctx t'.ctx) t := by
  refine wp_memoHandler (fun c : Blob => c.inner.state) .initial .memoInitial .memo (by decide)
    (fun c => ?_) (by decide) apdu b t (fun t => ?_) (fun t => ?_) (fun t => ?_) fun t => ?_
  · exact ⟨rfl, rfl⟩
  · simp only [header, setState, wp_bind, Fw.wp_getCtx]
    refine wp_headerAndToAddress fun s' recipient hs => ?_
    simp [memoLength, Fw.onCbor, wp_zoom]
  · simp only [amount, startTransferDisplay, wp_ite, wp_bind, Fw.wp_eval, Fw.wp_modifyCtx,
      wp_updateHash, wp_uxFlowInit, wp_waitForButton, Fw.wp_throw, implies_true, and_true]
    intro hc text _
    simp [stageOf, hc.2]
  · simp [finishMemo, setState, stageOf]
  · simp [setState]

end SignTransfer

namespace SignEncryptedAmountTransfer

def memoReader (u : InstructionContext μ) : DataReader μ Context :=
  ofStages insEncryptedAmountTransferWithMemo p1Memo u.signEncryptedAmountToTransfer
    (stageOf (fun c => c.inner.state) .initial .memoStart .memo) fun _ _ => True

variable {u : InstructionContext μ}

theorem memoReader_handled (sdk : Sdk) (apdu : Apdu) (b : Bool) (t : Device Blob) :
    wp (handleSignEncryptedAmountTransferWithMemo sdk apdu.cdata apdu.p1 apdu.lc b)
      (fun _ t' => (memoReader u).Handled apdu b t.ctx t'.ctx)
      (fun _ t' => (memoReader u).Thrown apdu b t.ctx t'.ctx) t := by
  refine wp_memoHandler (fun c : Blob => c.inner.state) .initial .memoStart .memo (by decide)
    (fun c => ?_) (by decide) apdu b t (fun t => ?_) (fun t => ?_) (fun t => ?_) fun t => ?_
  · exact ⟨rfl, rfl⟩
  · simp only [header, setState, wp_bind, Fw.wp_getCtx]
    refine wp_headerAndToAddress fun s' recipient hs => ?_
    simp [memoLength, Fw.onCbor, wp_zoom]
  · simp only [handleRemainingAmount, handleTransferAmountAggIndexProofSize, handleProofs, setState,
      startEncryptedTransferDisplay, wp_ite, wp_bind, Fw.wp_modifyCtx, Fw.wp_getCtx, wp_updateHash,
      wp_uxFlowInit, wp_waitForButton, wp_sendSuccessNoIdle, Fw.wp_throw, implies_true, and_true]
    refine ⟨fun _ => ?_, fun _ => ⟨fun _ => ?_, fun _ hc => ⟨fun _ => ?_, fun _ => ?_⟩⟩⟩
    · simp [stageOf]
    · simp [stageOf]
    · simp [stageOf, hc.2]
    · simp [stageOf, hc.2]
  · simp [finishMemoEncrypted, setState, stageOf]
  · simp [setState]

end SignEncryptedAmountTransfer

namespace SignTransferWithSchedule

def memoReader (u : InstructionContext μ) : DataReader μ Context :=
  ofStages insSignTransferWithScheduleAndMemo p1Memo u.signTransferWithScheduleContext
    (stageOf (fun c => c.inner.state) .initial .memoStart .memo) fun _ _ => True

variable {sdk : Sdk} {u : InstructionContext μ}

/-- The pairs do not touch the CBOR context. -/
theorem processNextScheduledAmount_kept (t : Device Blob) :
    wp processNextScheduledAmount (fun _ t' => t'.ctx.inner.state = t.ctx.inner.state ∧
      t'.ctx.cborContext = t.ctx.cborContext) (fun _ _ => True) t := by
  simp only [processNextScheduledAmount, releaseTime, releaseAmount, wp_bind, Fw.wp_getCtx, wp_ite,
    wp_sendSuccessNoIdle, wp_updateHash, Fw.wp_modifyCtx]
  refine ⟨fun _ => ⟨trivial, trivial⟩, fun _ => ?_⟩
  cases secondsToTm _ with
  | none => trivial
  | some time =>
    simp only [wp_bind, Fw.wp_modifyCtx, Fw.wp_throwIf, Fw.wp_eval, implies_true, and_true, true_and]
    intro _ text _
    simp [wp_ite]

theorem memoReader_handled (sdk : Sdk) (apdu : Apdu) (b : Bool) (t : Device Blob) :
    wp (handleSignTransferWithScheduleAndMemo sdk apdu.cdata apdu.p1 apdu.lc b)
      (fun _ t' => (memoReader u).Handled apdu b t.ctx t'.ctx)
      (fun _ t' => (memoReader u).Thrown apdu b t.ctx t'.ctx) t := by
  refine wp_memoHandler (fun c : Blob => c.inner.state) .initial .memoStart .memo (by decide)
    (fun c => ?_) (by decide) apdu b t (fun t => ?_) (fun t => ?_) (fun t => ?_) fun t => ?_
  · exact ⟨rfl, rfl⟩
  · simp only [header, setState, wp_bind, Fw.wp_getCtx]
    refine wp_headerAndToAddress fun s' recipient hs => ?_
    simp [memoLength, Fw.onCbor, wp_zoom]
  · refine (wp_ite _ _ _).mpr ⟨fun hc => ?_, fun _ => trivial⟩
    simp only [handleTransferPairs, wp_bind, Fw.wp_modifyCtx]
    refine wp_mono (processNextScheduledAmount_kept _) (fun _ t' ht => ?_) fun _ _ h => h
    rw [wp_waitForButton]
    refine ⟨?_, congrArg CborContext.display ht.2⟩
    have hstate : t'.ctx.inner.state = .transferPairs := ht.1.trans ?_
    · simp [stageOf, hstate]
    · simp [Context.startPacket, apply_ite Context.state, hc.2]
  · simp [finishMemoScheduled, setState, startInitialScheduledTransferDisplay, stageOf]
  · simp [setState]

end SignTransferWithSchedule

namespace SignRegisterData

/-- A command with data is read if it brings at most what is left, and all of it after the first. -/
def Takes (c : Blob) (apdu : Apdu) : Prop :=
  ¬ c.inner.dataLength < apdu.lc.toUInt16 ∧
    (c.inner.state = .payload → c.inner.dataLength - apdu.lc.toUInt16 = 0)

instance (c : Blob) (apdu : Apdu) : Decidable (Takes c apdu) := inferInstanceAs (Decidable (_ ∧ _))

def dataReader (u : InstructionContext μ) : DataReader μ Context :=
  ofStages insRegisterData p1Data u.signRegisterData
    (stageOf (fun c => c.inner.state) .initial .payloadStart .payload) Takes

variable {sdk : Sdk} {u : InstructionContext μ} {c : Blob} {apdu : Apdu} {b : Bool}

/-- The initial command and the commands that are refused. -/
theorem dataReader_skips (h : apdu.p1 ≠ p1Data ∨ b = true ∨ ¬ Takes c apdu ∨
    (c.inner.state ≠ .payloadStart ∧ c.inner.state ≠ .payload)) :
    (dataReader u).call c apdu b = none := by
  simp only [dataReader, ofStages]
  split
  · rename_i hc
    obtain ⟨rfl, hp1, htakes⟩ := hc
    rcases h with h | h | h | ⟨hs, hp⟩
    · exact absurd hp1 h
    · cases h
    · exact absurd htakes h
    · simp only [stageOf, if_neg hs, if_neg hp]
      split <;> simp_all
  · rfl

theorem opening_handled (t : Device Blob) (hp1 : apdu.p1 = p1Initial)
    (hphase : b = false → t.ctx.inner.state = .initial) {c : Blob}
    (hc : c.cborContext.display = t.ctx.cborContext.display) :
    wp (do
        let read ← parseKeyDerivationPath apdu.cdata
        let cdata := apdu.cdata.advance read
        cxSha256Init
        let read ← hashAccountTransactionHeaderAndKind sdk cdata registerData
        let cdata := cdata.advance read
        Fw.modifyCtx fun c => { c with inner.dataLength := cdata.u2be 0 }
        Fw.throwIf ((cdata.u2be 0).toUInt32 > maxMemoSize) .invalidParam
        Fw.modifyCtx fun c => { c with cborContext.cborLength := (cdata.u2be 0).toUInt32 }
        updateHash cdata 2
        setState .payloadStart
        uxFlowInit fun d => uxRegisterDataInitial d.shared
        waitForButton)
      (fun _ t' => (dataReader u).Handled apdu b t.ctx t'.ctx)
      (fun _ t' => (dataReader u).Thrown apdu b t.ctx t'.ctx) ⟨c, t.shared⟩ := by
  have hnone : (dataReader u).call t.ctx apdu b = none :=
    dataReader_skips (.inl (by rw [hp1]; decide))
  rw [wp_bind, wp_parseKeyDerivationPath]
  refine ⟨fun _ => .of_skip hnone, fun _ => ?_⟩
  rw [wp_bind, wp_cxSha256Init, wp_bind]
  refine wp_mono (@wp_header _ ⟨c, t.shared⟩ (fun _ t' => t'.ctx = c) sdk _ registerData
    fun s' _ => rfl) (fun n t' ht => ?_) fun _ _ _ => .of_skip hnone
  simp only [setState, wp_bind, Fw.wp_modifyCtx, Fw.wp_throwIf, wp_updateHash, wp_uxFlowInit,
    wp_waitForButton]
  refine ⟨fun _ => .of_skip hnone, fun _ => ?_⟩
  refine .of_skip hnone (by rw [ht]; exact hc) (.inr ⟨rfl, ?_, fun hb => ?_⟩)
  · show apdu.p1 ≠ p1Data
    rw [hp1]
    decide
  · simp [dataReader, ofStages, stageOf, hphase hb]

theorem dataEnd_kept (left : UInt16) (t : Device Blob) :
    wp (if left = 0 then do
          uxFlowInit fun d => uxRegisterDataPayload d.ctx.cborContext
          waitForButton
        else sendSuccessNoIdle : Fw Blob PUnit.{1})
      (fun _ t' => t'.ctx = t.ctx) (fun _ _ => False) t := by
  simp [wp_ite]

theorem phase_payload (h : c.inner.state = .payload) : (dataReader u).phase c ≠ .fresh := by
  have hstage : stageOf (fun c : Blob => c.inner.state) .initial .payloadStart .payload c =
      some .second := by simp [stageOf, h]
  simp only [dataReader, ofStages, hstage, DataPhase.ofContent]
  split <;> simp

theorem dataReader_handled (sdk : Sdk) (apdu : Apdu) (b : Bool) (t : Device Blob) :
    wp (handleSignRegisterData sdk apdu.cdata apdu.p1 apdu.lc b)
      (fun _ t' => (dataReader u).Handled apdu b t.ctx t'.ctx)
      (fun _ t' => (dataReader u).Thrown apdu b t.ctx t'.ctx) t := by
  unfold handleSignRegisterData
  rw [wp_bind]
  cases b with
  | true =>
    have hnone : (dataReader u).call t.ctx apdu true = none := dataReader_skips (.inr (.inl rfl))
    refine (Fw.wp_when _ _).mpr ⟨fun _ => ?_, fun h => absurd rfl h⟩
    simp only [setState, Fw.wp_modifyCtx, wp_bind, Fw.wp_getCtx]
    refine (wp_ite _ _ _).mpr ⟨fun hc => ?_, fun _ => (wp_ite _ _ _).mpr ⟨fun _ => ?_, fun _ => ?_⟩⟩
    · exact opening_handled t hc.1 (fun h => (by cases h)) rfl
    · simp only [readData, wp_bind, Fw.wp_throwIf, Fw.wp_modifyCtx, wp_updateHash, Fw.wp_getCtx,
        Fw.wp_throw]
      exact ⟨fun _ => .of_skip hnone, fun _ => .of_skip hnone⟩
    · exact .of_skip hnone
  | false =>
    refine (Fw.wp_when _ _).mpr ⟨fun h => (by cases h), fun _ => ?_⟩
    rw [wp_bind, Fw.wp_getCtx]
    refine (wp_ite _ _ _).mpr ⟨fun hc => ?_, fun _ => ?_⟩
    · exact opening_handled t hc.1 (fun _ => hc.2) rfl
    refine (wp_ite _ _ _).mpr ⟨fun hp1 => ?_, fun hp1 => ?_⟩
    · simp only [wp_bind, Fw.wp_throwIf, Fw.wp_modifyCtx, wp_updateHash]
      refine ⟨fun hlt => .of_skip (dataReader_skips (.inr (.inr (.inl fun h => h.1 hlt)))),
        fun hle => ?_⟩
      cases hst : t.ctx.inner.state with
      | payloadStart =>
        have hcall : (dataReader u).call t.ctx apdu false = some .initial := by
          simp [dataReader, ofStages, stageOf, Takes, hp1, hle, hst]
        simp only [readData, setState, wp_bind, Fw.wp_getCtx, Fw.wp_modifyCtx, Fw.onCbor, wp_zoom]
        refine wp_mono (readCborInitial_read _ _ apdu) ?_ fun _ _ h => .of_copy hcall h
        rintro _ ⟨c, s⟩ ⟨rfl, hread⟩
        refine wp_mono (dataEnd_kept _ _) (fun _ t' ht => ?_) fun _ _ h => h.elim
        exact .of_read hcall (by rw [ht]; exact hread) (phase_payload (by rw [ht]))
      | payload =>
        simp only [readData, wp_bind, Fw.wp_getCtx, Fw.wp_throwIf, Fw.onCbor, wp_zoom]
        refine ⟨fun hne => .of_skip (dataReader_skips (.inr (.inr (.inl fun h => hne (h.2 hst))))),
          fun hz => ?_⟩
        have hcall : (dataReader u).call t.ctx apdu false = some .content := by
          have hz' := not_not.mp hz
          simp [dataReader, ofStages, stageOf, Takes, hp1, hle, hst, hz']
        refine wp_mono (readCborContent_read _ _ apdu) ?_ fun _ _ h => .of_copy hcall h
        rintro _ ⟨c, s⟩ ⟨rfl, hread⟩
        refine wp_mono (dataEnd_kept _ _) (fun _ t' ht => ?_) fun _ _ h => h.elim
        refine .of_read hcall (by rw [ht]; exact hread) (phase_payload ?_)
        rw [ht]
      | initial =>
        simp only [readData, wp_bind, Fw.wp_getCtx, Fw.wp_throw]
        exact .of_skip (dataReader_skips (.inr (.inr (.inr (by simp [hst])))))
      | stale =>
        simp only [readData, wp_bind, Fw.wp_getCtx, Fw.wp_throw]
        exact .of_skip (dataReader_skips (.inr (.inr (.inr (by simp [hst])))))
    · exact .of_skip (dataReader_skips (.inl hp1))

end SignRegisterData

/-! ## Runs of the application -/

section Runs

variable {sdk : Sdk} {u : InstructionContext μ}

/-- A reader by stages of an instruction of the main application. -/
theorem lawful_ofStages {ins p1 : UInt8} {member : Member μ (WithDataBlob γ)}
    {stage : WithDataBlob γ → Option Stage} {takes : WithDataBlob γ → Apdu → Prop}
    [∀ c apdu, Decidable (takes c apdu)]
    (hhandler : ∀ apdu b, apdu.ins = ins → ∃ x, mainHandler sdk u apdu b = Fw.on member x ∧
      ∀ t, wp x (fun _ t' => (ofStages ins p1 member stage takes).Handled apdu b t.ctx t'.ctx)
        (fun _ t' => (ofStages ins p1 member stage takes).Thrown apdu b t.ctx t'.ctx) t)
    (hcallback : ∀ cb, ins ∈ cb.owners → ∃ x,
      sharedCallback sdk (mainOwnCallback sdk u) cb = Fw.on member x ∧
      ∀ t, wp x (fun _ t' => (ofStages ins p1 member stage takes).phase t'.ctx =
        (ofStages ins p1 member stage takes).phase t.ctx ∧
          t'.ctx.cborContext = t.ctx.cborContext) (fun _ _ => True) t) :
    Lawful (mainApp sdk u) (ofStages ins p1 member stage takes) where
  handler := hhandler
  callback := hcallback
  shared _ hcb d := sharedCallback_passed d sdk hcb
  initial _ _ _ := ofStages_initial
  content _ _ _ := ofStages_content
  phase _ := ofStages_phase
  sessions := mainApp_keepsSessions sdk u
  data := mainApp_keepsData sdk u p1

theorem SignTransfer.memoReader_lawful : Lawful (mainApp sdk u) (SignTransfer.memoReader u) := by
  refine lawful_ofStages (fun apdu b hins => ⟨_, ?_, SignTransfer.memoReader_handled sdk apdu b⟩)
    fun cb hcb => ?_
  · unfold mainHandler
    rw [hins]
    rfl
  · cases cb <;> exact absurd hcb (by decide)

theorem SignEncryptedAmountTransfer.memoReader_lawful :
    Lawful (mainApp sdk u) (SignEncryptedAmountTransfer.memoReader u) := by
  refine lawful_ofStages
    (fun apdu b hins => ⟨_, ?_, SignEncryptedAmountTransfer.memoReader_handled sdk apdu b⟩)
    fun cb hcb => ?_
  · unfold mainHandler
    rw [hins]
    rfl
  · cases cb <;> exact absurd hcb (by decide)

theorem SignTransferWithSchedule.memoReader_lawful :
    Lawful (mainApp sdk u) (SignTransferWithSchedule.memoReader u) := by
  refine lawful_ofStages
    (fun apdu b hins => ⟨_, ?_, SignTransferWithSchedule.memoReader_handled sdk apdu b⟩)
    fun cb hcb => ?_
  · unfold mainHandler
    rw [hins]
    rfl
  · cases cb with
    | processNextScheduledAmount =>
      refine ⟨processNextScheduledAmount, rfl, fun t => ?_⟩
      refine wp_mono (SignTransferWithSchedule.processNextScheduledAmount_kept t) ?_ fun _ _ h => h
      rintro _ t' ⟨hstate, hcbor⟩
      refine ⟨?_, hcbor⟩
      simp only [ofStages, stageOf, hstate, hcbor]
    | _ => exact absurd hcb (by decide)

theorem SignRegisterData.dataReader_lawful :
    Lawful (mainApp sdk u) (SignRegisterData.dataReader u) := by
  refine lawful_ofStages (fun apdu b hins => ⟨_, ?_, SignRegisterData.dataReader_handled sdk apdu b⟩)
    fun cb hcb => ?_
  · unfold mainHandler
    rw [hins]
    rfl
  · cases cb with
    | handleData =>
      refine ⟨handleData, rfl, fun t => ?_⟩
      simp [handleData, wp_ite]
    | _ => exact absurd hcb (by decide)

/-- The copies of the four instructions with a memo or data. -/
def CopiesInBounds (u : InstructionContext μ) (d : Device μ) (ev : Event) (d' : Device μ) : Prop :=
  (SignTransfer.memoReader u).InBounds d ev d' ∧
    (SignEncryptedAmountTransfer.memoReader u).InBounds d ev d' ∧
    (SignTransferWithSchedule.memoReader u).InBounds d ev d' ∧
    (SignRegisterData.dataReader u).InBounds d ev d'

instance (u : InstructionContext μ) (d : Device μ) (ev : Event) (d' : Device μ) :
    Decidable (CopiesInBounds u d ev d') := inferInstanceAs (Decidable (_ ∧ _ ∧ _ ∧ _))

def AllDataFits (u : InstructionContext μ) (d : Device μ) (ev : Event) : Prop :=
  (SignTransfer.memoReader u).DataFits d ev ∧
    (SignEncryptedAmountTransfer.memoReader u).DataFits d ev ∧
    (SignTransferWithSchedule.memoReader u).DataFits d ev ∧
    (SignRegisterData.dataReader u).DataFits d ev

instance (u : InstructionContext μ) (d : Device μ) (ev : Event) : Decidable (AllDataFits u d ev) :=
  inferInstanceAs (Decidable (_ ∧ _ ∧ _ ∧ _))

/-- From any state between two sessions, over all sequences of commands and presses. -/
theorem cbor_copies_in_bounds_iff (sdk : Sdk) (u : InstructionContext μ) (d : Device μ)
    (hidle : d.shared.currentInstruction = none) (events : List Event) :
    Always (guarded (step (mainApp sdk u)) OwnCallback) (CopiesInBounds u) d events ↔
      Always (guarded (step (mainApp sdk u)) OwnCallback) (fun d ev _ => AllDataFits u d ev)
        d events := by
  refine Always.congr_of_invariant (I := fun d => (SignTransfer.memoReader u).Inv d ∧
    (SignEncryptedAmountTransfer.memoReader u).Inv d ∧
    (SignTransferWithSchedule.memoReader u).Inv d ∧ (SignRegisterData.dataReader u).Inv d) ?_ ?_
  · rintro d ev d' ⟨htransfer, hencrypted, hscheduled, hdata⟩ hs
    have hown : OwnCallback d ev ∧ step (mainApp sdk u) d ev = some d' := by
      unfold guarded at hs
      split at hs
      · rename_i hc
        exact ⟨hc, hs⟩
      · cases hs
    obtain ⟨hown, hs⟩ := hown
    constructor
    · exact and_congr (inBounds_iff SignTransfer.memoReader_lawful htransfer hs)
        (and_congr (inBounds_iff SignEncryptedAmountTransfer.memoReader_lawful hencrypted hs)
          (and_congr (inBounds_iff SignTransferWithSchedule.memoReader_lawful hscheduled hs)
            (inBounds_iff SignRegisterData.dataReader_lawful hdata hs)))
    · rintro ⟨h₁, h₂, h₃, h₄⟩
      exact ⟨inv_step SignTransfer.memoReader_lawful htransfer hs hown h₁,
        inv_step SignEncryptedAmountTransfer.memoReader_lawful hencrypted hs hown h₂,
        inv_step SignTransferWithSchedule.memoReader_lawful hscheduled hs hown h₃,
        inv_step SignRegisterData.dataReader_lawful hdata hs hown h₄⟩
  · have hinv {γ : Type} (r : DataReader μ γ) : r.Inv d := fun _ hcur => by
      rw [hidle] at hcur
      cases hcur
    exact ⟨hinv _, hinv _, hinv _, hinv _⟩

/-- The initial command of a registration, and Continue. -/
def registration (node length : List UInt8) : List Event :=
  [.command (sent insRegisterData SignRegisterData.p1Initial 0
    ([1] ++ node ++ List.replicate 60 0 ++ [SignRegisterData.registerData] ++ length)), .press 2]

def dataEvent (data : List UInt8) : Event :=
  .command (sent insRegisterData SignRegisterData.p1Data 0 data)

/-- A text of one byte, behind its head in a second command. -/
theorem cbor_copies_in_bounds_short_text :
    Always (guarded (step (mainApp zeroAddressSdk Contexts.layout)) OwnCallback)
      (CopiesInBounds Contexts.layout) bootedDevice
      (registration [0, 0, 0, 44] [0, 2] ++ [dataEvent [0x61], dataEvent [0x63]]) := by
  refine (cbor_copies_in_bounds_iff zeroAddressSdk Contexts.layout bootedDevice rfl _).mpr ?_
  delta mainApp mainHandler
  simp only [handleSignRegisterData, hashAccountTransactionHeaderAndKind,
    addressText_zeroAddressSdk]
  decide +kernel

/-- The first byte of a head that declares 254 bytes of text; the buffer still holds the key path
behind it. -/
def splitHead (node : List UInt8) : Event :=
  .command { sent insRegisterData SignRegisterData.p1Data 0 [0x78] with
    cdata := Ptr.ofBytes ([0x78] ++ node) }

/-- 255 bytes are copied of a command with one byte. -/
theorem split_head_copied :
    ¬ Always (guarded (step (mainApp zeroAddressSdk Contexts.layout)) OwnCallback)
      (CopiesInBounds Contexts.layout) bootedDevice
      (registration [254, 0, 0, 44] [1, 0] ++ [splitHead [254, 0, 0, 44]]) := by
  delta mainApp mainHandler
  simp only [handleSignRegisterData, hashAccountTransactionHeaderAndKind,
    addressText_zeroAddressSdk]
  decide +kernel

end Runs

end ConcordiumLedger
