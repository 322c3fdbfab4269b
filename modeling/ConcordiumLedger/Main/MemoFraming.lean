import ConcordiumLedger.Common.ZeroAddress
import ConcordiumLedger.Main.App
import ConcordiumLedger.Main.MemoTransfers
import ConcordiumLedger.Main.ScheduledTransferWithMemo

/-!
# Main.MemoFraming

The memo of a transaction is framed: in every session of an instruction with a memo, once the memo
phase is left the memo commands have brought exactly one item of the declared length. A scheduled
transfer is therefore read back from its signed bytes with the releases that were shown.

An integer whose command is longer than the declared length is accepted, and so is an empty first
command for a text of 256 bytes, whose bytes are then read from what the buffer held before.
-/

namespace ConcordiumLedger

open CMem CProg CProg.Prog Transition

namespace Memo

/-- The instructions with a memo. -/
inductive Instruction where
  | transfer
  | encryptedTransfer
  | scheduledTransfer
deriving DecidableEq

namespace Instruction

variable {μ : Type}

def ins : Instruction → UInt8
  | transfer => insSignTransferWithMemo
  | encryptedTransfer => insEncryptedAmountTransferWithMemo
  | scheduledTransfer => insSignTransferWithScheduleAndMemo

def declared : Instruction → Apdu → Declared
  | transfer => SignTransfer.memoDeclared
  | encryptedTransfer => SignEncryptedAmountTransfer.memoDeclared
  | scheduledTransfer => SignTransferWithSchedule.memoDeclared

def phase (u : InstructionContext μ) (d : Device μ) : Instruction → Option Phase
  | transfer => SignTransfer.phase (u.signTransferContext.get d.ctx).inner
  | encryptedTransfer =>
    SignEncryptedAmountTransfer.phase (u.signEncryptedAmountToTransfer.get d.ctx).inner
  | scheduledTransfer =>
    SignTransferWithSchedule.memoPhase (u.signTransferWithScheduleContext.get d.ctx).inner

/-- The first memo command fits the declared length, and as long as the session has no screen of
its own, a screen that is left from an earlier session is only used for its shared steps. -/
def Condition (u : InstructionContext μ) (k : Instruction) (first : Apdu) (d : Device μ) :
    Event → Prop
  | .command apdu => k.phase u d = some .start → apdu.p1 = (k.declared first).p1Memo →
      Fits (k.declared first).length apdu
  | ev => OwnScreens d ev

instance (u : InstructionContext μ) (k : Instruction) (first : Apdu) (d : Device μ) (ev : Event) :
    Decidable (k.Condition u first d ev) :=
  match ev with
  | .command apdu => inferInstanceAs (Decidable
      (k.phase u d = some .start → apdu.p1 = (k.declared first).p1Memo →
        Fits (k.declared first).length apdu))
  | .press i => inferInstanceAs (Decidable (OwnScreens d (.press i)))
  | .noApdu => inferInstanceAs (Decidable True)

end Instruction

end Memo

theorem SignTransfer.memo_embeds {μ : Type} (sdk : Sdk) (u : InstructionContext μ) :
    Embeds (mainApp sdk u) u.signTransferContext (memoApp sdk) insSignTransferWithMemo
      (fun cb => cb.isShared = true) where
  handler := by
    intro apdu b hins
    have hh : (mainApp sdk u).handler apdu b = Fw.on u.signTransferContext
        (handleSignTransferWithMemo sdk apdu.cdata apdu.p1 apdu.lc b) := by
      simp only [mainApp, mainHandler, hins]
      rfl
    rw [hh]
    exact Views.on _ _
  callback := fun _ hs => Views.sharedCallback _ sdk hs

theorem SignEncryptedAmountTransfer.memo_embeds {μ : Type} (sdk : Sdk)
    (u : InstructionContext μ) :
    Embeds (mainApp sdk u) u.signEncryptedAmountToTransfer (memoApp sdk)
      insEncryptedAmountTransferWithMemo (fun cb => cb.isShared = true) where
  handler := by
    intro apdu b hins
    have hh : (mainApp sdk u).handler apdu b = Fw.on u.signEncryptedAmountToTransfer
        (handleSignEncryptedAmountTransferWithMemo sdk apdu.cdata apdu.p1 apdu.lc b) := by
      simp only [mainApp, mainHandler, hins]
      rfl
    rw [hh]
    exact Views.on _ _
  callback := fun _ hs => Views.sharedCallback _ sdk hs

theorem SignTransferWithSchedule.memo_embeds {μ : Type} (sdk : Sdk) (u : InstructionContext μ) :
    Embeds (mainApp sdk u) u.signTransferWithScheduleContext (memoApp sdk)
      insSignTransferWithScheduleAndMemo Own where
  handler := by
    intro apdu b hins
    have hh : (mainApp sdk u).handler apdu b = Fw.on u.signTransferWithScheduleContext
        (handleSignTransferWithScheduleAndMemo sdk apdu.cdata apdu.p1 apdu.lc b) := by
      simp only [mainApp, mainHandler, hins]
      rfl
    rw [hh]
    exact Views.on _ _
  callback := by
    rintro cb (hs | rfl)
    · exact Views.sharedCallback _ sdk hs
    · exact Views.on _ _

namespace Memo

variable {μ : Type} {sdk : Sdk} {u : InstructionContext μ} {d₀ d₁ d : Device μ} {first : Apdu}

theorem condition_view {γ : Type} {k : Instruction} {m : Member μ (WithDataBlob γ)}
    {ph : γ → Option Phase} (hph : ∀ d : Device μ, k.phase u d = ph (d.view m).ctx.inner) :
    ∀ d ev, k.Condition u first d ev → Condition (k.declared first) ph (d.view m) ev := by
  rintro d ev hc
  cases ev with
  | command apdu => exact fun h => hc ((hph d).trans h)
  | press i => exact hc
  | noApdu => trivial

/-- Signed bytes are read back as the recipient, the memo that was sent and the releases that were
shown. -/
def ReadBack (first : Apdu) (s : Shared) : Prop :=
  ∃ p, SignTransferWithSchedule.parse s.hash = some p ∧
    p.recipient = (payloadOf first.cdata).slice 32 ∧
    p.memo = memoSent SignTransferWithSchedule.p1Memo s ∧
    SignTransferWithSchedule.releaseScreens s =
      p.releases.map SignTransferWithSchedule.Release.screen

theorem readBack_of_inv {t : Device SignTransferWithSchedule.Blob}
    (h : SignTransferWithSchedule.MemoInv first t)
    (hst : t.ctx.inner.state = .transferPairs) (hs : offersSign t.shared.display = true) :
    ReadBack first t.shared := by
  obtain ⟨left, hinv⟩ := h.pairs hst
  obtain ⟨rs, hrel, hcount⟩ := hinv.sign hs
  obtain ⟨ph, hph, hfr⟩ := h.memo.framing
  rw [SignTransferWithSchedule.memoPhase_eq_done.mpr hst] at hph
  cases hph
  obtain ⟨rest, hhashed⟩ := hfr
  have hlen : (memoSent SignTransferWithSchedule.p1Memo t.shared).length =
      beNat (((payloadOf first.cdata).advance 33).slice 2) :=
    hhashed.framed.length_eq.trans (Ptr.u2be_toNat _ _)
  refine ⟨⟨_, _, rs⟩, ?_, rfl, rfl, hrel.screens⟩
  rw [hrel.hash]
  refine SignTransferWithSchedule.parse_bytes (headerOf_length _) (Ptr.slice_length _ _)
    (Ptr.slice_length _ _) hlen hcount

theorem transfer_framing
    (hb : begins (mainApp sdk u) Instruction.transfer.ins d₀ first d₁)
    (hrun : Run (lockStep (mainApp sdk u)) (Instruction.transfer.Condition u first) d₁ d) :
    SignTransfer.MemoInv first (d.view u.signTransferContext) := by
  have hins : first.ins = insSignTransferWithMemo := hb.2.1
  refine (SignTransfer.memo_embeds sdk u).invariant
    (C := Condition (SignTransfer.memoDeclared first) SignTransfer.phase) hb
    (hrun.mono (condition_view (k := .transfer) fun _ => rfl)) ?_ ?_ ?_ ?_
  · exact fun t h => SignTransfer.initial_inv h
  · exact fun t hP i hi => hins ▸ hP.instruction i hi
  · exact fun t i hP hc => hP.pressed (fun _ h => h) hc
  · exact fun t e t' hP hc hs => SignTransfer.session_inv hP hc hs

theorem encryptedTransfer_framing
    (hb : begins (mainApp sdk u) Instruction.encryptedTransfer.ins d₀ first d₁)
    (hrun : Run (lockStep (mainApp sdk u)) (Instruction.encryptedTransfer.Condition u first) d₁ d) :
    SignEncryptedAmountTransfer.MemoInv first (d.view u.signEncryptedAmountToTransfer) := by
  have hins : first.ins = insEncryptedAmountTransferWithMemo := hb.2.1
  refine (SignEncryptedAmountTransfer.memo_embeds sdk u).invariant
    (C := Condition (SignEncryptedAmountTransfer.memoDeclared first)
      SignEncryptedAmountTransfer.phase) hb
    (hrun.mono (condition_view (k := .encryptedTransfer) fun _ => rfl)) ?_ ?_ ?_ ?_
  · exact fun t h => SignEncryptedAmountTransfer.initial_inv h
  · exact fun t hP i hi => hins ▸ hP.instruction i hi
  · exact fun t i hP hc => hP.pressed (fun _ h => h) hc
  · exact fun t e t' hP hc hs => SignEncryptedAmountTransfer.session_inv hP hc hs

theorem scheduledTransfer_framing
    (hb : begins (mainApp sdk u) Instruction.scheduledTransfer.ins d₀ first d₁)
    (hrun : Run (lockStep (mainApp sdk u)) (Instruction.scheduledTransfer.Condition u first) d₁ d) :
    SignTransferWithSchedule.MemoInv first (d.view u.signTransferWithScheduleContext) := by
  have hins : first.ins = insSignTransferWithScheduleAndMemo := hb.2.1
  refine (SignTransferWithSchedule.memo_embeds sdk u).invariant
    (C := Condition (SignTransferWithSchedule.memoDeclared first)
      SignTransferWithSchedule.memoPhase) hb
    (hrun.mono (condition_view (k := .scheduledTransfer) fun _ => rfl)) ?_ ?_ ?_ ?_
  · exact fun t h => SignTransferWithSchedule.memo_initial_inv h
  · exact fun t hP i hi => hins ▸ hP.memo.instruction i hi
  · exact fun t i hP hc => hP.memo.pressed (fun _ h => .inl h) hc
  · exact fun t e t' hP hc hs => SignTransferWithSchedule.memo_session_inv hP hc hs

theorem done_hashed {γ : Type} {m : Declared} {ins : UInt8} {ph : γ → Option Phase}
    {own : Callback → Prop} {t : Device (WithDataBlob γ)} (h : Inv m ins ph own t)
    (hdone : ph t.ctx.inner = some .done) : ∃ rest, Hashed m rest t.shared := by
  obtain ⟨p, hp, hfr⟩ := h.framing
  rw [hdone] at hp
  cases hp
  exact hfr

/-- Once the memo phase is left the memo is one item of the declared length, and the signed bytes
of a scheduled transfer are read back as what was shown. -/
theorem memo_framed_and_read_back (k : Instruction)
    (hb : begins (mainApp sdk u) k.ins d₀ first d₁)
    (hrun : Run (lockStep (mainApp sdk u)) (k.Condition u first) d₁ d)
    (hdone : k.phase u d = some .done) :
    (∃ rest, Hashed (k.declared first) rest d.shared) ∧
      (k = .scheduledTransfer → offersSign d.shared.display = true → ReadBack first d.shared) := by
  cases k with
  | transfer => exact ⟨done_hashed (transfer_framing hb hrun) hdone, fun h => by cases h⟩
  | encryptedTransfer =>
    exact ⟨done_hashed (encryptedTransfer_framing hb hrun) hdone, fun h => by cases h⟩
  | scheduledTransfer =>
    have hinv := scheduledTransfer_framing hb hrun
    refine ⟨done_hashed hinv.memo hdone, fun _ hs => ?_⟩
    exact readBack_of_inv hinv (SignTransferWithSchedule.memoPhase_eq_done.mp hdone) hs

/-- A scheduled transfer to the address of 32 zeroes, with a memo of one byte and one release. -/
def initialCommand : Apdu :=
  sent insSignTransferWithScheduleAndMemo SignTransferWithSchedule.p1InitialWithMemo 0
    ([0] ++ List.replicate 60 0 ++ [SignTransferWithSchedule.transferWithScheduleWithMemo] ++
      List.replicate 32 0 ++ [1] ++ [0, 1])

def memoCommand (memo : List UInt8) : Apdu :=
  sent insSignTransferWithScheduleAndMemo SignTransferWithSchedule.p1Memo 0 memo

/-- The memo is the number 5; its screen is confirmed, and the release is sent. -/
def politeSession : List Event :=
  [ .command (memoCommand [5]),
    .press 4,
    .command (sent insSignTransferWithScheduleAndMemo
      SignTransferWithSchedule.p1ScheduledTransferPairs 0 (List.replicate 16 0)) ]

/-- The device after the first command of a session and after the given events. -/
def afterEvents (C : Device Contexts → Event → Prop) [∀ d e, Decidable (C d e)]
    (es : List Event) : Option (Device Contexts × Device Contexts) := do
  let app := mainApp zeroAddressSdk Contexts.layout
  let d₁ ← accepted (dispatch app initialCommand (receivedCommand bootedDevice))
  let d ← exec (guarded (lockStep app) C) d₁ es
  return (d₁, d)

theorem afterEvents_run {C : Device Contexts → Event → Prop} [∀ d e, Decidable (C d e)]
    {es : List Event} {d₁ d : Device Contexts} (h : afterEvents C es = some (d₁, d)) :
    begins (mainApp zeroAddressSdk Contexts.layout) insSignTransferWithScheduleAndMemo bootedDevice
        initialCommand d₁ ∧
      Run (lockStep (mainApp zeroAddressSdk Contexts.layout)) C d₁ d := by
  simp only [afterEvents, Option.bind_eq_bind, Option.bind_eq_some_iff] at h
  obtain ⟨d₁', hd₁, d', hd, he⟩ := h
  cases he
  exact ⟨⟨⟨rfl, rfl, rfl⟩, rfl, hd₁⟩, exec_run hd⟩

theorem memo_framed_and_read_back_five :
    ∃ d₁ d : Device Contexts,
      Run (lockStep (mainApp zeroAddressSdk Contexts.layout))
        (Instruction.scheduledTransfer.Condition Contexts.layout initialCommand) d₁ d ∧
      offersSign d.shared.display = true ∧ ReadBack initialCommand d.shared ∧
      ∃ rest, Hashed (Instruction.scheduledTransfer.declared initialCommand) rest d.shared := by
  have hex : (afterEvents (Instruction.scheduledTransfer.Condition Contexts.layout initialCommand)
      politeSession).any (fun p => offersSign p.2.shared.display &&
        Instruction.scheduledTransfer.phase Contexts.layout p.2 == some .done) = true := by
    delta afterEvents mainApp mainHandler
    simp only [handleSignTransferWithScheduleAndMemo, SignTransferWithSchedule.header,
      handleHeaderAndToAddress, hashAccountTransactionHeaderAndKind, addressText_zeroAddressSdk]
    decide
  obtain ⟨⟨d₁, d⟩, hp, hc⟩ := (Option.any_eq_true _ _).mp hex
  simp only [Bool.and_eq_true, beq_iff_eq] at hc
  obtain ⟨hb, hrun⟩ := afterEvents_run hp
  obtain ⟨hhashed, hread⟩ := memo_framed_and_read_back .scheduledTransfer hb hrun hc.2
  exact ⟨d₁, d, hrun, hc.1, hread rfl hc.1, hhashed⟩

/-- A number is sent with a second byte, which is hashed in front of the number of releases. -/
theorem longer_memo_command :
    ∃ d₁ : Device Contexts,
      begins (mainApp zeroAddressSdk Contexts.layout) insSignTransferWithScheduleAndMemo
        bootedDevice initialCommand d₁ ∧
      ¬ ∀ d, Run (lockStep (mainApp zeroAddressSdk Contexts.layout)) (fun _ _ => True) d₁ d →
        Instruction.scheduledTransfer.phase Contexts.layout d = some .done →
        ∃ rest, Hashed (Instruction.scheduledTransfer.declared initialCommand) rest d.shared := by
  have hex : (afterEvents (fun _ _ => True) [.command (memoCommand [5, 7])]).any (fun p =>
      Instruction.scheduledTransfer.phase Contexts.layout p.2 == some .done &&
        (memoSent SignTransferWithSchedule.p1Memo p.2.shared).length != 1) = true := by
    delta afterEvents mainApp mainHandler
    simp only [handleSignTransferWithScheduleAndMemo, SignTransferWithSchedule.header,
      handleHeaderAndToAddress, hashAccountTransactionHeaderAndKind, addressText_zeroAddressSdk]
    decide
  obtain ⟨⟨d₁, d⟩, hp, hc⟩ := (Option.any_eq_true _ _).mp hex
  simp only [Bool.and_eq_true, beq_iff_eq, bne_iff_ne] at hc
  obtain ⟨hb, hrun⟩ := afterEvents_run hp
  refine ⟨d₁, hb, fun h => ?_⟩
  obtain ⟨rest, hhashed⟩ := h d hrun hc.1
  exact hc.2 hhashed.framed.length_eq

end Memo

end ConcordiumLedger
