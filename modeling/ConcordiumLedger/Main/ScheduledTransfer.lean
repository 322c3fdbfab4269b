import ConcordiumLedger.Common.ZeroAddress
import ConcordiumLedger.Main.App
import ConcordiumLedger.Main.Releases

/-!
# Main.ScheduledTransfer

The scheduled transfer is signed as shown: when the Sign step is displayed the hash input is one
complete transaction, and the release screens shown in the session are the rendering of its pairs,
in order.

The counter of the pairs in the current packet is not reset when a session starts, so that the
three counters only add up from the start when nothing is left of an earlier session
(`counted_iff`).
-/

namespace ConcordiumLedger

open CMem CProg CProg.Prog Transition

namespace SignTransferWithSchedule

/-- The application as the scheduled transfer sees it. -/
def scheduleApp (sdk : Sdk) : App Blob where
  handler := fun apdu b => handleSignTransferWithSchedule sdk apdu.cdata apdu.p1 b
  callback := scheduleCallback sdk

/-- The fields of the initial packet after the transaction kind. -/
def recipientOf (first : Apdu) : List UInt8 := (payloadOf first.cdata).slice 32

def countOf (first : Apdu) : UInt8 := payloadOf first.cdata 32

/-- The hash input before the pairs. -/
def initialBytes (first : Apdu) : List UInt8 :=
  headerOf first.cdata ++ [transferWithSchedule] ++ recipientOf first ++ [countOf first]

/-- Whenever a Sign step is displayed, exactly the announced number of pairs was hashed after the
initial fields, and the releases shown in this session are these, in order. -/
def SignedAsShown (first : Apdu) (s : Shared) : Prop :=
  offersSign s.display = true → ∃ rs : List Release,
    rs.length = (countOf first).toNat ∧
      s.hash = initialBytes first ++ rs.flatMap Release.bytes ∧
      releaseScreens s = rs.map Release.screen

/-- While the session lasts, the pairs that are hashed, those left in the current packet and those
still to be received add up to the announced number. -/
def Counted (first : Apdu) (t : Device Blob) : Prop :=
  t.shared.running = true → t.shared.currentInstruction ≠ none → ∃ rs : List Release,
    t.shared.hash = initialBytes first ++ rs.flatMap Release.bytes ∧
      rs.length + t.ctx.inner.scheduledAmountsInCurrentPacket.toNat +
        t.ctx.inner.remainingNumberOfScheduledAmounts.toNat = (countOf first).toNat

/-- What an earlier session has left in the counter of the pairs of a packet. -/
def leftOver (t : Device Blob) : UInt8 := t.ctx.inner.scheduledAmountsInCurrentPacket

variable {sdk : Sdk}

/-- The state after the initial packet. -/
structure AfterInitial (first : Apdu) (t₀ t : Device Blob) : Prop where
  releases : Releases (initialBytes first) [] t.shared
  state : t.ctx.inner.state = .transferPairs
  display : Only [.none, .sendSuccessNoIdle] t.shared.display
  remaining : t.ctx.inner.remainingNumberOfScheduledAmounts = countOf first
  inPacket : t.ctx.inner.scheduledAmountsInCurrentPacket = leftOver t₀
  instruction : t.shared.currentInstruction = some first.ins
  running : t.shared.running = t₀.shared.running

theorem handleInitial_spec {t₀ t : Device Blob} {first : Apdu}
    (h : (scheduleApp sdk).handler first true (opened t₀ first) = .ok ⟨⟩ t) :
    AfterInitial first t₀ t := by
  have hw : wp ((scheduleApp sdk).handler first true) (fun _ t => AfterInitial first t₀ t)
      (fun _ _ => True) (opened t₀ first) := by
    simp only [scheduleApp, handleSignTransferWithSchedule, setState, header, wp_bind, Fw.wp_when,
      Fw.wp_getCtx, Fw.wp_modifyCtx, Fw.wp_throw, wp_ite, and_true, true_implies,
      not_true_eq_false, false_implies, reduceCtorEq, and_false, implies_true]
    intro _
    refine wp_headerAndToAddress fun s' recipient hs => ?_
    simp only [startInitialScheduledTransferDisplay, Fw.wp_modifyCtx, wp_pure, wp_bind,
      wp_updateHash, wp_uxFlowInit, wp_waitForButton]
    have hp : first.cdata.advance (1 + 4 * (first.cdata 0).toNat + 61 + 32) =
        (payloadOf first.cdata).advance 32 := by simp [payloadOf]
    rw [hp]
    exact {
      releases := {
        hash := by
          simp [hs.hash, initialBytes, recipientOf, countOf, slice_one, Ptr.advance]
        screens := by
          simp [hs.log, opened, sessionStep, releaseScreens, screens, flows, releaseScreen,
            uxSignFlowSharedReview] }
      state := rfl
      display := by simp [Only, uxSignFlowSharedReview, uxSignFlowAccountSenderView]
      remaining := rfl
      inPacket := rfl
      instruction := hs.instruction
      running := hs.running }
  exact ok_of_wp hw h

theorem AfterInitial.inv {t₀ t : Device Blob} {first : Apdu} (h : AfterInitial first t₀ t) :
    Inv first.ins (initialBytes first) (leftOver t₀) (countOf first) t :=
  Pairs.inv ⟨h.releases, h.state, .waiting h.display rfl h.remaining h.inPacket⟩ h.instruction

theorem handlePairs_inv {ins : UInt8} {pre : List UInt8} {left count : UInt8} {t t' : Device Blob}
    {apdu : Apdu} (hi : Inv ins pre left count t) (h : SessionStep (scheduleApp sdk) t (.command apdu) t') :
    Inv ins pre left count t' := by
  obtain ⟨hc, hr, ho, h⟩ := h
  obtain ⟨rs, hp⟩ := hi.active hr (by rw [hc]; simp)
  have hst : (entered t apdu).ctx.inner.state = .transferPairs := hp.state
  have hins := hi.instruction _ hc
  have hw : wp ((scheduleApp sdk).handler apdu false) (fun _ t => Inv ins pre left count t)
      (fun _ _ => True) (entered t apdu) := by
    simp only [scheduleApp, handleSignTransferWithSchedule, wp_bind, Fw.wp_when, Fw.wp_getCtx,
      Fw.wp_throw, wp_ite, hst, Bool.false_eq_true, false_implies, true_and, not_false_eq_true,
      true_implies, reduceCtorEq, and_false, and_true, implies_true]
    intro _
    exact packet_inv hp (hc.trans (congrArg some hins)) ho
  exact ok_of_wp hw h

theorem session_inv {ins : UInt8} {pre : List UInt8} {left count : UInt8} {t t' : Device Blob}
    {ev : Event} (hi : Inv ins pre left count t) (h : SessionStep (scheduleApp sdk) t ev t') :
    Inv ins pre left count t' := by
  cases ev with
  | command apdu => exact handlePairs_inv hi h
  | press i =>
    obtain ⟨hne, hr, rfl⟩ := h
    exact press_inv hi hr hne
  | noApdu => exact h.elim

theorem embeds {μ : Type} (sdk : Sdk) (u : InstructionContext μ) :
    Embeds (mainApp sdk u) u.signTransferWithScheduleContext (scheduleApp sdk)
      insSignTransferWithSchedule Own where
  handler := by
    intro apdu b hins
    have hh : (mainApp sdk u).handler apdu b = Fw.on u.signTransferWithScheduleContext
        (handleSignTransferWithSchedule sdk apdu.cdata apdu.p1 b) := by
      simp only [mainApp, mainHandler, hins]
      rfl
    rw [hh]
    exact Views.on _ _
  callback := by
    rintro cb (hs | rfl)
    · exact Views.sharedCallback _ sdk hs
    · exact Views.on _ _

section Session

variable {μ : Type} {u : InstructionContext μ} {d₀ d₁ d : Device μ} {first : Apdu}

/-- The invariant in every state of a session. -/
theorem run_inv (hb : begins (mainApp sdk u) insSignTransferWithSchedule d₀ first d₁)
    (hrun : Run (lockStep (mainApp sdk u)) (fun _ _ => True) d₁ d) :
    Inv insSignTransferWithSchedule (initialBytes first)
      (leftOver (d₀.view u.signTransferWithScheduleContext)) (countOf first)
      (d.view u.signTransferWithScheduleContext) := by
  refine (embeds sdk u).invariant (C := fun _ _ => True) hb hrun ?_ ?_ ?_ ?_
  · intro t h
    rw [← hb.2.1]
    exact (handleInitial_spec h).inv
  · intro t hP
    exact hP.instruction
  · intro t i hP _
    have : ∀ st, t.shared.display[i]? = some st → Own st.callback := fun st hst =>
      hP.own st (List.mem_of_getElem? hst)
    unfold Shared.pressed
    cases hi : t.shared.display[i]? with
    | none => exact .inl rfl
    | some st => exact this st hi
  · intro t e t' hP _ hs
    exact session_inv hP hs

theorem signedAsShown_of_inv {left : UInt8} {t : Device Blob} {ins : UInt8}
    (h : Inv ins (initialBytes first) left (countOf first) t) : SignedAsShown first t.shared := by
  intro hs
  obtain ⟨rs, hr, hl⟩ := h.sign hs
  exact ⟨rs, hl, hr.hash, hr.screens⟩

theorem counted_of_inv {t : Device Blob} {ins : UInt8}
    (h : Inv ins (initialBytes first) 0 (countOf first) t) : Counted first t := by
  intro hr hne
  obtain ⟨rs, hp⟩ := h.active hr hne
  refine ⟨rs, hp.releases.hash, ?_⟩
  cases hp.phase with
  | waiting _ hrs hrem hl => rw [hrs, hrem, hl]; simp
  | between _ hin hsum => rw [hin]; simpa using hsum
  | showing _ _ hsum => exact hsum
  | signing _ hin hrem hl => rw [hin, hrem]; simpa using hl

/-- Right after the initial packet the counters add up only if nothing was left over. -/
theorem leftOver_of_counted (hb : begins (mainApp sdk u) insSignTransferWithSchedule d₀ first d₁)
    (h : Counted first (d₁.view u.signTransferWithScheduleContext)) :
    leftOver (d₀.view u.signTransferWithScheduleContext) = 0 := by
  obtain ⟨hidle, hins, hh⟩ := begins_handler hb
  have ha : AfterInitial first (d₀.view u.signTransferWithScheduleContext) _ :=
    handleInitial_spec ((embeds sdk u).handler_ok hins hh)
  obtain ⟨rs, hhash, hsum⟩ := h (ha.running.trans hidle.running) (by rw [ha.instruction]; simp)
  rw [ha.remaining, ha.inPacket] at hsum
  exact UInt8.toNat_inj.mp (by rw [UInt8.toNat_zero]; omega)

/-- A scheduled transfer is signed as shown in every session, and its counters add up throughout
the session exactly if no pairs were left over when it started. -/
theorem signed_as_shown_and_counted
    (hb : begins (mainApp sdk u) insSignTransferWithSchedule d₀ first d₁) :
    (∀ d, Run (lockStep (mainApp sdk u)) (fun _ _ => True) d₁ d → SignedAsShown first d.shared) ∧
    ((∀ d, Run (lockStep (mainApp sdk u)) (fun _ _ => True) d₁ d →
        SignedAsShown first d.shared ∧
        Counted first (d.view u.signTransferWithScheduleContext)) ↔
      leftOver (d₀.view u.signTransferWithScheduleContext) = 0) := by
  have hsigned : ∀ d, Run (lockStep (mainApp sdk u)) (fun _ _ => True) d₁ d →
      SignedAsShown first d.shared := fun d hrun => signedAsShown_of_inv (run_inv hb hrun)
  refine ⟨hsigned, fun h => leftOver_of_counted hb (h d₁ .refl).2, fun h d hrun => ?_⟩
  have hinv := run_inv hb hrun
  rw [h] at hinv
  exact ⟨hsigned d hrun, counted_of_inv hinv⟩

end Session

/-- The initial packet for a transfer of `count` releases to the address of 32 zeroes. -/
def initialPacket (count : UInt8) : Apdu :=
  sent insSignTransferWithSchedule p1InitialPacket 0
    ([0] ++ List.replicate 60 0 ++ [transferWithSchedule] ++ List.replicate 32 0 ++ [count])

/-- A session that starts after the device has booted. -/
theorem signed_as_shown_and_counted_after_boot :
    ∃ d₁ : Device Contexts,
      begins (mainApp zeroAddressSdk Contexts.layout) insSignTransferWithSchedule bootedDevice
        (initialPacket 2) d₁ ∧
      ∀ d, Run (lockStep (mainApp zeroAddressSdk Contexts.layout)) (fun _ _ => True) d₁ d →
        SignedAsShown (initialPacket 2) d.shared ∧
        Counted (initialPacket 2) (d.view Contexts.layout.signTransferWithScheduleContext) := by
  have hs : (accepted (dispatch (mainApp zeroAddressSdk Contexts.layout) (initialPacket 2)
      (receivedCommand bootedDevice))).isSome = true := by
    delta mainApp mainHandler
    simp only [handleSignTransferWithSchedule, SignTransferWithSchedule.header,
      handleHeaderAndToAddress, hashAccountTransactionHeaderAndKind, addressText_zeroAddressSdk]
    decide
  obtain ⟨d₁, hd⟩ := Option.isSome_iff_exists.mp hs
  have hb : begins (mainApp zeroAddressSdk Contexts.layout) insSignTransferWithSchedule bootedDevice
      (initialPacket 2) d₁ := ⟨⟨rfl, rfl, rfl⟩, rfl, hd⟩
  exact ⟨d₁, hb, (signed_as_shown_and_counted hb).2.mpr rfl⟩

/-- A session that is aborted while a release of its packet is still to be shown. -/
def abortedSession : List Event :=
  [ .command (initialPacket 2),
    .command (sent insSignTransferWithSchedule p1ScheduledTransferPairs 0 []),
    .command (sent insGetPublicKey 0 0 []) ]

/-- The next session of the device starts with what the aborted one left. -/
def afterAborted : Option (Device Contexts × Device Contexts) := do
  let app := mainApp zeroAddressSdk Contexts.layout
  let d₀ ← exec (step app) bootedDevice abortedSession
  let d₁ ← accepted (dispatch app (initialPacket 2) (receivedCommand d₀))
  return (d₀, d₁)

theorem aborted_session_leaves_pairs :
    ∃ d₀ d₁ : Device Contexts,
      exec (step (mainApp zeroAddressSdk Contexts.layout)) bootedDevice abortedSession = some d₀ ∧
      begins (mainApp zeroAddressSdk Contexts.layout) insSignTransferWithSchedule d₀
        (initialPacket 2) d₁ ∧
      ¬ ∀ d, Run (lockStep (mainApp zeroAddressSdk Contexts.layout)) (fun _ _ => True) d₁ d →
        SignedAsShown (initialPacket 2) d.shared ∧
        Counted (initialPacket 2) (d.view Contexts.layout.signTransferWithScheduleContext) := by
  have hex : afterAborted.any (fun p => p.1.shared.running &&
      p.1.shared.currentInstruction == none && !p.1.shared.replyOwed &&
      leftOver (p.1.view Contexts.layout.signTransferWithScheduleContext) != 0) = true := by
    delta afterAborted mainApp mainHandler
    simp only [handleSignTransferWithSchedule, SignTransferWithSchedule.header,
      handleHeaderAndToAddress, hashAccountTransactionHeaderAndKind, addressText_zeroAddressSdk]
    decide
  obtain ⟨⟨d₀, d₁⟩, hp, hc⟩ := (Option.any_eq_true _ _).mp hex
  simp only [Bool.and_eq_true, beq_iff_eq, Bool.not_eq_true', bne_iff_ne] at hc
  obtain ⟨⟨⟨hrun, hi⟩, ho⟩, hleft⟩ := hc
  simp only [afterAborted, Option.bind_eq_bind, Option.bind_eq_some_iff] at hp
  obtain ⟨d₀', hd₀, d₁', hd₁, he⟩ := hp
  cases he
  have hb : begins (mainApp zeroAddressSdk Contexts.layout) insSignTransferWithSchedule d₀
      (initialPacket 2) d₁ := ⟨⟨hrun, hi, ho⟩, rfl, hd₁⟩
  exact ⟨d₀, d₁, hd₀, hb, fun h => hleft (leftOver_of_counted hb (h d₁ .refl).2)⟩

end SignTransferWithSchedule
end ConcordiumLedger
