import ConcordiumLedger.Common.Rules
import ConcordiumLedger.Common.TimeFacts
import ConcordiumLedger.Main.SignTransferWithSchedule

/-!
# Main.Releases

The releases of a scheduled transfer, which both of its instructions read in the same way: packets
of pairs arrive by commands, and a button press goes on to the next pair.

* `Release`  — a pair as it is hashed, and `Release.screen`, what the display shows of it.
* `Phase`    — how far the pairs have come, with the counters and the screen of each stage.
* `Inv`      — the invariant of a session from the first screen on. `packet_inv` and `press_inv`
  are its step lemmas.
-/

namespace ConcordiumLedger

open CMem CProg CProg.Prog

namespace SignTransferWithSchedule

/-- A release as it is hashed: the time in milliseconds and the amount, 8 bytes each. -/
structure Release where
  time : List UInt8
  amount : List UInt8
  time_length : time.length = 8
  amount_length : amount.length = 8
deriving DecidableEq

def Release.bytes (r : Release) : List UInt8 := r.time ++ r.amount

/-- The text of a release time. -/
def releaseTimeText (time : List UInt8) : Option (List UInt8) := do
  let tm ← secondsToTm (beNat time / 1000 : Nat)
  let text ← (timeToDisplayText tm 25).toOption
  cString text

/-- The text of an amount. -/
def releaseAmountText (amount : List UInt8) : Option (List UInt8) := do
  let text ← (amountToGtuDisplay 30 (.ofNat (beNat amount))).toOption
  cString text

/-- What the two steps of a release show. -/
def Release.screen (r : Release) : Option (List UInt8) × Option (List UInt8) :=
  (releaseTimeText r.time, releaseAmountText r.amount)

/-- The release that a flow shows, if it begins with the steps of one. -/
def releaseScreen : List Step → Option (Option (List UInt8) × Option (List UInt8))
  | t :: a :: _ =>
    if t.title = "Release time (UTC)" ∧ a.title = "Amount" then some (t.shown, a.shown) else none
  | _ => none

/-- The releases shown so far, in order. -/
def releaseScreens (s : Shared) : List (Option (List UInt8) × Option (List UInt8)) :=
  (screens s).filterMap releaseScreen

/-- What the callback does with the next release of a packet. -/
structure Shows (d d' : Device Blob) (r : Release) : Prop where
  hash : d'.shared.hash = d.shared.hash ++ r.bytes
  log : d'.shared.log =
    d.shared.log ++ [.updateHash r.time, .updateHash r.amount, .uxFlowInit d'.shared.display]
  screen : releaseScreen d'.shared.display = some r.screen
  instruction : d'.shared.currentInstruction = d.shared.currentInstruction
  replyOwed : d'.shared.replyOwed = d.shared.replyOwed
  state : d'.ctx.inner.state = d.ctx.inner.state
  remaining : d'.ctx.inner.remainingNumberOfScheduledAmounts =
    d.ctx.inner.remainingNumberOfScheduledAmounts
  inPacket : d'.ctx.inner.scheduledAmountsInCurrentPacket =
    d.ctx.inner.scheduledAmountsInCurrentPacket - 1
  sign : d'.ctx.inner.remainingNumberOfScheduledAmounts = 0 →
    d'.ctx.inner.scheduledAmountsInCurrentPacket = 0 →
    Only [.none, .buildAndSignTransactionHash, .sendUserRejection] d'.shared.display
  next : ¬ (d'.ctx.inner.remainingNumberOfScheduledAmounts = 0 ∧
    d'.ctx.inner.scheduledAmountsInCurrentPacket = 0) →
    Only [.none, .processNextScheduledAmount] d'.shared.display

theorem releaseScreen_pair (c : Context) (rest : List Step) :
    releaseScreen (pairSteps c ++ rest) =
      some (cString c.displayTimestamp.bytes, cString c.displayAmount.bytes) := rfl

theorem pairFlow_only (c : Context) :
    Only [.none, .processNextScheduledAmount] (uxSignScheduledTransferPairFlow c) := by
  simp [Only, uxSignScheduledTransferPairFlow, pairSteps]

theorem pairFlowSign_only (c : Context) :
    Only [.none, .buildAndSignTransactionHash, .sendUserRejection]
      (uxSignScheduledTransferPairFlowSign c) := by
  simp [Only, uxSignScheduledTransferPairFlowSign, pairSteps, uxSignFlowSharedSign,
    uxSignFlowSharedDecline]

/-- The text of a release time that was converted and copied to the display. -/
theorem timestamp_shown (b : Buffer 25) {p : Ptr} {pos : Nat} {time : Tm} {text : List UInt8}
    (ht : secondsToTm (p.u8be pos / 1000).toNat = some time) (hy : time.year ≤ 9999)
    (htext : timeToDisplayText time 25 = .ok text) :
    cString (b.memmove 0 text).bytes = releaseTimeText ((p.advance pos).slice 8) := by
  have hrange := secondsToTm_range ht (Int.natCast_nonneg _)
  obtain ⟨hlen, h0⟩ := timeToDisplayText_length hrange.1 hrange.2 hy htext
  have hval : (p.u8be pos / 1000).toNat = beNat ((p.advance pos).slice 8) / 1000 := by
    rw [UInt64.toNat_div, Ptr.u8be_toNat]; rfl
  rw [cString_memmove_mem b h0 hlen, releaseTimeText, ← hval, ht]
  simp [htext, Except.toOption]

theorem amount_shown (b : Buffer 30) {p : Ptr} {pos : Nat} {text : List UInt8}
    (htext : amountToGtuDisplay 30 (p.u8be pos) = .ok text) :
    cString (b.memmove 0 text).bytes = releaseAmountText ((p.advance pos).slice 8) := by
  obtain ⟨hlen, h0⟩ := amountToGtuDisplay_length htext
  rw [cString_memmove_mem b h0 hlen, releaseAmountText, ← Ptr.u8be, htext]
  simp [Except.toOption]

theorem processNext_shows (d : Device Blob) (h : d.ctx.inner.scheduledAmountsInCurrentPacket ≠ 0) :
    wp processNextScheduledAmount (fun _ d' => ∃ r, Shows d d' r)
      (fun _ d' => d'.shared.display = d.shared.display ∧
        d'.shared.currentInstruction = d.shared.currentInstruction) d := by
  let p := d.ctx.inner.buffer.ptr
  let pos := d.ctx.inner.pos.toNat
  let pos' := (d.ctx.inner.pos + 8).toNat
  let r : Release := ⟨(p.advance pos).slice 8, (p.advance pos').slice 8, by simp, by simp⟩
  simp only [processNextScheduledAmount, releaseTime, releaseAmount, wp_bind, Fw.wp_getCtx, wp_ite,
    h, false_implies, true_and, not_false_eq_true, true_implies, wp_updateHash, Fw.wp_modifyCtx]
  cases ht : secondsToTm (p.u8be pos / 1000).toNat with
  | none => exact ⟨rfl, rfl⟩
  | some time =>
    simp only [wp_bind, Fw.wp_modifyCtx, Fw.wp_throwIf, Fw.wp_eval, Fw.wp_getCtx, wp_updateHash,
      wp_ite, wp_uxFlowInit, Shared.updateHash_display, Shared.updateHash_currentInstruction,
      and_self, implies_true, true_and, and_true]
    intro hy text htext text' htext'
    have hscreen : ∀ (c : Context) (rest : List Step),
        c.displayTimestamp = d.ctx.inner.displayTimestamp.memmove 0 text →
        c.displayAmount = d.ctx.inner.displayAmount.memmove 0 text' →
        releaseScreen (pairSteps c ++ rest) = some r.screen := by
      intro c rest h1 h2
      rw [releaseScreen_pair, h1, h2, timestamp_shown _ ht (by omega) htext,
        amount_shown _ htext']
      rfl
    refine ⟨fun hsign => ⟨r, ?_⟩, fun hnext => ⟨r, ?_⟩⟩
    · exact {
        hash := by simp [r, Release.bytes, p, pos, pos']
        log := by simp [r, p, pos, pos']
        screen := hscreen _ _ rfl rfl
        instruction := rfl
        replyOwed := rfl
        state := rfl
        remaining := rfl
        inPacket := rfl
        sign := fun _ _ => pairFlowSign_only _
        next := fun hn => absurd hsign hn }
    · exact {
        hash := by simp [r, Release.bytes, p, pos, pos']
        log := by simp [r, p, pos, pos']
        screen := hscreen _ _ rfl rfl
        instruction := rfl
        replyOwed := rfl
        state := rfl
        remaining := rfl
        inPacket := rfl
        sign := fun h1 h2 => absurd ⟨h1, h2⟩ hnext
        next := fun _ => pairFlow_only _ }

/-! ## The pairs of a session -/

/-- The callbacks that a session can meet on its own screens. -/
def Own (cb : Callback) : Prop := cb.isShared = true ∨ cb = .processNextScheduledAmount

/-- How far the pairs have come: `count` of them were announced and `rs` are hashed. Until a
packet arrives the counter of its pairs holds the value `left` of an earlier session. -/
inductive Phase (left count : UInt8) (rs : List Release) (t : Device Blob) : Prop
  /-- No packet of pairs has arrived. -/
  | waiting : Only [.none, .sendSuccessNoIdle] t.shared.display → rs = [] →
      t.ctx.inner.remainingNumberOfScheduledAmounts = count →
      t.ctx.inner.scheduledAmountsInCurrentPacket = left → Phase left count rs t
  /-- All pairs of the packets that have arrived are shown, and more are to come. -/
  | between : Only [.none, .sendSuccessNoIdle, .processNextScheduledAmount] t.shared.display →
      t.ctx.inner.scheduledAmountsInCurrentPacket = 0 →
      rs.length + t.ctx.inner.remainingNumberOfScheduledAmounts.toNat = count.toNat →
      Phase left count rs t
  /-- A pair is shown that is not the last one. -/
  | showing : Only [.none, .processNextScheduledAmount] t.shared.display →
      t.shared.replyOwed = true →
      rs.length + t.ctx.inner.scheduledAmountsInCurrentPacket.toNat +
        t.ctx.inner.remainingNumberOfScheduledAmounts.toNat = count.toNat →
      Phase left count rs t
  /-- The last pair is shown, with the Sign step. -/
  | signing : Only [.none, .buildAndSignTransactionHash, .sendUserRejection] t.shared.display →
      t.ctx.inner.scheduledAmountsInCurrentPacket = 0 →
      t.ctx.inner.remainingNumberOfScheduledAmounts = 0 →
      rs.length = count.toNat →
      Phase left count rs t

/-- The releases `rs` are what was hashed after `pre` and what was shown in this session. -/
structure Releases (pre : List UInt8) (rs : List Release) (s : Shared) : Prop where
  hash : s.hash = pre ++ rs.flatMap Release.bytes
  screens : releaseScreens s = rs.map Release.screen

structure Pairs (pre : List UInt8) (left count : UInt8) (rs : List Release) (t : Device Blob) :
    Prop where
  releases : Releases pre rs t.shared
  state : t.ctx.inner.state = .transferPairs
  phase : Phase left count rs t

/-- The invariant of a session of `ins` from its first screen on: while the session lasts the
pairs are in order, and a Sign step means that all of them were hashed and shown. -/
structure Inv (ins : UInt8) (pre : List UInt8) (left count : UInt8) (t : Device Blob) : Prop where
  instruction : ∀ i, t.shared.currentInstruction = some i → i = ins
  active : t.shared.running = true → t.shared.currentInstruction ≠ none → ∃ rs, Pairs pre left count rs t
  sign : offersSign t.shared.display = true → ∃ rs, Releases pre rs t.shared ∧
    rs.length = count.toNat
  own : ∀ st ∈ t.shared.display, Own st.callback

theorem Phase.sign {left count : UInt8} {rs : List Release} {t : Device Blob} (h : Phase left count rs t)
    (hs : offersSign t.shared.display = true) : rs.length = count.toNat := by
  cases h with
  | waiting hd _ _ _ => rw [hd.not_offersSign (by decide)] at hs; cases hs
  | between hd _ _ => rw [hd.not_offersSign (by decide)] at hs; cases hs
  | showing hd _ _ => rw [hd.not_offersSign (by decide)] at hs; cases hs
  | signing _ _ _ hl => exact hl

theorem Phase.own {left count : UInt8} {rs : List Release} {t : Device Blob} (h : Phase left count rs t) :
    ∀ st ∈ t.shared.display, Own st.callback := by
  have hall : ∀ cb ∈ [Callback.none, .sendSuccessNoIdle, .processNextScheduledAmount,
      .buildAndSignTransactionHash, .sendUserRejection], Own cb := by
    simp [Own, Callback.isShared]
  intro st hst
  apply hall
  cases h with
  | waiting hd _ _ _ => have := hd st hst; simp at this ⊢; tauto
  | between hd _ _ => have := hd st hst; simp at this ⊢; tauto
  | showing hd _ _ => have := hd st hst; simp at this ⊢; tauto
  | signing hd _ _ _ => have := hd st hst; simp at this ⊢; tauto

/-- A session in which the pairs are in order satisfies the invariant. -/
theorem Pairs.inv {ins : UInt8} {pre : List UInt8} {left count : UInt8} {rs : List Release}
    {t : Device Blob} (h : Pairs pre left count rs t) (hi : t.shared.currentInstruction = some ins) :
    Inv ins pre left count t where
  instruction := by intro i h'; rw [hi] at h'; cases h'; rfl
  active := fun _ _ => ⟨rs, h⟩
  sign := fun hs => ⟨rs, h.releases, h.phase.sign hs⟩
  own := h.phase.own

/-- The callbacks as the scheduled transfer runs them. -/
def scheduleCallback (sdk : Sdk) : Callback → Fw Blob PUnit :=
  sharedCallback sdk fun
    | .processNextScheduledAmount => processNextScheduledAmount
    | _ => Pure.pure ⟨⟩

/-- Actions that put nothing on the display leave the releases as they are. -/
theorem Releases.of_eq {pre : List UInt8} {rs : List Release} {s s' : Shared}
    (h : Releases pre rs s) (hh : s'.hash = s.hash)
    (hf : ConcordiumLedger.screens s' = ConcordiumLedger.screens s) : Releases pre rs s' where
  hash := hh.trans h.hash
  screens := by rw [releaseScreens, hf]; exact h.screens

theorem Releases.reply {pre : List UInt8} {rs : List Release} {s : Shared}
    (h : Releases pre rs s) (data : List UInt8) (sw : UInt16) : Releases pre rs (s.reply data sw) :=
  h.of_eq rfl (screens_reply _ _ _)

theorem Releases.shows {pre : List UInt8} {rs : List Release} {d d' : Device Blob} {r : Release}
    (h : Releases pre rs d.shared) (hs : Shows d d' r) : Releases pre (rs ++ [r]) d'.shared where
  hash := by rw [hs.hash, h.hash]; simp
  screens := by
    have hscreens := h.screens
    have hlog : ConcordiumLedger.screens d'.shared =
        ConcordiumLedger.screens d.shared ++ [d'.shared.display] := by
      simp [ConcordiumLedger.screens, hs.log, sessionStep, flows]
    simp only [releaseScreens] at hscreens ⊢
    rw [hlog]
    simp [hscreens, hs.screen]

variable {ins : UInt8} {pre : List UInt8} {left count : UInt8} {sdk : Sdk}

/-- The next pair of the packet is shown. -/
theorem Releases.pairs {rs : List Release} {t t' : Device Blob} {r : Release}
    (h : Releases pre rs t.shared) (hst : t.ctx.inner.state = .transferPairs) (hs : Shows t t' r)
    (ho : t.shared.replyOwed = true)
    (hsum : rs.length + t.ctx.inner.scheduledAmountsInCurrentPacket.toNat +
      t.ctx.inner.remainingNumberOfScheduledAmounts.toNat = count.toNat)
    (hne : t.ctx.inner.scheduledAmountsInCurrentPacket ≠ 0) : Pairs pre left count (rs ++ [r]) t' where
  releases := h.shows hs
  state := hs.state.trans hst
  phase := by
    have hpos : t.ctx.inner.scheduledAmountsInCurrentPacket.toNat ≠ 0 := by
      intro h0; exact hne (UInt8.toNat_inj.mp h0)
    have hdec : (t.ctx.inner.scheduledAmountsInCurrentPacket - 1).toNat =
        t.ctx.inner.scheduledAmountsInCurrentPacket.toNat - 1 := by
      rw [UInt8.toNat_sub_of_le]
      · rfl
      · rw [UInt8.le_iff_toNat_le]; exact Nat.pos_of_ne_zero hpos
    by_cases hlast : t'.ctx.inner.remainingNumberOfScheduledAmounts = 0 ∧
        t'.ctx.inner.scheduledAmountsInCurrentPacket = 0
    · refine .signing (hs.sign hlast.1 hlast.2) hlast.2 hlast.1 ?_
      have h1 := congrArg UInt8.toNat hlast.1
      have h2 := congrArg UInt8.toNat hlast.2
      rw [hs.remaining] at h1
      rw [hs.inPacket, hdec] at h2
      simp only [List.length_append, List.length_singleton, UInt8.toNat_zero] at h1 h2 ⊢
      omega
    · refine .showing (hs.next hlast) (hs.replyOwed.trans ho) ?_
      rw [hs.inPacket, hs.remaining, hdec, List.length_append, List.length_singleton]
      omega

/-- An error ends the session, and a screen without a Sign step stays up. -/
theorem caught_inv {t t' : Device Blob} {e : Error} (h : Inv ins pre left count t)
    (hd : t'.shared.display = t.shared.display)
    (hc : t'.shared.currentInstruction = t.shared.currentInstruction)
    (hs : offersSign t.shared.display = false) :
    Inv ins pre left count ⟨t'.ctx, catchOther e t'.shared⟩ where
  instruction := fun i hi => h.instruction i (hc ▸ catchOther_instruction e _ hi)
  active := fun hr hne => absurd (catchOther_ended e _ hr) hne
  sign := by intro hs'; rw [catchOther_display, hd, hs] at hs'; cases hs'
  own := by rw [catchOther_display, hd]; exact h.own

/-- The callback shows the next release of the packet. -/
theorem next_inv {rs : List Release} {t : Device Blob} (h : Inv ins pre left count t)
    (hp : Pairs pre left count rs t) (hi : t.shared.currentInstruction = some ins)
    (hd : offersSign t.shared.display = false) (ho : t.shared.replyOwed = true)
    (hsum : rs.length + t.ctx.inner.scheduledAmountsInCurrentPacket.toNat +
      t.ctx.inner.remainingNumberOfScheduledAmounts.toNat = count.toNat)
    (hne : t.ctx.inner.scheduledAmountsInCurrentPacket ≠ 0) :
    wp processNextScheduledAmount (fun _ t' => Inv ins pre left count t')
      (fun e t' => Inv ins pre left count ⟨t'.ctx, catchOther e t'.shared⟩) t := by
  refine wp_mono (processNext_shows t hne) ?_ ?_
  · rintro _ t' ⟨r, hs⟩
    exact (hp.releases.pairs hp.state hs ho hsum hne).inv (hs.instruction.trans hi)
  · rintro e t' ⟨hd', hc'⟩
    exact caught_inv h hd' hc' hd

/-- With no release left in the packet the callback asks for more. -/
theorem next_reply {t : Device Blob} (hin : t.ctx.inner.scheduledAmountsInCurrentPacket = 0) :
    processNextScheduledAmount t = .ok ⟨⟩ ⟨t.ctx, t.shared.reply [] success⟩ := by
  simp only [processNextScheduledAmount, Bind.bind, Prog.bind, Fw.getCtx, Prog.gets, hin, if_true]
  rfl

/-- The menu after the end of a session. -/
theorem idle_inv {t : Device Blob} (hi : t.shared.currentInstruction = none)
    (hd : t.shared.display = uxMenuIdleFlow) : Inv ins pre left count t where
  instruction := by intro i h; rw [hi] at h; cases h
  active := fun _ hne => absurd hi hne
  sign := by
    intro hs
    rw [hd, uxMenuIdleFlow_only.not_offersSign (by decide)] at hs
    cases hs
  own := by
    rw [hd]
    simp [uxMenuIdleFlow, Own, Callback.isShared]

theorem sign_inv {rs : List Release} {t : Device Blob} (h : Inv ins pre left count t)
    (hp : Releases pre rs t.shared) (hl : rs.length = count.toNat) :
    Inv ins pre left count (finish (buildAndSignTransactionHash sdk t)) := by
  apply finish_of_wp
  simp only [buildAndSignTransactionHash, sendSuccess, wp_bind, Fw.wp_getShared,
    Fw.wp_ensureNoError, Fw.wp_modifyShared, wp_uiIdle]
  refine ⟨fun _ _ => idle_inv rfl rfl, fun _ => ?_⟩
  exact {
    instruction := fun i hc => h.instruction i (catchOther_instruction _ _ hc)
    active := fun hr hne => absurd (catchOther_ended _ _ hr) hne
    sign := fun _ => ⟨rs, hp.of_eq (catchOther_hash _ _) (catchOther_screens _ _), hl⟩
    own := by rw [catchOther_display]; exact h.own }

theorem press_inv {t : Device Blob} {i : Nat} (h : Inv ins pre left count t)
    (hr : t.shared.running = true) (hne : t.shared.currentInstruction ≠ none) :
    Inv ins pre left count (finish (scheduleCallback sdk (t.shared.pressed i) t)) := by
  obtain ⟨rs, hp⟩ := h.active hr hne
  obtain ⟨j, hj⟩ := Option.ne_none_iff_exists'.mp hne
  have hi : t.shared.currentInstruction = some ins := by rw [hj, h.instruction j hj]
  have hreply := hp.releases.reply [] success
  cases hp.phase with
  | waiting hd hrs hrem hleft =>
    have hm := pressed_mem hd (by decide) i
    simp only [List.mem_cons, List.not_mem_nil, or_false] at hm
    rcases hm with hm | hm <;> rw [hm]
    · exact h
    · exact Pairs.inv ⟨hreply, hp.state, .waiting hd hrs hrem hleft⟩ hi
  | between hd hin hsum =>
    have hm := pressed_mem hd (by decide) i
    simp only [List.mem_cons, List.not_mem_nil, or_false] at hm
    have hafter : Inv ins pre left count ⟨t.ctx, t.shared.reply [] success⟩ :=
      Pairs.inv ⟨hreply, hp.state, .between hd hin hsum⟩ hi
    rcases hm with hm | hm | hm <;> rw [hm]
    · exact h
    · exact hafter
    · show Inv ins pre left count (finish (processNextScheduledAmount t))
      rw [next_reply hin]
      exact hafter
  | showing hd ho hsum =>
    have hm := pressed_mem hd (by decide) i
    simp only [List.mem_cons, List.not_mem_nil, or_false] at hm
    rcases hm with hm | hm <;> rw [hm]
    · exact h
    · show Inv ins pre left count (finish (processNextScheduledAmount t))
      by_cases hin : t.ctx.inner.scheduledAmountsInCurrentPacket = 0
      · rw [next_reply hin]
        rw [hin, UInt8.toNat_zero] at hsum
        exact Pairs.inv ⟨hreply, hp.state, .between (Only.mono hd (by decide)) hin hsum⟩ hi
      · exact finish_of_wp (next_inv h hp hi (hd.not_offersSign (by decide)) ho hsum hin)
  | signing hd hin hrem hl =>
    have hm := pressed_mem hd (by decide) i
    simp only [List.mem_cons, List.not_mem_nil, or_false] at hm
    rcases hm with hm | hm | hm <;> rw [hm]
    · exact h
    · exact sign_inv h hp.releases hl
    · exact idle_inv rfl rfl

theorem Inv.waitForButton {t : Device Blob} (h : Inv ins pre left count t) :
    Inv ins pre left count ⟨t.ctx, { t.shared with asynchReply := true }⟩ where
  instruction := h.instruction
  active := by
    intro hr hne
    obtain ⟨rs, hp⟩ := h.active hr hne
    refine ⟨rs, hp.releases.of_eq rfl rfl, hp.state, ?_⟩
    cases hp.phase with
    | waiting hd hrs hrem hl => exact .waiting hd hrs hrem hl
    | between hd hin hsum => exact .between hd hin hsum
    | showing hd ho hsum => exact .showing hd ho hsum
    | signing hd hin hrem hl => exact .signing hd hin hrem hl
  sign := by
    intro hs
    obtain ⟨rs, hp, hl⟩ := h.sign hs
    exact ⟨rs, hp.of_eq rfl rfl, hl⟩
  own := h.own

theorem Releases.entered {rs : List Release} {t : Device Blob} (h : Releases pre rs t.shared)
    (apdu : Apdu) : Releases pre rs (entered t apdu).shared :=
  h.of_eq rfl (screens_entered _ _)

theorem startPacket_sum (c : Context) :
    c.startPacket.scheduledAmountsInCurrentPacket.toNat +
        c.startPacket.remainingNumberOfScheduledAmounts.toNat =
      c.remainingNumberOfScheduledAmounts.toNat := by
  unfold Context.startPacket
  split
  · simp
  · rename_i h
    rw [UInt8.le_iff_toNat_le] at h
    have hle : (15 : UInt8) ≤ c.remainingNumberOfScheduledAmounts := by
      rw [UInt8.le_iff_toNat_le]; omega
    have h15 : (15 : UInt8).toNat = 15 := rfl
    simp only [UInt8.toNat_sub_of_le _ _ hle]
    omega

theorem startPacket_eq_zero (c : Context) :
    c.startPacket.scheduledAmountsInCurrentPacket = 0 ↔ c.remainingNumberOfScheduledAmounts = 0 := by
  unfold Context.startPacket
  split
  · rfl
  · rename_i h
    constructor
    · intro h'; cases h'
    · intro h'; rw [h'] at h; exact absurd (by decide) h

/-- A packet of pairs. -/
theorem packet_inv {rs : List Release} {t : Device Blob} {apdu : Apdu} {cdata : Ptr}
    (hp : Pairs pre left count rs t) (hi : t.shared.currentInstruction = some ins)
    (ho : t.shared.replyOwed = false) :
    wp (handleTransferPairs cdata) (fun _ t' => Inv ins pre left count t') (fun _ _ => True)
      (entered t apdu) := by
  have hrel := hp.releases.entered apdu
  simp only [handleTransferPairs, wp_bind, Fw.wp_modifyCtx]
  let inner := t.ctx.inner.startPacket
  let t₁ : Device Blob := ⟨{ t.ctx with inner := { inner with
    buffer := inner.buffer.memmove 0
      (cdata.slice (inner.scheduledAmountsInCurrentPacket.toNat * 16)) } },
    (entered t apdu).shared⟩
  have hsum : inner.scheduledAmountsInCurrentPacket.toNat +
      inner.remainingNumberOfScheduledAmounts.toNat =
      t.ctx.inner.remainingNumberOfScheduledAmounts.toNat := startPacket_sum t.ctx.inner
  have hst : t₁.ctx.inner.state = .transferPairs := by
    rw [← hp.state]; simp only [t₁, inner, Context.startPacket]; split <;> rfl
  suffices hnext : wp processNextScheduledAmount (fun _ t' => Inv ins pre left count t')
      (fun _ _ => True) t₁ from
    wp_mono hnext (fun _ _ h => h.waitForButton) (fun _ _ _ => trivial)
  by_cases hz : t.ctx.inner.remainingNumberOfScheduledAmounts = 0
  · have hin : inner.scheduledAmountsInCurrentPacket = 0 := (startPacket_eq_zero _).mpr hz
    have hrem : inner.remainingNumberOfScheduledAmounts = 0 := by
      rw [hin, hz] at hsum
      exact UInt8.toNat_inj.mp (by simpa using hsum)
    rw [wp, next_reply (t := t₁) hin]
    refine Pairs.inv ⟨hrel.reply [] success, hst, ?_⟩ hi
    cases hp.phase with
    | waiting hd hrs hc _ =>
      refine .between (Only.mono hd (by decide)) hin ?_
      show rs.length + inner.remainingNumberOfScheduledAmounts.toNat = count.toNat
      rw [hrs, hrem, ← hc, hz]; rfl
    | between hd _ hl =>
      refine .between hd hin ?_
      rw [hz] at hl
      show rs.length + inner.remainingNumberOfScheduledAmounts.toNat = count.toNat
      rw [hrem]; exact hl
    | showing _ ho' _ => rw [ho] at ho'; cases ho'
    | signing hd _ _ hl => exact .signing hd hin hrem hl
  · have hne : t₁.ctx.inner.scheduledAmountsInCurrentPacket ≠ 0 := fun h =>
      hz ((startPacket_eq_zero _).mp h)
    have hcount : rs.length + inner.scheduledAmountsInCurrentPacket.toNat +
        inner.remainingNumberOfScheduledAmounts.toNat = count.toNat := by
      cases hp.phase with
      | waiting _ hrs hc _ => rw [hrs, ← hc]; simp only [List.length_nil]; omega
      | between _ _ hl => omega
      | showing _ ho' _ => rw [ho] at ho'; cases ho'
      | signing _ _ hc _ => exact absurd hc hz
    refine wp_mono (processNext_shows t₁ hne) ?_ (fun _ _ _ => trivial)
    rintro _ t' ⟨r, hs⟩
    exact (Releases.pairs (t := t₁) hrel hst hs rfl hcount hne).inv (hs.instruction.trans hi)

end SignTransferWithSchedule
end ConcordiumLedger
