import ConcordiumLedger.Main.MemoSession
import ConcordiumLedger.Main.Releases

/-!
# Main.ScheduledTransferWithMemo

The sessions of the scheduled transfer with memo: the framing of the memo, and the releases after
it. `parse` reads the signed bytes as their receiver does, and finds the releases that were shown.
-/

namespace ConcordiumLedger

open CMem CProg CProg.Prog

namespace SignTransferWithSchedule

/-! ## The signed bytes -/

def parseReleases : Nat → List UInt8 → Option (List Release)
  | 0, bs => if bs = [] then some [] else none
  | n + 1, bs =>
    if h : 16 ≤ bs.length then do
      let releases ← parseReleases n (bs.drop 16)
      return ⟨bs.take 8, (bs.drop 8).take 8, by simp; omega, by simp; omega⟩ :: releases
    else none

structure Parsed where
  recipient : List UInt8
  memo : List UInt8
  releases : List Release
deriving DecidableEq

/-- A scheduled transfer with memo: `header(60) ‖ 24 ‖ to(32) ‖ memoLen(2) ‖ memo ‖ n ‖ n pairs`. -/
def parse (bs : List UInt8) : Option Parsed := do
  let (_, bs) ← takeBytes 60 bs
  let (kind, bs) ← takeBytes 1 bs
  if kind ≠ [transferWithScheduleWithMemo] then none
  let (recipient, bs) ← takeBytes 32 bs
  let (size, bs) ← takeBytes 2 bs
  let (memo, bs) ← takeBytes (beNat size) bs
  let (count, bs) ← takeBytes 1 bs
  let releases ← parseReleases (beNat count) bs
  return { recipient, memo, releases }

theorem Release.bytes_length (r : Release) : r.bytes.length = 16 := by
  simp [Release.bytes, r.time_length, r.amount_length]

theorem parseReleases_bytes (rs : List Release) :
    parseReleases rs.length (rs.flatMap Release.bytes) = some rs := by
  induction rs with
  | nil => rfl
  | cons r rs ih =>
    have hdrop : ((r :: rs).flatMap Release.bytes).drop 16 = rs.flatMap Release.bytes := by
      rw [List.flatMap_cons, List.drop_left' r.bytes_length]
    have htime : ((r :: rs).flatMap Release.bytes).take 8 = r.time := by
      rw [List.flatMap_cons, Release.bytes, List.append_assoc, List.take_left' r.time_length]
    have hamount : (((r :: rs).flatMap Release.bytes).drop 8).take 8 = r.amount := by
      rw [List.flatMap_cons, Release.bytes, List.append_assoc, List.drop_left' r.time_length,
        List.take_left' r.amount_length]
    have hlen : 16 ≤ ((r :: rs).flatMap Release.bytes).length := by
      rw [List.flatMap_cons, List.length_append, r.bytes_length]; omega
    rw [List.length_cons, parseReleases, dif_pos hlen, hdrop, ih]
    simp only [Option.bind_eq_bind, Option.bind_some, Option.pure_def, htime, hamount]

/-- The fields are read back from the bytes. -/
theorem parse_bytes {header recipient size memo : List UInt8} {count : UInt8} {rs : List Release}
    (hh : header.length = 60) (hr : recipient.length = 32) (hs : size.length = 2)
    (hm : memo.length = beNat size) (hc : rs.length = count.toNat) :
    parse (header ++ [transferWithScheduleWithMemo] ++ recipient ++ size ++ memo ++ [count] ++
      rs.flatMap Release.bytes) = some ⟨recipient, memo, rs⟩ := by
  have hcount : beNat [count] = rs.length := by simp [beNat, hc]
  simp only [List.append_assoc, parse, takeBytes_append _ hh, takeBytes_append _ hr,
    takeBytes_append _ hs, takeBytes_append _ hm, takeBytes_append _ (List.length_singleton),
    Option.bind_eq_bind, Option.bind_some, hcount, parseReleases_bytes]
  rfl

/-! ## The memo -/

def memoPhase (c : Context) : Option Memo.Phase :=
  match c.state with
  | .memoStart => some .start
  | .memo => some .more
  | .transferPairs => some .done
  | _ => none

theorem memoPhase_eq_start {c : Context} : memoPhase c = some .start ↔ c.state = .memoStart := by
  unfold memoPhase; split <;> simp_all

theorem memoPhase_eq_more {c : Context} : memoPhase c = some .more ↔ c.state = .memo := by
  unfold memoPhase; split <;> simp_all

theorem memoPhase_eq_done {c : Context} : memoPhase c = some .done ↔ c.state = .transferPairs := by
  unfold memoPhase; split <;> simp_all

/-- The number of releases comes between the recipient and the length of the memo. -/
def memoDeclared : Apdu → Memo.Declared := Memo.declared transferWithScheduleWithMemo p1Memo 33

def memoCountOf (first : Apdu) : UInt8 := payloadOf first.cdata 32

/-- The application as the scheduled transfer with memo sees it. -/
def memoApp (sdk : Sdk) : App Blob where
  handler := fun apdu b =>
    handleSignTransferWithScheduleAndMemo sdk apdu.cdata apdu.p1 apdu.lc b
  callback := scheduleCallback sdk

/-- Before the pairs the number of releases is kept and no screen of the session is up; from then
on the pairs are as in the transfer without memo, after the memo and the count. -/
structure MemoInv (first : Apdu) (t : Device Blob) : Prop where
  memo : Memo.Inv (memoDeclared first) first.ins memoPhase Own t
  before : t.shared.running = true → t.shared.currentInstruction ≠ none →
    t.ctx.inner.state ≠ .transferPairs →
    t.ctx.inner.remainingNumberOfScheduledAmounts = memoCountOf first ∧
      screens t.shared = [] ∧ t.shared.currentInstruction = some first.ins
  pairs : t.ctx.inner.state = .transferPairs → ∃ left, Inv first.ins
    ((memoDeclared first).initial ++ Memo.memoSent p1Memo t.shared ++ [memoCountOf first]) left
    (memoCountOf first) t

variable {sdk : Sdk} {t t' t₀ : Device Blob} {first apdu : Apdu}

theorem memo_initial_inv (h : (memoApp sdk).handler first true (opened t₀ first) = .ok ⟨⟩ t) :
    MemoInv first t := by
  have hw : wp ((memoApp sdk).handler first true) (fun _ t => MemoInv first t) (fun _ _ => True)
      (opened t₀ first) := by
    simp only [memoApp, handleSignTransferWithScheduleAndMemo, setState, header, wp_bind,
      Fw.wp_when, Fw.wp_getCtx, Fw.wp_modifyCtx, Fw.wp_throw, wp_ite, and_true, true_implies,
      not_true_eq_false, false_implies, reduceCtorEq, and_false, implies_true]
    intro hp1
    refine wp_headerAndToAddress fun s' recipient hs => ?_
    simp only [Fw.wp_modifyCtx, wp_pure, wp_bind]
    refine Memo.wp_memoLength fun c hc hle => ?_
    have hp : first.cdata.advance (1 + 4 * (first.cdata 0).toNat + 61 + 32) =
        (payloadOf first.cdata).advance 32 := by simp [payloadOf]
    rw [hp, Ptr.advance_advance] at hc hle ⊢
    refine ⟨.initial hs (by rw [hp1]; decide) hc hle rfl, fun _ _ _ => ⟨rfl, ?_, ?_⟩, ?_⟩
    · simp [screens, hs.log, opened, sessionStep, flows]
    · exact hs.instruction
    · intro h; cases h
  exact ok_of_wp hw h

/-! ## The pairs after the memo -/

/-- The callback only hashes more, and what it displays has own callbacks. -/
structure Grows (t t' : Device Blob) : Prop where
  hash : ∃ bytes, t'.shared.hash = t.shared.hash ++ bytes
  sent : Memo.memoSent p1Memo t'.shared = Memo.memoSent p1Memo t.shared
  state : t'.ctx.inner.state = t.ctx.inner.state
  instruction : ∀ i, t'.shared.currentInstruction = some i → t.shared.currentInstruction = some i
  screen : (screens t'.shared = screens t.shared ∧
    t'.shared.display = t.shared.display) ∨ ∀ st ∈ t'.shared.display, Own st.callback

namespace Grows

variable {t'' : Device Blob}

theorem trans (h₁ : Grows t t') (h₂ : Grows t' t'') : Grows t t'' where
  hash := by
    obtain ⟨b₁, hb₁⟩ := h₁.hash
    obtain ⟨b₂, hb₂⟩ := h₂.hash
    exact ⟨b₁ ++ b₂, by rw [hb₂, hb₁, List.append_assoc]⟩
  sent := h₂.sent.trans h₁.sent
  state := h₂.state.trans h₁.state
  instruction := fun i h => h₁.instruction i (h₂.instruction i h)
  screen := by
    rcases h₂.screen with ⟨hf, hd⟩ | hd
    · rw [hf, hd]; exact h₁.screen
    · exact .inr hd

/-- More bytes are hashed. -/
theorem hashed {c : Blob} {bytes : List UInt8} (hc : c.inner.state = t.ctx.inner.state) :
    Grows t ⟨c, t.shared.updateHash bytes⟩ where
  hash := ⟨bytes, rfl⟩
  sent := Memo.memoSent_updateHash _ _ _
  state := hc
  instruction := fun _ h => h
  screen := .inl ⟨by simp, rfl⟩

theorem replied (t : Device Blob) : Grows t ⟨t.ctx, t.shared.reply [] success⟩ where
  hash := ⟨[], by simp⟩
  sent := Memo.memoSent_reply _ _ _ _
  state := rfl
  instruction := fun _ h => h
  screen := .inl ⟨by simp, rfl⟩

theorem shown {c : Blob} {flow : List Step} (hc : c.inner.state = t.ctx.inner.state)
    (hf : Only [.none, .processNextScheduledAmount, .buildAndSignTransactionHash,
      .sendUserRejection] flow) : Grows t ⟨c, t.shared.uxFlowInit flow⟩ where
  hash := ⟨[], by simp⟩
  sent := Memo.memoSent_uxFlowInit _ _ _
  state := hc
  instruction := fun _ h => h
  screen := by
    refine .inr fun st hst => ?_
    have := hf st hst
    simp only [List.mem_cons, List.not_mem_nil, or_false] at this
    rcases this with h | h | h | h <;> rw [h] <;> simp [Own, Callback.isShared]

theorem entered (t : Device Blob) {apdu : Apdu} (hp : apdu.p1 ≠ p1Memo) :
    Grows t (entered t apdu) where
  hash := ⟨[], by simp [ConcordiumLedger.entered]⟩
  sent := by rw [Memo.memoSent_entered, if_neg hp, List.append_nil]
  state := rfl
  instruction := fun _ h => h
  screen := .inl ⟨screens_entered _ _, rfl⟩

/-- A press of a shared step. -/
theorem passed (h : Passed t t') : Grows t t' where
  hash := ⟨[], by rw [h.hash, List.append_nil]⟩
  sent := by
    obtain ⟨as, hl, hq⟩ := h.log
    exact Memo.memoSent_quiet hl hq
  state := by rw [h.ctx]
  instruction := h.instruction
  screen := by
    rcases h.display with hs | hd
    · exact .inl hs
    · refine .inr fun st hst => .inl (uxMenuIdleFlow_shared st (hd ▸ hst))

end Grows

theorem memo_grows (h : Memo.Inv (memoDeclared first) first.ins memoPhase Own t)
    (hst : t.ctx.inner.state = .transferPairs) (hg : Grows t t') :
    Memo.Inv (memoDeclared first) first.ins memoPhase Own t' := by
  obtain ⟨bytes, hb⟩ := hg.hash
  exact h.extended (memoPhase_eq_done.mpr hst) (memoPhase_eq_done.mpr (hg.state.trans hst)) hb
    hg.sent hg.instruction hg.screen

theorem releaseTime_grows (t : Device Blob) :
    wp releaseTime (fun _ t' => Grows t t') (fun _ t' => Grows t t') t := by
  simp only [releaseTime, wp_bind, Fw.wp_getCtx, wp_updateHash, Fw.wp_modifyCtx]
  cases secondsToTm _ with
  | none => exact .hashed rfl
  | some time =>
    simp only [wp_bind, Fw.wp_modifyCtx, Fw.wp_throwIf, Fw.wp_eval]
    exact ⟨fun _ => .hashed rfl, fun _ => ⟨fun _ _ => .hashed rfl, fun _ _ => .hashed rfl⟩⟩

theorem releaseAmount_grows (t : Device Blob) :
    wp releaseAmount (fun _ t' => Grows t t') (fun _ t' => Grows t t') t := by
  simp only [releaseAmount, wp_bind, Fw.wp_getCtx, wp_updateHash, Fw.wp_modifyCtx, Fw.wp_eval]
  exact ⟨fun _ _ => .hashed rfl, fun _ _ => .hashed rfl⟩

theorem processNext_grows (t : Device Blob) :
    wp processNextScheduledAmount (fun _ t' => Grows t t') (fun _ t' => Grows t t') t := by
  simp only [processNextScheduledAmount, wp_bind, Fw.wp_getCtx, wp_ite, wp_sendSuccessNoIdle]
  refine ⟨fun _ => .replied t, fun _ => ?_⟩
  refine wp_mono (releaseTime_grows t) (fun _ t₁ h₁ => ?_) (fun _ _ h => h)
  rw [wp_bind]
  refine wp_mono (releaseAmount_grows t₁) (fun _ t₂ h₂ => ?_) (fun _ _ h => h₁.trans h)
  simp only [wp_bind, Fw.wp_modifyCtx, Fw.wp_getCtx, wp_ite, wp_uxFlowInit]
  refine ⟨fun _ => (h₁.trans h₂).trans (.shown rfl ?_), fun _ => (h₁.trans h₂).trans (.shown rfl ?_)⟩
  · exact (pairFlowSign_only _).mono (by decide)
  · exact (pairFlow_only _).mono (by decide)

theorem handlePairs_grows (t : Device Blob) (cdata : Ptr) :
    wp (handleTransferPairs cdata) (fun _ t' => Grows t t') (fun _ _ => True) t := by
  simp only [handleTransferPairs, wp_bind, Fw.wp_modifyCtx]
  refine wp_mono (processNext_grows _) (fun _ t' h => ?_) (fun _ _ _ => trivial)
  have hstate : t.ctx.inner.startPacket.state = t.ctx.inner.state := by
    unfold Context.startPacket; split <;> rfl
  exact {
    hash := h.hash
    sent := h.sent
    state := h.state.trans hstate
    instruction := h.instruction
    screen := h.screen }

/-! ## Sessions -/

/-- The count is hashed after the memo, and the first screen of the session is put up. -/
theorem finishMemo_inv {c : CborContext} {s : Shared} (hi : MemoInv first t)
    (hr : t.shared.running = true) (hc : t.shared.currentInstruction ≠ none)
    (hne : t.ctx.inner.state ≠ .transferPairs)
    (hs : s = (entered t apdu).shared.updateHash apdu.data)
    (hh : Memo.Hashed (memoDeclared first) [] s) :
    wp finishMemoScheduled (fun _ t' => MemoInv first t') (fun _ _ => True)
      ⟨⟨t.ctx.inner, c⟩, s⟩ := by
  obtain ⟨hrem, hflows, hins⟩ := hi.before hr hc hne
  have hsflows : screens s = [] := by rw [hs, ← hflows]; simp
  have hsins : s.currentInstruction = some first.ins := by rw [hs]; exact hins
  simp only [finishMemoScheduled, setState, startInitialScheduledTransferDisplay, wp_bind,
    Fw.wp_getCtx, Fw.wp_modifyShared, Fw.wp_modifyCtx, wp_uxFlowInit, wp_waitForButton, if_true]
  have honly : Only [.none, .sendSuccessNoIdle]
      ([ uxSignFlowSharedReview, uxSignFlowAccountSenderView (s.updateHash [memoCountOf first]),
          { title := "Recipient", text := t.ctx.inner.displayStr.bytes } ] ++
        [uxDisplayMemoStepNocb c] ++
        [ { title := "Continue", text := literal "with transaction",
            callback := .sendSuccessNoIdle } ]) := by
    simp [Only, uxSignFlowSharedReview, uxSignFlowAccountSenderView, uxDisplayMemoStepNocb]
  have hsent (flow : List Step) : Memo.memoSent p1Memo
      ((s.updateHash [memoCountOf first]).uxFlowInit flow) = Memo.memoSent p1Memo s := by
    rw [Memo.memoSent_uxFlowInit, Memo.memoSent_updateHash]
  have hscreens (flow : List Step) :
      screens ((s.updateHash [memoCountOf first]).uxFlowInit flow) = [flow] := by simp [hsflows]
  rw [hrem]
  exact {
    memo := {
      length_le := hi.memo.length_le
      framing := by
        refine ⟨.done, rfl, [memoCountOf first], ?_, ?_⟩
        · show Memo.Framed _ (Memo.memoSent p1Memo ((s.updateHash _).uxFlowInit _))
          rw [hsent]; exact hh.framed
        · show s.hash ++ [memoCountOf first] = (memoDeclared first).initial ++
            Memo.memoSent p1Memo ((s.updateHash _).uxFlowInit _) ++ [memoCountOf first]
          rw [hsent, hh.hash, List.append_nil]; rfl
      instruction := by
        intro i h
        have h' : s.currentInstruction = some i := h
        rw [hsins] at h'
        cases h'
        rfl
      screen := by
        intro _ st hst
        have := honly st hst
        simp only [List.mem_cons, List.not_mem_nil, or_false] at this
        rcases this with h | h <;> rw [h] <;> simp [Own, Callback.isShared] }
    before := fun _ _ h => absurd rfl h
    pairs := by
      intro _
      refine ⟨t.ctx.inner.scheduledAmountsInCurrentPacket,
        Pairs.inv ⟨⟨?_, ?_⟩, rfl, .waiting honly rfl rfl rfl⟩ hsins⟩
      · show s.hash ++ [memoCountOf first] = (memoDeclared first).initial ++
          Memo.memoSent p1Memo ((s.updateHash _).uxFlowInit _) ++ [memoCountOf first] ++ []
        rw [hsent, hh.hash, List.append_nil, List.append_nil]; rfl
      · show (screens ((s.updateHash _).uxFlowInit _)).filterMap releaseScreen = []
        rw [hscreens]
        rfl }

/-- The memo and the count stay in front of the pairs. -/
theorem MemoInv.grows (hi : MemoInv first t) (hst : t.ctx.inner.state = .transferPairs)
    (hg : Grows t t')
    (h : ∃ left, Inv first.ins
      ((memoDeclared first).initial ++ Memo.memoSent p1Memo t.shared ++ [memoCountOf first]) left
      (memoCountOf first) t') : MemoInv first t' where
  memo := memo_grows hi.memo hst hg
  before := fun _ _ hne => absurd (hg.state.trans hst) hne
  pairs := fun _ => by rw [hg.sent]; exact h

/-- A command of pairs. -/
theorem pairs_command_inv (hi : MemoInv first t) (hst : t.ctx.inner.state = .transferPairs)
    (hr : t.shared.running = true) (hc : t.shared.currentInstruction = some apdu.ins)
    (ho : t.shared.replyOwed = false) (hp : apdu.p1 ≠ p1Memo) :
    wp (handleTransferPairs apdu.cdata) (fun _ t' => MemoInv first t') (fun _ _ => True)
      (entered t apdu) := by
  obtain ⟨left, hinv⟩ := hi.pairs hst
  obtain ⟨rs, hpairs⟩ := hinv.active hr (by rw [hc]; simp)
  have hins : t.shared.currentInstruction = some first.ins := by
    rw [hc, hinv.instruction _ hc]
  refine wp_mono (wp_and (packet_inv hpairs hins ho) (handlePairs_grows (entered t apdu) _)) ?_
    (fun _ _ _ => trivial)
  rintro _ t' ⟨hinv', hg'⟩
  have hg := (Grows.entered t hp).trans hg'
  exact hi.grows hst hg ⟨left, hinv'⟩

theorem memo_command_inv (hi : MemoInv first t)
    (hc : Memo.Condition (memoDeclared first) memoPhase t (.command apdu))
    (h : SessionStep (memoApp sdk) t (.command apdu) t') : MemoInv first t' := by
  obtain ⟨hins, hr, ho, h⟩ := h
  have hne : t.shared.currentInstruction ≠ none := by rw [hins]; simp
  obtain ⟨ph, hph, hfr⟩ := hi.memo.framing
  have hw : wp ((memoApp sdk).handler apdu false) (fun _ t => MemoInv first t) (fun _ _ => True)
      (entered t apdu) := by
    simp only [memoApp, handleSignTransferWithScheduleAndMemo, wp_bind, Fw.wp_when, Fw.wp_getCtx,
      Fw.wp_throw, wp_ite, Bool.false_eq_true, false_implies, true_and, not_false_eq_true,
      true_implies, implies_true, and_true]
    cases ph with
    | start =>
      have hst : t.ctx.inner.state = .memoStart := memoPhase_eq_start.mp hph
      have hst' : (entered t apdu).ctx.inner.state = .memoStart := hst
      simp only [hst', and_true, reduceCtorEq, and_false, false_implies, true_implies,
        not_false_eq_true, true_and, implies_true]
      intro hp
      have hnp : t.ctx.inner.state ≠ .transferPairs := by rw [hst]; decide
      refine Memo.wp_start hfr hi.memo.length_le hp (hc hph hp)
        (fun _ hh => finishMemo_inv hi hr hne hnp rfl hh) (fun _ hh => ?_)
      obtain ⟨hrem, hflows, hcur⟩ := hi.before hr hne hnp
      refine ⟨hi.memo.replied rfl hh, fun _ _ _ => ⟨hrem, ?_, hcur⟩, fun h => by cases h⟩
      simp [hflows]
    | more =>
      have hst : t.ctx.inner.state = .memo := memoPhase_eq_more.mp hph
      have hst' : (entered t apdu).ctx.inner.state = .memo := hst
      simp only [hst', and_true, reduceCtorEq, and_false, false_implies, true_implies,
        not_false_eq_true, true_and, implies_true]
      intro hp
      have hnp : t.ctx.inner.state ≠ .transferPairs := by rw [hst]; decide
      exact Memo.wp_more hfr hp fun _ hh => finishMemo_inv hi hr hne hnp rfl hh
    | done =>
      have hst : t.ctx.inner.state = .transferPairs := memoPhase_eq_done.mp hph
      have hst' : (entered t apdu).ctx.inner.state = .transferPairs := hst
      simp only [hst', and_true, reduceCtorEq, and_false, false_implies, true_implies,
        not_false_eq_true, true_and]
      intro hp
      exact pairs_command_inv hi hst hr hins ho (by rw [hp]; decide)
  exact ok_of_wp hw h

theorem memo_press_inv {i : Nat} (hi : MemoInv first t)
    (hc : Memo.Condition (memoDeclared first) memoPhase t (.press i))
    (hr : t.shared.running = true) (hne : t.shared.currentInstruction ≠ none) :
    MemoInv first (finish (scheduleCallback sdk (t.shared.pressed i) t)) := by
  by_cases hst : t.ctx.inner.state = .transferPairs
  · obtain ⟨left, hinv⟩ := hi.pairs hst
    refine hi.grows hst ?_ ⟨left, press_inv hinv hr hne⟩
    rcases hi.memo.pressed (fun _ h => .inl h) hc with hs | hs
    · exact .passed (sharedCallback_passed t sdk hs)
    · rw [hs]
      exact finish_of_wp (wp_mono (processNext_grows t) (fun _ _ h => h) fun e t' h => h.trans (.passed (.caught t' e)))
  · obtain ⟨hrem, hflows, hins⟩ := hi.before hr hne hst
    have hs : (t.shared.pressed i).isShared = true := by
      rcases hc with hs | hf
      · exact hs
      · exact absurd hflows hf
    have hp : Passed t (finish (scheduleCallback sdk (t.shared.pressed i) t)) :=
      sharedCallback_passed t sdk hs
    refine ⟨hi.memo.passed (fun _ h => .inl h) hp, fun hr' hne' _ => ?_, fun h => ?_⟩
    · obtain ⟨-, hcur, -, hf⟩ := hp.goes_on hr' hne'
      rw [hp.ctx, hcur, hf]
      exact ⟨hrem, hflows, hins⟩
    · rw [hp.ctx] at h
      exact absurd h hst

theorem memo_session_inv {ev : Event} (hi : MemoInv first t)
    (hc : Memo.Condition (memoDeclared first) memoPhase t ev)
    (h : SessionStep (memoApp sdk) t ev t') : MemoInv first t' := by
  cases ev with
  | command apdu => exact memo_command_inv hi hc h
  | press i =>
    obtain ⟨hne, hr, rfl⟩ := h
    exact memo_press_inv hi hc hr hne
  | noApdu => exact h.elim

end SignTransferWithSchedule
end ConcordiumLedger
