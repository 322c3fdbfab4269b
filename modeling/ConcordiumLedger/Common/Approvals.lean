import ConcordiumLedger.Common.Isolation

/-!
# Common.Approvals

How often a session signs a transaction, in runs of any commands and presses of an application whose handlers and
callbacks show at most one screen. Nothing is asked of the order of the events.

* `spare`     — what may still be signed before a session is opened.
* `Accounted` — what was signed and what may still be signed is covered by the sessions opened.
* `SignsOnce` — a session signs at most one transaction, and has ended when it has.
-/

namespace ConcordiumLedger

open CMem CProg CProg.Prog Transition

variable {μ : Type}

/-! ## Actions -/

/-- Signs no transaction and opens no session. -/
def Action.plain (a : Action) : Bool := !a.isSigned && !a.opens

def signedCount (log : List Action) : Nat := log.countP Action.isSigned

def openedCount (log : List Action) : Nat := log.countP Action.opens

theorem Action.isSigned_of_plain {a : Action} (h : a.plain = true) : a.isSigned = false := by
  simp only [Action.plain, Bool.and_eq_true, Bool.not_eq_true'] at h
  exact h.1

theorem Action.opens_of_plain {a : Action} (h : a.plain = true) : a.opens = false := by
  simp only [Action.plain, Bool.and_eq_true, Bool.not_eq_true'] at h
  exact h.2

@[simp] theorem Action.plain_uxFlowInit (flow : List Step) :
    (Action.uxFlowInit flow).plain = true := rfl

@[simp] theorem Action.plain_reply (data : List UInt8) (sw : UInt16) :
    (Action.reply data sw).plain = true := rfl

@[simp] theorem Action.plain_endSession : (Action.setInstruction none).plain = true := rfl

theorem Action.plain_of_touches {a : Action} (h : a.touches = true) : a.plain = true := by
  cases a <;> first | rfl | cases h

theorem signedCount_plain {as : List Action} (h : ∀ a ∈ as, a.plain = true) :
    signedCount as = 0 := by
  rw [signedCount, List.countP_eq_zero]
  intro a ha
  rw [Action.isSigned_of_plain (h a ha)]
  exact Bool.false_ne_true

theorem openedCount_plain {as : List Action} (h : ∀ a ∈ as, a.plain = true) :
    openedCount as = 0 := by
  rw [openedCount, List.countP_eq_zero]
  intro a ha
  rw [Action.opens_of_plain (h a ha)]
  exact Bool.false_ne_true

theorem sessionLog_append_plain {as : List Action} (h : ∀ a ∈ as, a.plain = true)
    (log : List Action) : sessionLog (log ++ as) = sessionLog log ++ as :=
  sessionLog_of_not_opens fun a ha => Action.opens_of_plain (h a ha)

/-! ## Plain steps -/

/-- Nothing is signed between the two states and no session is opened. -/
def Plain (s s' : Shared) : Prop := ∃ as, s'.log = s.log ++ as ∧ ∀ a ∈ as, a.plain = true

theorem Plain.of_log {s s' : Shared} (h : s'.log = s.log) : Plain s s' :=
  ⟨[], by simp [h], by simp⟩

theorem Plain.trans {s s' s'' : Shared} (h : Plain s s') (h' : Plain s' s'') : Plain s s'' := by
  obtain ⟨as, hl, ha⟩ := h
  obtain ⟨as', hl', ha'⟩ := h'
  refine ⟨as ++ as', by rw [hl', hl, List.append_assoc], fun a hmem => ?_⟩
  rcases List.mem_append.mp hmem with hmem | hmem
  · exact ha a hmem
  · exact ha' a hmem

theorem Plain.catchOther (e : Error) (s : Shared) : Plain s (catchOther e s) := by
  unfold ConcordiumLedger.catchOther
  split
  · dsimp only
    split
    · exact ⟨[.setInstruction none], rfl, by decide⟩
    · exact ⟨[.setInstruction none, .reply [] e.code], by simp, by simp⟩
  · exact .of_log rfl

theorem Touched.plain {s s' : Shared} (h : Touched s s') : Plain s s' := by
  obtain ⟨as, hl, ha⟩ := h.log
  exact ⟨as, hl, fun a hmem => Action.plain_of_touches (ha a hmem)⟩

theorem Shown.plain {K : ScreenKind → Prop} {s s' : Shared} (h : Shown K s s') : Plain s s' := by
  cases h with
  | touched h => exact h.plain
  | @screen m h k flow => exact h.plain.trans ⟨[.uxFlowInit flow], rfl, by simp⟩
  | replied h data => exact h.plain.trans ⟨[.reply data success], rfl, by simp⟩
  | @finished m h data k flow =>
    exact h.plain.trans ⟨[.reply data success, .setInstruction none, .uxFlowInit flow], by simp,
      by simp⟩
  | @loading m h data flow =>
    exact h.plain.trans ⟨[.uxFlowInit flow, .reply data success], by simp,
      by simp⟩

theorem Ended.plain {K : ScreenKind → Prop} {s s' : Shared} (h : Ended K s s') : Plain s s' := by
  obtain ⟨m, hm, rfl | rfl⟩ := h
  · exact hm.plain
  · exact hm.plain

/-! ## The account -/

/-- While the menu is up between two sessions, nothing can be signed. -/
def spare (s : Shared) : Nat :=
  if s.currentInstruction = none ∧ s.display = uxMenuIdleFlow then 0 else 1

theorem spare_le_one (s : Shared) : spare s ≤ 1 := by
  unfold spare
  split <;> omega

theorem spare_eq_zero {s : Shared} :
    spare s = 0 ↔ s.currentInstruction = none ∧ s.display = uxMenuIdleFlow := by
  unfold spare
  split
  · exact iff_of_true rfl ‹_›
  · exact iff_of_false Nat.one_ne_zero ‹_›

theorem spare_le {s s' : Shared} (h : spare s = 0 → spare s' = 0) : spare s' ≤ spare s := by
  have hle := spare_le_one s'
  by_cases hs : spare s = 0
  · rw [h hs]
    exact Nat.zero_le _
  · omega

theorem spare_catchOther (e : Error) (s : Shared) : spare (catchOther e s) ≤ spare s := by
  refine spare_le fun h => ?_
  obtain ⟨hi, hd⟩ := spare_eq_zero.mp h
  refine spare_eq_zero.mpr ⟨?_, by rw [catchOther_display, hd]⟩
  cases hc : (catchOther e s).currentInstruction with
  | none => rfl
  | some i =>
    have hsome := catchOther_instruction e s hc
    rw [hi] at hsome
    cases hsome

structure Accounted (s : Shared) : Prop where
  session : signedCount (sessionLog s.log) + spare s ≤ 1
  total : signedCount s.log + spare s ≤ openedCount s.log

namespace Accounted

variable {s s' : Shared}

theorem plain (h : Accounted s) (hp : Plain s s') (hs : spare s' ≤ spare s) : Accounted s' := by
  obtain ⟨as, hl, ha⟩ := hp
  have hsigned := signedCount_plain ha
  have hopened := openedCount_plain ha
  unfold signedCount at hsigned
  unfold openedCount at hopened
  have hsession := h.session
  have htotal := h.total
  constructor
  · rw [hl, sessionLog_append_plain ha, signedCount, List.countP_append, hsigned]
    unfold signedCount at hsession
    omega
  · rw [hl, signedCount, openedCount, List.countP_append, List.countP_append, hsigned, hopened]
    unfold signedCount openedCount at htotal
    omega

/-- A session is opened. -/
theorem opened (h : Accounted s) {i : UInt8} (as : List Action)
    (hl : s'.log = s.log ++ .setInstruction (some i) :: as) (ha : ∀ a ∈ as, a.plain = true) :
    Accounted s' := by
  have hsigned := signedCount_plain ha
  have hopened := openedCount_plain ha
  have hspare := spare_le_one s'
  have htotal := h.total
  have hsession : sessionLog s'.log = as := by
    rw [hl, List.append_cons, sessionLog_append_plain ha, sessionLog_append]
    rfl
  constructor
  · rw [hsession, hsigned]
    omega
  · unfold signedCount openedCount at *
    rw [hl, List.countP_append, List.countP_append,
      List.countP_cons_of_neg (by simp [Action.isSigned]),
      List.countP_cons_of_pos (by simp [Action.opens]), hsigned, hopened]
    omega

/-- What may still be signed is signed. -/
theorem signed (h : Accounted s) {path : List UInt32} {input : List UInt8} (as : List Action)
    (hl : s'.log = s.log ++ .signed path input :: as) (ha : ∀ a ∈ as, a.plain = true)
    (hs : spare s ≠ 0) (hs' : spare s' = 0) : Accounted s' := by
  have hsigned := signedCount_plain ha
  have hopened := openedCount_plain ha
  have hsession := h.session
  have htotal := h.total
  have hlog : sessionLog s'.log = sessionLog s.log ++ .signed path input :: as := by
    rw [hl, List.append_cons, sessionLog_append_plain ha, sessionLog_append]
    simp [sessionStep]
  unfold signedCount openedCount at *
  constructor
  · unfold signedCount
    rw [hlog, List.countP_append, List.countP_cons_of_pos (by simp [Action.isSigned]), hsigned]
    omega
  · unfold signedCount openedCount
    rw [hl, List.countP_append, List.countP_append,
      List.countP_cons_of_pos (by simp [Action.isSigned]),
      List.countP_cons_of_neg (by simp [Action.opens]), hsigned, hopened]
    omega

end Accounted

/-- A session signs at most one transaction, it has ended when it has, and no transaction is signed
without a session. -/
structure SignsOnce (s : Shared) : Prop where
  once : signedCount (sessionLog s.log) ≤ 1
  ended : signedCount (sessionLog s.log) = 1 →
    s.currentInstruction = none ∧ s.display = uxMenuIdleFlow
  covered : signedCount s.log ≤ openedCount s.log

theorem Accounted.signsOnce {s : Shared} (h : Accounted s) : SignsOnce s where
  once := le_trans (Nat.le_add_right _ _) h.session
  ended hs := by
    have hsession := h.session
    exact spare_eq_zero.mp (by omega)
  covered := le_trans (Nat.le_add_right _ _) h.total

/-! ## Runs -/

section Runs

variable {sdk : Sdk} {app : App μ} {own : Callback → Fw μ PUnit} {ins : UInt8}
  {L : ScreenKind → Prop} {d d' : Device μ} {ev : Event}

theorem Accounted.of_booted (h : Booted d) : Accounted d.shared := by
  have hspare : spare d.shared = 0 := spare_eq_zero.mpr ⟨h.instruction, h.display⟩
  constructor <;> rw [hspare, h.log] <;> decide

/-- The menu has no step but the ones that do nothing or quit. -/
theorem spare_of_pressed {i : Nat} (hn : d.shared.pressed i ≠ .none)
    (hq : d.shared.pressed i ≠ .osSchedExit) : spare d.shared ≠ 0 := by
  intro h
  have hmenu := (spare_eq_zero.mp h).2
  have hm := pressed_mem (hmenu ▸ uxMenuIdleFlow_only) (by decide) i
  simp only [List.mem_cons, List.not_mem_nil, or_false] at hm
  rcases hm with hm | hm
  · exact hn hm
  · exact hq hm

theorem Accounted.command (h : Accounted d.shared) (ha : Screened app ins L) {c : Apdu}
    (hs : step app d (.command c) = some d') : Accounted d'.shared := by
  cases hhand : handed d c with
  | none =>
    obtain ⟨-, e, -, hshared⟩ := step_refused hhand hs
    have hle := spare_catchOther e (receivedCommand d).shared
    rw [hshared]
    exact h.plain (.trans (.of_log rfl) (.catchOther e _)) hle
  | some p =>
    obtain ⟨b, t⟩ := p
    have ht := handing hhand
    have hplain : Plain t.shared (finish (app.handler c b t)).shared := by
      refine finish_of_wp (P := fun t' => Plain t.shared t'.shared) ?_
      refine wp_mono (ha.handler c b t) (fun _ t' ht' => ht'.plain) fun e t' ht' => ?_
      exact ht'.plain.trans (.catchOther e _)
    rw [step_handed hhand hs]
    obtain ⟨as, hl, has⟩ := hplain
    cases b with
    | true =>
      refine h.opened (i := c.ins) (.handler c.ins c.p1 c.p2 c.data :: as) ?_ ?_
      · rw [hl, ht.log]
        simp
      · intro a hmem
        rcases List.mem_cons.mp hmem with rfl | hmem
        · rfl
        · exact has a hmem
    | false =>
      -- the session that goes on may still sign
      have hcur : d.shared.currentInstruction ≠ none := fun hn => by simpa using ht.initial.mpr hn
      refine h.plain ⟨.handler c.ins c.p1 c.p2 c.data :: as, ?_, ?_⟩ (spare_le fun hz => ?_)
      · rw [hl, ht.log]
        simp
      · intro a hmem
        rcases List.mem_cons.mp hmem with rfl | hmem
        · rfl
        · exact has a hmem
      · exact absurd (spare_eq_zero.mp hz).1 hcur

/-- The Sign step. -/
theorem Accounted.sign (h : Accounted d.shared) (hs : spare d.shared ≠ 0) :
    Accounted (finish (buildAndSignTransactionHash sdk d)).shared := by
  refine finish_of_wp (P := fun t => Accounted t.shared) ?_
  simp only [buildAndSignTransactionHash, sendSuccess, wp_bind, Fw.wp_getShared,
    Fw.wp_ensureNoError, Fw.wp_modifyShared, wp_uiIdle]
  refine ⟨fun sig _ => ?_, fun _ => h.plain (.catchOther _ _) (spare_catchOther _ _)⟩
  refine h.signed [.reply sig success, .setInstruction none, .uxFlowInit uxMenuIdleFlow]
    (show _ = d.shared.log ++ .signed d.shared.path.nodes d.shared.hash :: _ by simp) ?_ hs
    (spare_eq_zero.mpr ⟨rfl, rfl⟩)
  simp

theorem Accounted.sharedPress (h : Accounted d.shared) {i : Nat}
    (hi : (d.shared.pressed i).isShared = true) :
    Accounted (finish (sharedCallback sdk own (d.shared.pressed i) d)).shared := by
  -- Back to the menu, after a reply or without one.
  have hmenu {s : Shared} (as : List Action) (hlog : s.log = d.shared.log ++ as)
      (has : ∀ a ∈ as, a.plain = true) :
      Accounted ((s.setInstruction none).uxFlowInit uxMenuIdleFlow) := by
    refine h.plain ⟨as ++ [.setInstruction none, .uxFlowInit uxMenuIdleFlow], ?_, ?_⟩
      (spare_le fun _ => spare_eq_zero.mpr ⟨rfl, rfl⟩)
    · simp [hlog]
    · intro a hmem
      rcases List.mem_append.mp hmem with hmem | hmem
      · exact has a hmem
      · simp only [List.mem_cons, List.not_mem_nil, or_false] at hmem
        rcases hmem with rfl | rfl <;> rfl
  cases hcb : d.shared.pressed i with
  | none => exact h
  | sendSuccessNoIdle =>
    exact h.plain ⟨[.reply [] success], rfl, by simp⟩
      (le_refl _)
  | sendSuccess => exact hmenu [.reply [] success] rfl (by simp)
  | sendUserRejection =>
    exact hmenu [.reply [] Error.rejectedByUser.code] rfl
      (by simp)
  | uiIdle => exact hmenu [] (List.append_nil _).symm (by simp)
  | osSchedExit => exact h.plain (.of_log rfl) (le_refl _)
  | buildAndSignTransactionHash =>
    refine h.sign (spare_of_pressed (i := i) ?_ ?_) <;> rw [hcb] <;> exact fun hc => by cases hc
  | _ => rw [hcb] at hi; cases hi

theorem Accounted.ownPress (h : Accounted d.shared) (ha : Screened app ins L) {i : Nat}
    (hi : (d.shared.pressed i).isShared = false) :
    Accounted (finish (app.callback (d.shared.pressed i) d)).shared := by
  have hspare : spare d.shared ≠ 0 := by
    refine spare_of_pressed (i := i) (fun hc => ?_) fun hc => ?_ <;> rw [hc] at hi <;> cases hi
  have hplain : Plain d.shared (finish (app.callback (d.shared.pressed i) d)).shared := by
    refine finish_of_wp (P := fun t' => Plain d.shared t'.shared) ?_
    refine wp_mono (ha.own _ hi d) (fun _ t' ht' => ht'.plain) fun e t' ht' => ?_
    exact ht'.plain.trans (.catchOther e _)
  exact h.plain hplain (spare_le fun hz => absurd hz hspare)

theorem Accounted.step (h : Accounted d.shared) (hcb : app.callback = sharedCallback sdk own)
    (ha : Screened app ins L) (hs : ConcordiumLedger.step app d ev = some d') :
    Accounted d'.shared := by
  cases ev with
  | command c => exact h.command ha hs
  | noApdu =>
    unfold ConcordiumLedger.step at hs
    split at hs
    · cases hs
      have hle := spare_catchOther .noApduReceived (received d).shared
      exact h.plain (.trans (.of_log rfl) (.catchOther _ _)) hle
    · cases hs
  | press i =>
    obtain ⟨-, rfl⟩ := step_press hs
    by_cases hi : (d.shared.pressed i).isShared = true
    · rw [hcb]
      exact h.sharedPress hi
    · exact h.ownPress ha (by simpa using hi)

/-- After each step of a run from the menu. -/
theorem signs_once (hcb : app.callback = sharedCallback sdk own) (ha : Screened app ins L)
    (hb : Booted d) (events : List Event) :
    Always (ConcordiumLedger.step app) (fun _ _ d' => SignsOnce d'.shared) d events := by
  refine Always.of_invariant (I := fun d => Accounted d.shared) (fun d ev d' h hs => ?_)
    (.of_booted hb)
  have haccounted := h.step hcb ha hs
  exact ⟨haccounted.signsOnce, haccounted⟩

end Runs

end ConcordiumLedger
