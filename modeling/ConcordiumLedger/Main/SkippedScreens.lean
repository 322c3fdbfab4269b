import ConcordiumLedger.Common.Sessions
import ConcordiumLedger.Main.Frames

/-!
# Main.SkippedScreens

Screens that ask the host to continue, in runs of any commands and presses. The loop takes the next
command while such a screen is up, so a host that does not wait for the reply can replace it before
it is confirmed.

* `Review`   — what a run has left to confirm, and whether a command came before it was.
* `InTurn`   — the host waits for the reply that a screen owes it.
* `Reviewed` — a signature is only given when no screen of its session was skipped.
-/

namespace ConcordiumLedger

open CMem CProg CProg.Prog Transition

variable {μ : Type}

/-! ## The record of a run -/

/-- Callbacks that ask for the next command, or show what is left of this one before they do. -/
def Callback.goesOn : Callback → Bool
  | .sendSuccessNoIdle | .processNextVerificationKey | .processNextScheduledAmount
  | .handleData => true
  | _ => false

/-- The last step asks the host to continue. -/
def asksToContinue (flow : List Step) : Bool := flow.getLast?.any fun st => st.callback.goesOn

/-- What is left of the current session, or of the last one. -/
structure Review where
  /-- A flow that asks to continue has come up, and no step of it was pressed that does. -/
  pending : Bool
  /-- A command of the session came before that and changed the display or the hash. -/
  skipped : Bool
deriving DecidableEq

/-- The record after the command or the press itself, before the flows that it puts up. -/
def Review.meet (r : Review) (d d' : Device μ) : Event → Review
  | .command c =>
    match handed d c with
    | none => r
    | some (true, _) => ⟨false, false⟩
    | some (false, _) =>
      { r with skipped := r.skipped ||
          (r.pending && (newActions d.shared d'.shared).any fun a => a.touches || a.shows) }
  | .press i => if (d.shared.pressed i).goesOn then { r with pending := false } else r
  | .noApdu => r

def review (d : Device μ) (ev : Event) (d' : Device μ) (r : Review) : Review :=
  if (newActions d.shared d'.shared).any Action.shows then
    { r.meet d d' ev with pending := asksToContinue d'.shared.display }
  else r.meet d d' ev

/-- A signature is only given when no screen of its session was skipped. -/
def Reviewed (s : Device μ × Review) (_ : Event) (s' : Device μ × Review) : Prop :=
  (newActions s.1.shared s'.1.shared).any Action.isSigned = true → s.2.skipped = false

/-- The host waits for the reply that a screen owes it; the next release of a packet is only shown
while a reply is owed. -/
def InTurn (u : InstructionContext μ) (d : Device μ) : Event → Prop
  | .command c => (∃ t, handed d c = some (false, t)) → asksToContinue d.shared.display = true →
      d.shared.replyOwed = false
  | .press i => d.shared.pressed i = .processNextScheduledAmount → d.shared.replyOwed = true ∨
      (u.signTransferWithScheduleContext.get d.ctx).inner.scheduledAmountsInCurrentPacket = 0
  | .noApdu => True

instance (u : InstructionContext μ) (d : Device μ) (ev : Event) : Decidable (InTurn u d ev) :=
  match ev with
  | .command c =>
    decidable_of_iff ((handed d c).map Prod.fst = some false →
      asksToContinue d.shared.display = true → d.shared.replyOwed = false) <| by
        refine imp_congr ?_ Iff.rfl
        rw [Option.map_eq_some_iff]
        constructor
        · rintro ⟨⟨b, t⟩, ht, rfl⟩
          exact ⟨t, ht⟩
        · rintro ⟨t, ht⟩
          exact ⟨_, ht, rfl⟩
  | .press _ => inferInstanceAs (Decidable (_ → _ ∨ _))
  | .noApdu => .isTrue trivial

instance (s : Device μ × Review) (ev : Event) (s' : Device μ × Review) :
    Decidable (Reviewed s ev s') :=
  inferInstanceAs (Decidable (_ → _))

/-! ## Screens that ask -/

/-- A screen that asks to continue in a session leaves the reply owed as it was. -/
def Asks (s s' : Shared) : Prop :=
  ∃ as, s'.log = s.log ++ as ∧ (as.any Action.shows = true → s'.currentInstruction ≠ none →
    asksToContinue s'.display = true → s'.replyOwed = s.replyOwed)

theorem not_asksToContinue_of_none {flow : List Step} (h : Only [.none] flow) :
    asksToContinue flow = false := by
  unfold asksToContinue
  cases hl : flow.getLast? with
  | none => rfl
  | some st =>
    have hcb := h st (List.mem_of_getLast? hl)
    simp only [List.mem_singleton] at hcb
    simp [hcb, Callback.goesOn]

theorem Shown.asks {K : ScreenKind → Prop} {s s' : Shared} (h : Shown K s s') : Asks s s' := by
  cases h with
  | touched h =>
    obtain ⟨as, hl, ht⟩ := h.log
    refine ⟨as, hl, fun hs => ?_⟩
    rw [not_shows_of_touches ht] at hs
    cases hs
  | @screen m h k flow hk honly =>
    obtain ⟨as, hl, -⟩ := h.log
    exact ⟨as ++ [.uxFlowInit flow], by simp [hl], fun _ _ _ => h.replyOwed⟩
  | replied h data =>
    obtain ⟨as, hl, ht⟩ := h.log
    refine ⟨as ++ [.reply data success], by simp [hl], fun hs => ?_⟩
    rw [List.any_append, not_shows_of_touches ht] at hs
    cases hs
  | @finished m h data k flow hk honly =>
    obtain ⟨as, hl, -⟩ := h.log
    exact ⟨as ++ [.reply data success, .setInstruction none, .uxFlowInit flow], by simp [hl],
      fun _ hne => absurd rfl hne⟩
  | @loading m h data flow honly =>
    obtain ⟨as, hl, -⟩ := h.log
    refine ⟨as ++ [.uxFlowInit flow, .reply data success], by simp [hl], fun _ _ hasks => ?_⟩
    have hflow : asksToContinue flow = true := hasks
    rw [not_asksToContinue_of_none honly] at hflow
    cases hflow

theorem Ended.asks {K : ScreenKind → Prop} {s s' : Shared} (h : Ended K s s') : Asks s s' := by
  obtain ⟨m, hm, rfl | rfl⟩ := h
  · exact hm.asks
  · exact hm.asks

/-! ## Runs -/

/-- A screen that is left to confirm is up and still owes its reply. -/
structure Confirmed (d : Device μ) (r : Review) : Prop where
  skipped : r.skipped = false
  pending : d.shared.running = true → d.shared.currentInstruction ≠ none → r.pending = true →
    asksToContinue d.shared.display = true ∧ d.shared.replyOwed = true

section Runs

variable {sdk : Sdk} {u : InstructionContext μ} {d d' : Device μ} {r : Review} {ev : Event}

theorem review_skipped : (review d ev d' r).skipped = (r.meet d d' ev).skipped := by
  unfold review
  split <;> rfl

/-- After the end of the session nothing is left to confirm. -/
theorem Confirmed.of_ended (hs : (r.meet d d' ev).skipped = false)
    (hend : d'.shared.running = true → d'.shared.currentInstruction = none) :
    Confirmed d' (review d ev d' r) where
  skipped := review_skipped.trans hs
  pending hr hne := absurd (hend hr) hne

/-- A step that may put up a screen, when nothing else is left to confirm. -/
theorem Confirmed.of_asks (hs : (r.meet d d' ev).skipped = false)
    (hp : (r.meet d d' ev).pending = false)
    (hasks : (newActions d.shared d'.shared).any Action.shows = true →
      d'.shared.currentInstruction ≠ none → asksToContinue d'.shared.display = true →
        d'.shared.replyOwed = true) : Confirmed d' (review d ev d' r) where
  skipped := review_skipped.trans hs
  pending hr hne hpend := by
    unfold review at hpend
    split at hpend
    · rename_i hshows
      exact ⟨hpend, hasks hshows hne hpend⟩
    · rw [hp] at hpend
      cases hpend

theorem Confirmed.command (h : Confirmed d r) {c : Apdu}
    (hs : step (mainApp sdk u) d (.command c) = some d') (hc : InTurn u d (.command c)) :
    Confirmed d' (review d (.command c) d' r) := by
  cases hhand : handed d c with
  | none =>
    obtain ⟨-, e, he, hshared⟩ := step_refused hhand hs
    have hmeet : r.meet d d' (.command c) = r := by rw [Review.meet, hhand]
    refine .of_ended (by rw [hmeet]; exact h.skipped) fun hr => ?_
    rw [hshared] at hr ⊢
    exact catchOther_ended e _ hr
  | some p =>
    obtain ⟨b, t⟩ := p
    have ht := handing hhand
    have hrunning := (step_command hs).1
    have hmeet : (r.meet d d' (.command c)).skipped = false ∧
        (r.meet d d' (.command c)).pending = false := by
      cases b with
      | true => simp [Review.meet, hhand]
      | false =>
        have hcur : d.shared.currentInstruction ≠ none := fun hn => by
          have hb := ht.initial.mpr hn
          cases hb
        have hpending : r.pending = false := by
          by_contra hp
          obtain ⟨hasks, howed⟩ := h.pending hrunning hcur (by simpa using hp)
          rw [hc ⟨t, hhand⟩ hasks] at howed
          cases howed
        simp [Review.meet, hhand, hpending, h.skipped]
    rw [step_handed hhand hs] at hmeet ⊢
    have hw := (mainApp_screened sdk u).handler c b t
    cases hx : (mainApp sdk u).handler c b t with
    | ok a t' =>
      rw [hx] at hmeet
      obtain ⟨as, hl, hasks⟩ := (of_wp_ok hw hx).asks
      refine .of_asks hmeet.1 hmeet.2 fun hshows hne hask => ?_
      have hnew : newActions d.shared t'.shared =
          (if b = true then [.setInstruction (some c.ins)] else []) ++
            [.handler c.ins c.p1 c.p2 c.data] ++ as :=
        newActions_of_log (by rw [hl, ht.log]; simp)
      have has : as.any Action.shows = true := by
        have hshows' : (newActions d.shared t'.shared).any Action.shows = true := hshows
        rw [hnew] at hshows'
        cases b <;> simpa [Action.shows] using hshows'
      exact (hasks has hne hask).trans ht.replyOwed
    | thrown e t' =>
      rw [hx] at hmeet
      exact .of_ended hmeet.1 fun hr => catchOther_ended e t'.shared hr

theorem meet_press_skipped (i : Nat) : (r.meet d d' (.press i)).skipped = r.skipped := by
  rw [Review.meet]
  split <;> rfl

theorem meet_press_pending {i : Nat} (hg : (d.shared.pressed i).goesOn = true) :
    (r.meet d d' (.press i)).pending = false := by
  rw [Review.meet, if_pos hg]

/-- A press that does nothing. -/
theorem Confirmed.unchanged (h : Confirmed d r) {i : Nat}
    (hg : (d.shared.pressed i).goesOn = false) : Confirmed d (review d (.press i) d r) := by
  have hnew : newActions d.shared d.shared = [] := newActions_of_log (by simp)
  have hreview : review d (.press i) d r = r := by
    rw [review, hnew, if_neg (by simp), Review.meet, if_neg (by simp [hg])]
  rw [hreview]
  exact h

/-- A press that sends the reply for more and does nothing else. -/
theorem Confirmed.replied (h : Confirmed d r) {i : Nat} {t : Device μ}
    (hg : (d.shared.pressed i).goesOn = true) (ht : t.shared = d.shared.reply [] success) :
    Confirmed t (review d (.press i) t r) := by
  have hnew : newActions d.shared t.shared = [.reply [] success] :=
    newActions_of_log (by rw [ht]; rfl)
  refine .of_asks ((meet_press_skipped i).trans h.skipped) (meet_press_pending hg) fun hshows => ?_
  rw [hnew] at hshows
  cases hshows

theorem exportPrivateKey_ends (t : Device ExportPrivateKey.Context) :
    wp (exportPrivateKey sdk) (fun _ t' => t'.shared.currentInstruction = none) (fun _ _ => True)
      t := by
  have hany {α : Type} (x : Fw ExportPrivateKey.Context α) (t : Device ExportPrivateKey.Context) :
      wp x (fun _ _ => True) (fun _ _ => True) t :=
    wp_of_run (fun _ _ _ => trivial) fun _ _ _ => trivial
  unfold exportPrivateKey
  rw [wp_bind]
  refine wp_mono (hany _ t) (fun prf t₁ _ => ?_) fun _ _ h => h
  rw [wp_bind, Fw.wp_getCtx]
  refine (wp_ite _ _ _).mpr ⟨fun _ => ?_, fun _ => rfl⟩
  rw [wp_bind]
  exact wp_mono (hany _ t₁) (fun _ _ _ => rfl) fun _ _ h => h

theorem sendPublicKey_ends (t : Device GetPublicKey.Context) :
    wp (sendPublicKey sdk true) (fun _ t' => t'.shared.currentInstruction = none) (fun _ _ => True)
      t := by
  unfold sendPublicKey
  rw [wp_bind]
  refine wp_of_run (fun key t₁ _ => ?_) fun _ _ _ => trivial
  obtain ⟨publicKey, response⟩ := key
  dsimp only
  rw [if_pos rfl, wp_bind]
  refine wp_of_run (fun _ t₂ _ => ?_) fun _ _ _ => trivial
  rw [wp_bind, Fw.wp_getCtx, wp_bind, Fw.wp_eval]
  exact ⟨fun _ _ => rfl, fun _ _ => trivial⟩

theorem processNextVerificationKey_spec (t : Device SignCredentialDeployment.Context) :
    wp processNextVerificationKey (fun _ t' => t'.shared = t.shared.reply [] success)
      (fun _ _ => False) t := by
  unfold processNextVerificationKey
  rw [wp_bind, Fw.wp_getCtx, wp_bind]
  exact (wp_ite _ _ _).mpr ⟨fun _ => rfl, fun _ => rfl⟩

theorem handleData_spec (t : Device SignRegisterData.Blob) :
    wp handleData (fun _ t' => t'.shared = t.shared.reply [] success ∨
      t'.shared = t.shared.uxFlowInit uxSignFlowShared) (fun _ _ => False) t := by
  unfold handleData
  rw [wp_bind, Fw.wp_getCtx]
  exact (wp_ite _ _ _).mpr ⟨fun _ => .inl rfl, fun _ => .inr rfl⟩

/-- A press of a step with a callback of one instruction. -/
theorem Confirmed.own (h : Confirmed d r) {i : Nat} (hc : InTurn u d (.press i))
    (hown : (d.shared.pressed i).isShared = false) :
    Confirmed (finish (mainOwnCallback sdk u (d.shared.pressed i) d))
      (review d (.press i) (finish (mainOwnCallback sdk u (d.shared.pressed i) d)) r) := by
  have hskipped (t : Device μ) := (@meet_press_skipped _ d t r i).trans h.skipped
  have hends {x : Fw μ PUnit} (hx : wp x (fun _ t' => t'.shared.currentInstruction = none)
      (fun _ _ => True) d) : Confirmed (finish (x d)) (review d (.press i) (finish (x d)) r) :=
    .of_ended (hskipped _) (finish_of_wp
      (P := fun t => t.shared.running = true → t.shared.currentInstruction = none)
      (wp_mono hx (fun _ _ hn _ => hn) fun e t' _ hr => catchOther_ended e t'.shared hr))
  have hshared {γ : Type} {m : Member μ γ} {x : Fw γ PUnit} {P : Shared → Prop}
      (hx : wp x (fun _ t' => P t'.shared) (fun _ _ => False) (d.view m)) :
      P (finish (Fw.on m x d)).shared :=
    finish_of_wp (P := fun t => P t.shared) (wp_mono ((Fw.wp_on m x).mpr hx) (fun _ _ h => h)
      fun _ _ h => False.elim h)
  cases hcb : d.shared.pressed i with
  | sendPublicKey => exact hends ((Fw.wp_on _ _).mpr (sendPublicKey_ends _))
  | exportPrivateKey => exact hends ((Fw.wp_on _ _).mpr (exportPrivateKey_ends _))
  | processNextVerificationKey =>
    exact h.replied (by rw [hcb]; rfl) (hshared (P := (· = _)) (processNextVerificationKey_spec _))
  | handleData =>
    rcases hshared (P := fun s => s = _ ∨ s = _) (handleData_spec (d.view u.signRegisterData))
      with ht | ht
    · exact h.replied (by rw [hcb]; rfl) ht
    · refine .of_asks (hskipped _) (meet_press_pending (by rw [hcb]; rfl)) fun _ _ hasks => ?_
      have hdisplay : (finish (mainOwnCallback sdk u .handleData d)).shared.display =
          uxSignFlowShared := congrArg Shared.display ht
      rw [hdisplay] at hasks
      cases hasks
  | processNextScheduledAmount =>
    rcases hc hcb with howed | hcount
    · have hw := (mainApp_screened sdk u).own .processNextScheduledAmount rfl d
      show Confirmed (finish ((mainApp sdk u).callback .processNextScheduledAmount d))
        (review d (.press i) (finish ((mainApp sdk u).callback .processNextScheduledAmount d)) r)
      cases hx : (mainApp sdk u).callback .processNextScheduledAmount d with
      | ok a t =>
        obtain ⟨as, hl, hasks⟩ := (of_wp_ok hw hx).asks
        refine .of_asks (hskipped _) (meet_press_pending (by rw [hcb]; rfl)) fun hshows hne hask => ?_
        have hnew : newActions d.shared t.shared = as := newActions_of_log hl
        exact (hasks (hnew ▸ hshows) hne hask).trans howed
      | thrown e t => exact .of_ended (hskipped _) fun hr => catchOther_ended e t.shared hr
    · refine h.replied (by rw [hcb]; rfl) (hshared (P := (· = _)) ?_)
      unfold processNextScheduledAmount
      rw [wp_bind, Fw.wp_getCtx]
      exact (wp_ite _ _ _).mpr ⟨fun _ => rfl, fun hne => absurd hcount hne⟩
  | processKeyIndices | processThreshold | handleText | switchToLoading
  | handleDescriptionPart => exact h.unchanged (by rw [hcb]; rfl)
  | _ => rw [hcb] at hown; cases hown

theorem Confirmed.shared (h : Confirmed d r) {i : Nat}
    (hshared : (d.shared.pressed i).isShared = true) :
    Confirmed (finish ((mainApp sdk u).callback (d.shared.pressed i) d))
      (review d (.press i) (finish ((mainApp sdk u).callback (d.shared.pressed i) d)) r) := by
  have hskipped (t : Device μ) := (@meet_press_skipped _ d t r i).trans h.skipped
  cases hcb : d.shared.pressed i with
  | none => exact h.unchanged (by rw [hcb]; rfl)
  | sendSuccessNoIdle => exact h.replied (by rw [hcb]; rfl) rfl
  | sendSuccess | sendUserRejection | uiIdle => exact .of_ended (hskipped _) fun _ => rfl
  | buildAndSignTransactionHash =>
    exact .of_ended (hskipped _) fun hr => buildAndSign_ended d sdk hr
  | osSchedExit => exact .of_ended (hskipped _) fun hr => by cases hr
  | _ => rw [hcb] at hshared; cases hshared

theorem Confirmed.step (h : Confirmed d r) (hs : ConcordiumLedger.step (mainApp sdk u) d ev = some d')
    (hc : InTurn u d ev) : Confirmed d' (review d ev d' r) := by
  cases ev with
  | command c => exact h.command hs hc
  | noApdu => exact .of_ended h.skipped (step_noApdu hs)
  | press i =>
    obtain ⟨-, hd'⟩ := step_press hs
    by_cases hshared : (d.shared.pressed i).isShared = true
    · rw [hd']
      exact h.shared hshared
    · have hown : (d.shared.pressed i).isShared = false := by simpa using hshared
      have hcb : (mainApp sdk u).callback (d.shared.pressed i) =
          mainOwnCallback sdk u (d.shared.pressed i) := by
        revert hown
        show _ → sharedCallback sdk (mainOwnCallback sdk u) _ = _
        cases d.shared.pressed i with
        | none | sendSuccessNoIdle | sendSuccess | sendUserRejection | uiIdle | osSchedExit
        | buildAndSignTransactionHash => intro hown; cases hown
        | _ => intro _; rfl
      rw [hd', hcb]
      exact h.own hc hown

/-- From any state between two sessions: if the host waits for the replies that screens owe it, no
signature is given in a session with a skipped screen. -/
theorem no_screen_skipped (sdk : Sdk) (u : InstructionContext μ) (d : Device μ)
    (hidle : d.shared.currentInstruction = none) (events : List Event)
    (h : Always (ConcordiumLedger.step (mainApp sdk u)) (fun d ev _ => InTurn u d ev) d events) :
    Always (recorded (ConcordiumLedger.step (mainApp sdk u)) review) Reviewed
      (d, ⟨false, false⟩) events := by
  have hrec : Always (recorded (ConcordiumLedger.step (mainApp sdk u)) review)
      (fun s ev _ => InTurn u s.1 ev) (d, ⟨false, false⟩) events :=
    (always_recorded (P := fun d ev _ => InTurn u d ev)).mpr h
  refine (always_and.mp ((Always.congr_of_invariant (I := fun s => Confirmed s.1 s.2)
    (P := fun s ev s' => InTurn u s.1 ev ∧ Reviewed s ev s') (Q := fun s ev _ => InTurn u s.1 ev)
    (fun s ev s' hI hs => ?_) ⟨rfl, fun _ hne => absurd hidle hne⟩).mpr hrec)).2
  obtain ⟨hstep, hnote⟩ := recorded_eq_some.mp hs
  refine ⟨⟨And.left, fun hc => ⟨hc, fun _ => hI.skipped⟩⟩, fun hc => ?_⟩
  rw [hnote]
  exact hI.step hstep hc

end Runs

/-! ## Public information with two keys -/

open SignPublicInformationForIp in
/-- The commands of public information for an identity provider with two keys. -/
def infoInitial : Event := .command (sent insPublicInfoForIp p1Initial 0
  ([1, 0, 0, 0, 44] ++ List.replicate 96 0 ++ [2]))

open SignPublicInformationForIp in
def infoKey (key : UInt8) : Event := .command (sent insPublicInfoForIp p1VerificationKey 0
  ([0, 0] ++ List.replicate 32 key))

open SignPublicInformationForIp in
def infoThreshold : Event := .command (sent insPublicInfoForIp p1Threshold 0 [2])

/-- The user confirms the first key before the second one is sent. -/
theorem no_screen_skipped_two_keys :
    Always (recorded (step (mainApp zeroAddressSdk Contexts.layout)) review) Reviewed
      (bootedDevice, ⟨false, false⟩)
      [infoInitial, infoKey 1, .press 2, infoKey 2, infoThreshold, .press 2] :=
  no_screen_skipped zeroAddressSdk Contexts.layout bootedDevice rfl _ (by decide)

/-- The second key is sent while the screen of the first one is up, which nobody confirms. -/
theorem key_screen_skipped :
    ¬ Always (recorded (step (mainApp zeroAddressSdk Contexts.layout)) review) Reviewed
      (bootedDevice, ⟨false, false⟩)
      [infoInitial, infoKey 1, infoKey 2, infoThreshold, .press 2] := by
  decide

end ConcordiumLedger
