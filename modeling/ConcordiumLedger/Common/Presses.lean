import ConcordiumLedger.Common.Rules

/-!
# Common.Presses

What a press of a shared step does: it replies, signs, goes back to the menu or quits. It reads the
hash and the path but changes neither of them, nor the context.

* `Action.quiet` — the actions of these callbacks.
* `Passed`       — the effect of such a press, errors included.
-/

namespace ConcordiumLedger

open CMem CProg CProg.Prog

/-- Actions of the shared callbacks. -/
def Action.quiet : Action → Bool
  | .setInstruction ins => ins.isNone
  | .uxFlowInit flow => flow = uxMenuIdleFlow
  | .reply _ _ => true
  | .signed _ _ => true
  | _ => false

theorem sessionLog_append_quiet {log as : List Action} (h : ∀ a ∈ as, a.quiet = true) :
    sessionLog (log ++ as) = sessionLog log ++ as := by
  induction as generalizing log with
  | nil => simp
  | cons a as ih =>
    have ha : sessionLog (log ++ [a]) = sessionLog log ++ [a] := by
      have hq := h a List.mem_cons_self
      cases a with
      | setInstruction ins =>
        cases ins with
        | none => simp [sessionStep]
        | some ins => cases hq
      | _ => simp [sessionStep]
    rw [List.append_cons, ih fun b hb => h b (List.mem_cons_of_mem _ hb), ha, ← List.append_cons]

theorem uxMenuIdleFlow_shared : ∀ st ∈ uxMenuIdleFlow, st.callback.isShared = true := by
  simp [uxMenuIdleFlow, Callback.isShared]

/-- A press of a shared step: either the session goes on under the same screen, or it has ended. -/
structure Passed {γ : Type} (t t' : Device γ) : Prop where
  ctx : t'.ctx = t.ctx
  hash : t'.shared.hash = t.shared.hash
  path : t'.shared.path = t.shared.path
  log : ∃ as, t'.shared.log = t.shared.log ++ as ∧ ∀ a ∈ as, a.quiet = true
  display : screens t'.shared = screens t.shared ∧ t'.shared.display = t.shared.display ∨
    t'.shared.display = uxMenuIdleFlow
  goes_on : t'.shared.running = true → t'.shared.currentInstruction ≠ none →
    t'.shared.display = t.shared.display ∧
      t'.shared.currentInstruction = t.shared.currentInstruction ∧ t.shared.running = true ∧
      screens t'.shared = screens t.shared
  instruction : ∀ i, t'.shared.currentInstruction = some i → t.shared.currentInstruction = some i

namespace Passed

variable {γ : Type} {t t' : Device γ}

theorem refl (t : Device γ) : Passed t t where
  ctx := rfl
  hash := rfl
  path := rfl
  log := ⟨[], by simp, by simp⟩
  display := .inl ⟨rfl, rfl⟩
  goes_on := fun hr _ => ⟨rfl, rfl, hr, rfl⟩
  instruction := fun _ h => h

/-- A reply that leaves the screen up. -/
theorem reply (t : Device γ) (data : List UInt8) (sw : UInt16) :
    Passed t ⟨t.ctx, t.shared.reply data sw⟩ where
  ctx := rfl
  hash := rfl
  path := rfl
  log := ⟨[.reply data sw], rfl, by simp [Action.quiet]⟩
  display := .inl ⟨screens_reply _ _ _, rfl⟩
  goes_on := fun hr _ => ⟨rfl, rfl, hr, screens_reply _ _ _⟩
  instruction := fun _ h => h

theorem quit (t : Device γ) : Passed t ⟨t.ctx, { t.shared with running := false }⟩ where
  ctx := rfl
  hash := rfl
  path := rfl
  log := ⟨[], by simp, by simp⟩
  display := .inl ⟨rfl, rfl⟩
  goes_on := by intro hr; cases hr
  instruction := fun _ h => h

/-- The menu, after the given actions. -/
theorem idle {s : Shared} (as : List Action) (hh : s.hash = t.shared.hash)
    (hp : s.path = t.shared.path) (hl : s.log = t.shared.log ++ as)
    (hq : ∀ a ∈ as, a.quiet = true) :
    Passed t ⟨t.ctx, (s.setInstruction none).uxFlowInit uxMenuIdleFlow⟩ where
  ctx := rfl
  hash := hh
  path := hp
  log := by
    refine ⟨as ++ [.setInstruction none, .uxFlowInit uxMenuIdleFlow], by simp [hl], ?_⟩
    intro a ha
    rcases List.mem_append.mp ha with h | h
    · exact hq a h
    · simp only [List.mem_cons, List.not_mem_nil, or_false] at h
      rcases h with rfl | rfl
      · rfl
      · simp [Action.quiet]
  display := .inr rfl
  goes_on := fun _ hne => absurd rfl hne
  instruction := by intro i h; cases h

theorem caught (t : Device γ) (e : Error) : Passed t ⟨t.ctx, catchOther e t.shared⟩ where
  ctx := rfl
  hash := catchOther_hash e _
  path := catchOther_path e _
  log := by
    unfold catchOther; split
    · simp only
      split
      · exact ⟨[.setInstruction none], rfl, by simp [Action.quiet]⟩
      · exact ⟨[.setInstruction none, .reply [] e.code], by simp, by simp [Action.quiet]⟩
    · exact ⟨[], by simp, by simp⟩
  display := .inl ⟨catchOther_screens e _, catchOther_display e _⟩
  goes_on := fun hr hne => absurd (catchOther_ended e _ hr) hne
  instruction := fun _ h => catchOther_instruction e _ h

theorem sign (t : Device γ) (sdk : Sdk) :
    Passed t (finish (buildAndSignTransactionHash sdk t)) := by
  apply finish_of_wp
  simp only [buildAndSignTransactionHash, sendSuccess, wp_bind, Fw.wp_getShared,
    Fw.wp_ensureNoError, Fw.wp_modifyShared, wp_uiIdle]
  refine ⟨fun sig _ => ?_, fun _ => caught t _⟩
  exact idle [.signed t.shared.path.nodes t.shared.hash, .reply sig success]
    rfl rfl (by simp) (by simp [Action.quiet])

/-- The callbacks of the session's own screens stay among the ones of `own`. -/
theorem own_screen {own : Callback → Prop} (h : Passed t t')
    (hshared : ∀ cb, cb.isShared = true → own cb)
    (hs : screens t.shared ≠ [] → ∀ st ∈ t.shared.display, own st.callback) :
    screens t'.shared ≠ [] → ∀ st ∈ t'.shared.display, own st.callback := by
  rcases h.display with ⟨hf, hd⟩ | hd
  · rw [hf, hd]; exact hs
  · rw [hd]
    exact fun _ st hst => hshared _ (uxMenuIdleFlow_shared st hst)

/-- The only screen that such a press puts up is the menu. -/
theorem mem_screens (h : Passed t t') {flow : List Step} (hf : flow ∈ screens t'.shared) :
    flow ∈ screens t.shared ∨ flow = uxMenuIdleFlow := by
  obtain ⟨as, hl, hq⟩ := h.log
  rw [screens, hl, sessionLog_append_quiet hq, flows_append, List.mem_append] at hf
  refine hf.imp (fun h => h) fun hf => ?_
  obtain ⟨a, ha, hfa⟩ := List.mem_filterMap.mp hf
  have hqa := hq a ha
  cases a with
  | uxFlowInit flow' => cases hfa; simpa [Action.quiet] using hqa
  | _ => cases hfa

/-- A Sign step that is still on the display was there before. -/
theorem of_offersSign (h : Passed t t') (hs : offersSign t'.shared.display = true) :
    t'.shared.display = t.shared.display ∧ screens t'.shared = screens t.shared := by
  rcases h.display with ⟨hf, hd⟩ | hd
  · exact ⟨hd, hf⟩
  · rw [hd, uxMenuIdleFlow_only.not_offersSign (by decide)] at hs
    cases hs

end Passed

/-! ## Screens of the session -/

/-- A Sign step of the current session is on the display. -/
def Offered (s : Shared) : Prop := offersSign s.display = true ∧ screens s ≠ []

/-- A screen that is left from an earlier session is only used for its shared steps. -/
def OwnScreens {μ : Type} (d : Device μ) : Event → Prop
  | .press i => (d.shared.pressed i).isShared = true ∨ screens d.shared ≠ []
  | _ => True

instance {μ : Type} (d : Device μ) (ev : Event) : Decidable (OwnScreens d ev) :=
  match ev with
  | .press _ => inferInstanceAs (Decidable (_ ∨ _))
  | .command _ => inferInstanceAs (Decidable True)
  | .noApdu => inferInstanceAs (Decidable True)

/-- A press that meets the condition calls a callback of `own`. -/
theorem OwnScreens.own {γ : Type} {t : Device γ} {own : Callback → Prop} {i : Nat}
    (hc : OwnScreens t (.press i)) (hshared : ∀ cb, cb.isShared = true → own cb)
    (hs : screens t.shared ≠ [] → ∀ st ∈ t.shared.display, own st.callback) :
    own (t.shared.pressed i) := by
  rcases hc with hc | hc
  · exact hshared _ hc
  · unfold Shared.pressed
    cases hi : t.shared.display[i]? with
    | none => exact hshared _ rfl
    | some st => exact hs hc st (List.mem_of_getElem? hi)

/-- The Sign screen of a session, whose command has not been answered. -/
structure Signing {γ : Type} (t : Device γ) : Prop where
  owed : t.shared.replyOwed = true
  only : Only [.none, .buildAndSignTransactionHash, .sendUserRejection] t.shared.display

theorem sharedCallback_passed {γ : Type} (t : Device γ) (sdk : Sdk) {own : Callback → Fw γ PUnit}
    {cb : Callback} (h : cb.isShared) : Passed t (finish (sharedCallback sdk own cb t)) := by
  cases cb with
  | none => exact .refl t
  | sendSuccessNoIdle => exact .reply t [] success
  | sendSuccess => exact .idle [.reply [] success] rfl rfl rfl (by simp [Action.quiet])
  | sendUserRejection =>
    exact .idle [.reply [] Error.rejectedByUser.code] rfl rfl rfl (by simp [Action.quiet])
  | buildAndSignTransactionHash => exact .sign t sdk
  | uiIdle => exact .idle [] rfl rfl (by simp) (by simp)
  | osSchedExit => exact .quit t
  | _ => cases h

theorem buildAndSign_ended {γ : Type} (t : Device γ) (sdk : Sdk)
    (hr : (finish (buildAndSignTransactionHash sdk t)).shared.running = true) :
    (finish (buildAndSignTransactionHash sdk t)).shared.currentInstruction = none := by
  revert hr
  apply finish_of_wp (P := fun t' => t'.shared.running = true → t'.shared.currentInstruction = none)
  simp only [buildAndSignTransactionHash, sendSuccess, wp_bind, Fw.wp_getShared,
    Fw.wp_ensureNoError, Fw.wp_modifyShared, wp_uiIdle]
  exact ⟨fun _ _ _ => rfl, fun _ hr => catchOther_ended _ _ hr⟩

/-- A press on the Sign screen does nothing or ends the session. -/
theorem Signing.press {γ : Type} {t : Device γ} (h : Signing t) (sdk : Sdk)
    (own : Callback → Fw γ PUnit) (i : Nat) :
    finish (sharedCallback sdk own (t.shared.pressed i) t) = t ∨
      ((finish (sharedCallback sdk own (t.shared.pressed i) t)).shared.running = true →
        (finish (sharedCallback sdk own (t.shared.pressed i) t)).shared.currentInstruction
          = none) := by
  have hm := pressed_mem h.only (by decide) i
  simp only [List.mem_cons, List.not_mem_nil, or_false] at hm
  rcases hm with hm | hm | hm <;> rw [hm]
  · exact .inl rfl
  · exact .inr (buildAndSign_ended t sdk)
  · exact .inr fun _ => rfl

end ConcordiumLedger
