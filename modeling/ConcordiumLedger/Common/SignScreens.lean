import ConcordiumLedger.Common.Screens
import ConcordiumLedger.Common.Sessions

/-!
# Common.SignScreens

Transaction signatures and the screens they are given on, in runs of any commands and presses of an
application whose handlers and callbacks show at most one screen.

* `hashed`, `sinceScreen` — what the log says about the hash and about the time since a flow came up.
* `Bound`     — a signature is given on the flow that came up last, of what was hashed before it.
* `Unhandled` — no handler was called since that flow came up.
* `sign_screens_bind` — the first follows from the second, at each press of a run.
* `Unhurried` — no handler runs while a Sign step is on the display.
-/

namespace ConcordiumLedger

open CMem CProg CProg.Prog Transition

variable {μ : Type}

/-! ## What the log says -/

def hashedStep (input : List UInt8) : Action → List UInt8
  | .sha256Init => []
  | .updateHash bytes => input ++ bytes
  | _ => input

/-- The bytes hashed since the last `cx_sha256_init`. -/
def hashed (log : List Action) : List UInt8 := log.foldl hashedStep []

theorem hashed_append (log as : List Action) :
    hashed (log ++ as) = as.foldl hashedStep (hashed log) := by
  rw [hashed, List.foldl_append, hashed]

def sinceScreenStep (rest : List Action) (a : Action) : List Action :=
  if a.shows then [] else rest ++ [a]

/-- The actions since a flow was put up. -/
def sinceScreen (log : List Action) : List Action := log.foldl sinceScreenStep []

theorem sinceScreen_append {log as : List Action} (h : as.any Action.shows = false) :
    sinceScreen (log ++ as) = sinceScreen log ++ as := by
  induction as generalizing log with
  | nil => simp
  | cons a as ih =>
    simp only [List.any_cons, Bool.or_eq_false_iff] at h
    have ha : sinceScreen (log ++ [a]) = sinceScreen log ++ [a] := by
      rw [sinceScreen, List.foldl_append]
      simp [sinceScreenStep, h.1, sinceScreen]
    rw [List.append_cons, ih h.2, ha, ← List.append_cons]

theorem sinceScreen_uxFlowInit (log : List Action) (flow : List Step) :
    sinceScreen (log ++ [.uxFlowInit flow]) = [] := by
  rw [sinceScreen, List.foldl_append]
  rfl

theorem flows_of_not_shows {as : List Action} (h : as.any Action.shows = false) :
    flows as = [] := by
  rw [flows, List.filterMap_eq_nil_iff]
  intro a ha
  have hs := List.any_eq_false.mp h a ha
  cases a <;> simp_all [Action.shows]

theorem not_shows_of_flows {log as : List Action} (h : flows (log ++ as) = flows log) :
    as.any Action.shows = false := by
  rw [flows_append] at h
  have hflows : flows as = [] := List.append_right_eq_self.mp h
  rw [flows, List.filterMap_eq_nil_iff] at hflows
  rw [List.any_eq_false]
  intro a ha hs
  have hnone := hflows a ha
  cases a <;> simp_all [Action.shows]

/-- The hash in memory is the one that the log tells. -/
def HashLogged (s s' : Shared) : Prop := s.hash = hashed s.log → s'.hash = hashed s'.log

theorem HashLogged.of_act {s s' : Shared} (a : Action) (hlog : s'.log = s.log ++ [a])
    (hhash : s'.hash = hashedStep s.hash a) : HashLogged s s' := by
  intro h
  rw [hhash, hlog, hashed_append, ← h]
  rfl

instance : Frame HashLogged where
  refl _ h := h
  trans h h' hs := h' (h hs)
  sha256Init _ := .of_act .sha256Init rfl rfl
  updateHash _ bytes := .of_act (.updateHash bytes) rfl rfl
  uxFlowInit _ flow := .of_act (.uxFlowInit flow) rfl rfl
  reply _ data sw := .of_act (.reply data sw) rfl rfl
  endSession _ := .of_act (.setInstruction none) rfl rfl
  sender _ _ h := h
  signed _ path input := .of_act (.signed path input) rfl rfl
  exit _ h := h

instance : Dispatches HashLogged where
  openSession _ ins := .of_act (.setInstruction (some ins)) rfl rfl
  handler _ ins p1 p2 data := .of_act (.handler ins p1 p2 data) rfl rfl

instance : Waits HashLogged HashLogged HashLogged := .of_frame fun _ h => h

instance (cdata : Ptr) : Loads HashLogged cdata := by
  refine ⟨fun γ => ⟨fun t => ?_⟩⟩
  rw [wp_parseKeyDerivationPath]
  exact ⟨fun _ => .of_act .parseKeyDerivationPath rfl rfl,
    fun _ => .of_act .parseKeyDerivationPath rfl rfl⟩

/-! ## Sign screens -/

def Action.isHandler : Action → Bool
  | .handler _ _ _ _ => true
  | _ => false

/-- No command was handed to a handler since the flow came up. -/
def Unhandled (s : Shared) : Prop := ∀ a ∈ sinceScreen s.log, a.isHandler = false

instance (s : Shared) : Decidable (Unhandled s) :=
  inferInstanceAs (Decidable (∀ a ∈ sinceScreen s.log, a.isHandler = false))

theorem Unhandled.of_extends {s s' : Shared} (h : Unhandled s') {as : List Action}
    (hlog : s'.log = s.log ++ as) (hshows : as.any Action.shows = false) : Unhandled s := by
  intro a ha
  refine h a ?_
  rw [hlog, sinceScreen_append hshows]
  exact List.mem_append_left _ ha

theorem Unhandled.extend {s s' : Shared} (h : Unhandled s) {as : List Action}
    (hlog : s'.log = s.log ++ as) (hshows : as.any Action.shows = false) (hhandlers : as.any Action.isHandler = false) :
    Unhandled s' := by
  intro a ha
  rw [hlog, sinceScreen_append hshows] at ha
  rcases List.mem_append.mp ha with ha | ha
  · exact h a ha
  · simpa using List.any_eq_false.mp hhandlers a ha

/-- A Sign step on the display is on the flow that came up last, the other steps of that flow only
go on or decline, and unless a handler was called since, nothing was hashed and no path was read. -/
def OnSignScreen (s : Shared) : Prop :=
  offersSign s.display = true → Only ScreenKind.shared.callbacks s.display ∧
    (flows s.log).getLast? = some s.display ∧
    (Unhandled s → ∀ a ∈ sinceScreen s.log, a.touches = false)

theorem OnSignScreen.of_not_offersSign {s : Shared} (h : offersSign s.display = false) :
    OnSignScreen s := by
  intro hs
  rw [h] at hs
  cases hs

/-- A flow of any kind with a Sign step has no other callbacks of its own. -/
theorem only_shared_of_offersSign {k : ScreenKind} {flow : List Step} (h : Only k.callbacks flow)
    (hs : offersSign flow = true) : Only ScreenKind.shared.callbacks flow := by
  cases k with
  | shared => exact h
  | own cb =>
    by_cases hcb : cb = .buildAndSignTransactionHash
    · subst hcb
      exact h
    · rw [h.not_offersSign (by simp [ScreenKind.callbacks, Ne.symm hcb])] at hs
      cases hs

theorem OnSignScreen.uxFlowInit {k : ScreenKind} {flow : List Step} (h : Only k.callbacks flow)
    (s : Shared) : OnSignScreen (s.uxFlowInit flow) := by
  intro hs
  refine ⟨only_shared_of_offersSign h hs, by simp [flows], fun _ => ?_⟩
  simp [sinceScreen_uxFlowInit]

/-- Actions that neither show a flow nor touch what is signed. -/
theorem OnSignScreen.extend {s s' : Shared} (h : OnSignScreen s) (as : List Action)
    (hlog : s'.log = s.log ++ as) (hdisplay : s'.display = s.display)
    (hshows : as.any Action.shows = false) (htouches : as.any Action.touches = false) :
    OnSignScreen s' := by
  intro hs
  rw [hdisplay] at hs ⊢
  obtain ⟨honly, hlast, hsince⟩ := h hs
  refine ⟨honly, ?_, fun hun => ?_⟩
  · rw [hlog, flows_append, flows_of_not_shows hshows, List.append_nil]
    exact hlast
  · rw [hlog, sinceScreen_append hshows]
    intro a ha
    rcases List.mem_append.mp ha with ha | ha
    · exact hsince (hun.of_extends hlog hshows) a ha
    · simpa using List.any_eq_false.mp htouches a ha

/-- Once a handler was called, the flow that is still up may have been followed by anything. -/
theorem OnSignScreen.of_handler {s s' : Shared} (h : OnSignScreen s) (hun : ¬ Unhandled s)
    (as : List Action) (hlog : s'.log = s.log ++ as) (hdisplay : s'.display = s.display)
    (hshows : as.any Action.shows = false) : OnSignScreen s' := by
  intro hs
  rw [hdisplay] at hs ⊢
  obtain ⟨honly, hlast, -⟩ := h hs
  refine ⟨honly, ?_, fun ha => absurd (ha.of_extends hlog hshows) hun⟩
  rw [hlog, flows_append, flows_of_not_shows hshows, List.append_nil]
  exact hlast

theorem catchOther_log (e : Error) (s : Shared) : ∃ as, (catchOther e s).log = s.log ++ as ∧
    (as = [] ∨ as = [.setInstruction none] ∨ as = [.setInstruction none, .reply [] e.code]) := by
  unfold catchOther
  split
  · dsimp only
    split
    · exact ⟨_, rfl, .inr (.inl rfl)⟩
    · exact ⟨_, by simp, .inr (.inr rfl)⟩
  · exact ⟨[], (List.append_nil _).symm, .inl rfl⟩

theorem OnSignScreen.catchOther {s : Shared} (h : OnSignScreen s) (e : Error) :
    OnSignScreen (catchOther e s) := by
  obtain ⟨as, hlog, has⟩ := catchOther_log e s
  refine h.extend as hlog (catchOther_display e s) ?_ ?_ <;> rcases has with rfl | rfl | rfl <;> rfl

/-- What ends in a screen, after a handler was called or without a Sign screen before. -/
theorem Shown.onSignScreen {K : ScreenKind → Prop} {s s' : Shared} (h : Shown K s s')
    (hs : offersSign s.display = false ∨ OnSignScreen s ∧ ¬ Unhandled s) : OnSignScreen s' := by
  -- without a new flow the display is the one from before
  have hkept {m : Shared} (hm : Touched s m) (as : List Action) (hlog : s'.log = m.log ++ as)
      (hdisplay : s'.display = m.display) (hshows : as.any Action.shows = false) :
      OnSignScreen s' := by
    rcases hs with hs | ⟨hon, hun⟩
    · refine .of_not_offersSign ?_
      rw [hdisplay, hm.display]
      exact hs
    · obtain ⟨bs, hbs, ht⟩ := hm.log
      refine hon.of_handler hun (bs ++ as) (by rw [hlog, hbs, List.append_assoc])
        (hdisplay.trans hm.display) ?_
      rw [List.any_append, not_shows_of_touches ht, hshows]
      rfl
  cases h with
  | touched h => exact hkept h [] (List.append_nil _).symm rfl rfl
  | replied h data => exact hkept h [.reply data success] rfl rfl rfl
  | screen _ _ honly => exact .uxFlowInit honly _
  | finished _ _ _ honly => exact .uxFlowInit honly _
  | loading _ _ honly => exact .of_not_offersSign (honly.not_offersSign (by decide))

theorem Ended.onSignScreen {K : ScreenKind → Prop} {s s' : Shared} (h : Ended K s s')
    (hs : offersSign s.display = false ∨ OnSignScreen s ∧ ¬ Unhandled s) : OnSignScreen s' := by
  obtain ⟨m, hm, rfl | rfl⟩ := h
  · exact hm.onSignScreen hs
  · exact hm.onSignScreen hs

/-- Without a new flow the display stays. -/
theorem Shown.kept {K : ScreenKind → Prop} {s s' : Shared} (h : Shown K s s') :
    ∃ as, s'.log = s.log ++ as ∧ (as.any Action.shows = false → s'.display = s.display) := by
  cases h with
  | touched h =>
    obtain ⟨as, hlog, -⟩ := h.log
    exact ⟨as, hlog, fun _ => h.display⟩
  | replied h data =>
    obtain ⟨as, hlog, -⟩ := h.log
    exact ⟨as ++ [.reply data success], by simp [hlog], fun _ => h.display⟩
  | @screen m h k flow =>
    obtain ⟨as, hlog, -⟩ := h.log
    exact ⟨as ++ [.uxFlowInit flow], by simp [hlog], fun hs => by simp [Action.shows] at hs⟩
  | @finished m h data k flow =>
    obtain ⟨as, hlog, -⟩ := h.log
    exact ⟨as ++ [.reply data success, .setInstruction none, .uxFlowInit flow], by simp [hlog],
      fun hs => by simp [Action.shows] at hs⟩
  | @loading m h data flow =>
    obtain ⟨as, hlog, -⟩ := h.log
    exact ⟨as ++ [.uxFlowInit flow, .reply data success], by simp [hlog],
      fun hs => by simp [Action.shows] at hs⟩

/-- A Sign screen that is up without a handler having been called was put up just now. -/
theorem Shown.unhandled {K : ScreenKind → Prop} {s s' : Shared} (h : Shown K s s')
    (hs : offersSign s.display = false) (hs' : offersSign s'.display = true) : Unhandled s' := by
  have hnone {m : Shared} (hm : Touched s m) : offersSign m.display = false := hm.display ▸ hs
  have hnew (m : Shared) (flow : List Step) : Unhandled (m.uxFlowInit flow) := by
    simp [Unhandled, sinceScreen_uxFlowInit]
  cases h with
  | touched h => rw [hnone h] at hs'; cases hs'
  | @replied m h data =>
    have hm : offersSign m.display = true := hs'
    rw [hnone h] at hm
    cases hm
  | screen => exact hnew _ _
  | finished => exact hnew _ _
  | @loading m _ data flow honly =>
    have hm : offersSign ((m.uxFlowInit flow).reply data success).display = false :=
      honly.not_offersSign (by decide)
    rw [hm] at hs'
    cases hs'

/-! ## Signatures -/

/-- What happens between the two states gives no signature. -/
def Unsigned (s s' : Shared) : Prop := ∃ as, s'.log = s.log ++ as ∧ as.any Action.isSigned = false

theorem Unsigned.trans {s s' s'' : Shared} (h : Unsigned s s') (h' : Unsigned s' s'') :
    Unsigned s s'' := by
  obtain ⟨as, hl, ha⟩ := h
  obtain ⟨as', hl', ha'⟩ := h'
  exact ⟨as ++ as', by rw [hl', hl, List.append_assoc], by rw [List.any_append, ha, ha']; rfl⟩

theorem Unsigned.of_log {s s' : Shared} (h : s'.log = s.log) : Unsigned s s' :=
  ⟨[], by simp [h], rfl⟩

theorem Unsigned.catchOther (e : Error) (s : Shared) : Unsigned s (catchOther e s) := by
  obtain ⟨as, hlog, has⟩ := catchOther_log e s
  refine ⟨as, hlog, ?_⟩
  rcases has with rfl | rfl | rfl <;> rfl

theorem Touched.unsigned {s s' : Shared} (h : Touched s s') : Unsigned s s' := by
  obtain ⟨as, hl, ha⟩ := h.log
  refine ⟨as, hl, List.any_eq_false.mpr fun a hmem hs => ?_⟩
  have ht := ha a hmem
  cases a <;> simp_all [Action.touches, Action.isSigned]

theorem Shown.unsigned {K : ScreenKind → Prop} {s s' : Shared} (h : Shown K s s') :
    Unsigned s s' := by
  cases h with
  | touched h => exact h.unsigned
  | @screen m h k flow => exact h.unsigned.trans ⟨[.uxFlowInit flow], rfl, rfl⟩
  | replied h data => exact h.unsigned.trans ⟨[.reply data success], rfl, rfl⟩
  | @finished m h data k flow =>
    exact h.unsigned.trans ⟨[.reply data success, .setInstruction none, .uxFlowInit flow], by simp, rfl⟩
  | @loading m h data flow =>
    exact h.unsigned.trans ⟨[.uxFlowInit flow, .reply data success], by simp, rfl⟩

theorem Ended.unsigned {K : ScreenKind → Prop} {s s' : Shared} (h : Ended K s s') :
    Unsigned s s' := by
  obtain ⟨m, hm, rfl | rfl⟩ := h
  · exact hm.unsigned
  · exact hm.unsigned

/-- A transaction signature with this path of this input, given by pressing a Sign step. -/
structure SignedBy (sdk : Sdk) (d : Device μ) (ev : Event) (d' : Device μ) (path : List UInt32)
    (input : List UInt8) : Prop where
  pressed : ∃ i, ev = .press i ∧ d.shared.pressed i = .buildAndSignTransactionHash
  /-- The flow with the step came up last. -/
  last : (flows d.shared.log).getLast? = some d.shared.display
  input_eq : input = hashed d.shared.log
  path_eq : path = d.shared.path.nodes
  /-- The signature is the only one and is what the host gets. -/
  answer : ∃ sig, sdk.sign path (sdk.sha256 input) = some sig ∧
    newActions d.shared d'.shared =
      [.signed path input, .reply sig success, .setInstruction none, .uxFlowInit uxMenuIdleFlow]

/-- Nothing was hashed and no path was read since the flow came up. -/
structure SignedOn (sdk : Sdk) (d : Device μ) (ev : Event) (d' : Device μ) (path : List UInt32)
    (input : List UInt8) : Prop extends SignedBy sdk d ev d' path input where
  since : ∀ a ∈ sinceScreen d.shared.log, a.touches = false

/-- Signatures are given by pressing Sign steps. -/
def Pressed (sdk : Sdk) (d : Device μ) (ev : Event) (d' : Device μ) : Prop :=
  ∀ path input, .signed path input ∈ newActions d.shared d'.shared →
    SignedBy sdk d ev d' path input

def Bound (sdk : Sdk) (d : Device μ) (ev : Event) (d' : Device μ) : Prop :=
  ∀ path input, .signed path input ∈ newActions d.shared d'.shared →
    SignedOn sdk d ev d' path input

/-- No handler runs while a Sign step is on the display. -/
def Unhurried (d : Device μ) : Event → Prop
  | .command c => (handed d c).isSome = true → offersSign d.shared.display = false
  | _ => True

instance (d : Device μ) (ev : Event) : Decidable (Unhurried d ev) :=
  match ev with
  | .command _ => inferInstanceAs (Decidable (_ → _))
  | .press _ => .isTrue trivial
  | .noApdu => .isTrue trivial

theorem Unsigned.pressed {sdk : Sdk} {d d' : Device μ} {ev : Event}
    (h : Unsigned d.shared d'.shared) : Pressed sdk d ev d' := by
  intro path input hmem
  obtain ⟨as, hl, ha⟩ := h
  rw [newActions_of_log hl] at hmem
  exact absurd (List.any_eq_true.mpr ⟨_, hmem, rfl⟩) (by rw [ha]; simp)

/-! ## Runs -/

section Runs

variable {sdk : Sdk} {app : App μ} {own : Callback → Fw μ PUnit} {ins : UInt8}
  {L : ScreenKind → Prop} {d d' : Device μ} {ev : Event}

theorem not_unhandled_of_handler {s s' : Shared} {as : List Action} (hlog : s'.log = s.log ++ as)
    (hshows : as.any Action.shows = false) (hhandler : as.any Action.isHandler = true) :
    ¬ Unhandled s' := by
  intro h
  obtain ⟨a, ha, hi⟩ := List.any_eq_true.mp hhandler
  have hmem : a ∈ sinceScreen s'.log := by
    rw [hlog, sinceScreen_append hshows]
    exact List.mem_append_right _ ha
  rw [h a hmem] at hi
  cases hi

/-- The handler is called on the screen that is up. -/
theorem OnSignScreen.atHandler (h : OnSignScreen d.shared) {c : Apdu} {b : Bool} {t : Device μ}
    (ht : Handing d c b t) : OnSignScreen t.shared ∧ ¬ Unhandled t.shared := by
  have hlog := ht.log
  rw [List.append_assoc] at hlog
  refine ⟨h.extend _ hlog ht.display ?_ ?_, not_unhandled_of_handler hlog ?_ ?_⟩ <;> cases b <;> rfl

theorem OnSignScreen.command (h : OnSignScreen d.shared) (ha : Screened app ins L) {c : Apdu}
    (hs : step app d (.command c) = some d') :
    OnSignScreen d'.shared ∧ Unsigned d.shared d'.shared := by
  cases hhand : handed d c with
  | none =>
    obtain ⟨-, e, -, hshared⟩ := step_refused hhand hs
    have hreceived : OnSignScreen (receivedCommand d).shared := h
    rw [hshared]
    exact ⟨hreceived.catchOther e, .trans (.of_log rfl) (.catchOther e _)⟩
  | some p =>
    obtain ⟨b, t⟩ := p
    have ht := handing hhand
    have hon := h.atHandler ht
    have hentered : Unsigned d.shared t.shared := by
      refine ⟨_, ht.log.trans (List.append_assoc _ _ _), ?_⟩
      cases b <;> rfl
    rw [step_handed hhand hs]
    refine finish_of_wp (P := fun t' => OnSignScreen t'.shared ∧ Unsigned d.shared t'.shared) ?_
    refine wp_mono (ha.handler c b t) (fun _ t' ht' => ?_) fun e t' ht' => ?_
    · exact ⟨ht'.onSignScreen (.inr hon), hentered.trans ht'.unsigned⟩
    · exact ⟨(ht'.onSignScreen (.inr hon)).catchOther e,
        (hentered.trans ht'.unsigned).trans (.catchOther e _)⟩

/-- A callback that is not shared is on no screen with a Sign step. -/
theorem OnSignScreen.not_offersSign (h : OnSignScreen d.shared) {i : Nat}
    (hi : (d.shared.pressed i).isShared = false) : offersSign d.shared.display = false := by
  by_contra hs
  obtain ⟨honly, -, -⟩ := h (by simpa using hs)
  unfold Shared.pressed at hi
  split at hi
  · rename_i st hst
    have hmem := honly st (List.mem_of_getElem? hst)
    simp only [ScreenKind.callbacks, List.mem_cons, List.not_mem_nil, or_false] at hmem
    rcases hmem with hcb | hcb | hcb | hcb <;> rw [hcb] at hi <;> cases hi
  · cases hi

theorem OnSignScreen.ownPress (h : OnSignScreen d.shared) (ha : Screened app ins L) {i : Nat}
    (hi : (d.shared.pressed i).isShared = false) :
    OnSignScreen (finish (app.callback (d.shared.pressed i) d)).shared ∧
      Unsigned d.shared (finish (app.callback (d.shared.pressed i) d)).shared := by
  have hdisplay := h.not_offersSign hi
  refine finish_of_wp (P := fun t' => OnSignScreen t'.shared ∧ Unsigned d.shared t'.shared) ?_
  refine wp_mono (ha.own _ hi d) (fun _ t' ht' => ?_) fun e t' ht' => ?_
  · exact ⟨ht'.onSignScreen (.inl hdisplay), ht'.unsigned⟩
  · exact ⟨(ht'.onSignScreen (.inl hdisplay)).catchOther e, ht'.unsigned.trans (.catchOther e _)⟩

theorem offersSign_menu : offersSign uxMenuIdleFlow = false := by decide

theorem offersSign_of_pressed {i : Nat} (h : d.shared.pressed i = .buildAndSignTransactionHash) :
    offersSign d.shared.display = true := by
  unfold Shared.pressed at h
  split at h
  · rename_i st hst
    exact List.any_eq_true.mpr ⟨st, List.mem_of_getElem? hst, by simp [Step.signs, h]⟩
  · cases h

/-- A Sign step on the display is on a screen on which no handler was called. -/
def SignUnhandled (d : Device μ) : Prop := offersSign d.shared.display = true → Unhandled d.shared

/-- The Sign step. -/
theorem OnSignScreen.sign (h : OnSignScreen d.shared) (hh : d.shared.hash = hashed d.shared.log)
    {i : Nat} (hi : d.shared.pressed i = .buildAndSignTransactionHash) :
    OnSignScreen (finish (buildAndSignTransactionHash sdk d)).shared ∧
      Pressed sdk d (.press i) (finish (buildAndSignTransactionHash sdk d)) := by
  obtain ⟨-, hlast, -⟩ := h (offersSign_of_pressed hi)
  refine finish_of_wp (P := fun t => OnSignScreen t.shared ∧
    Pressed sdk d (.press i) t) ?_
  simp only [buildAndSignTransactionHash, sendSuccess, wp_bind, Fw.wp_getShared,
    Fw.wp_ensureNoError, Fw.wp_modifyShared, wp_uiIdle]
  refine ⟨fun sig hsig => ⟨.of_not_offersSign offersSign_menu, ?_⟩,
    fun _ => ⟨h.catchOther _, (Unsigned.catchOther _ _).pressed⟩⟩
  intro path input hmem
  have hnew : newActions d.shared
      (((((d.shared.act (.signed d.shared.path.nodes d.shared.hash)).reply sig success)).setInstruction
        none).uxFlowInit uxMenuIdleFlow) =
      [.signed d.shared.path.nodes d.shared.hash, .reply sig success, .setInstruction none,
        .uxFlowInit uxMenuIdleFlow] := newActions_of_log (by simp)
  rw [hnew] at hmem
  simp only [List.mem_cons, Action.signed.injEq, reduceCtorEq, List.not_mem_nil, or_false] at hmem
  obtain ⟨rfl, rfl⟩ := hmem
  exact ⟨⟨i, rfl, hi⟩, hlast, hh, rfl, sig, hsig, hnew⟩

theorem OnSignScreen.sharedPress (h : OnSignScreen d.shared)
    (hh : d.shared.hash = hashed d.shared.log) {i : Nat}
    (hi : (d.shared.pressed i).isShared = true) :
    OnSignScreen (finish (sharedCallback sdk own (d.shared.pressed i) d)).shared ∧
      Pressed sdk d (.press i) (finish (sharedCallback sdk own (d.shared.pressed i) d)) := by
  -- Back to the menu, after actions that are no signature.
  have hmenu {t : Device μ} {s : Shared} (as : List Action) (hlog : s.log = d.shared.log ++ as)
      (has : as.any Action.isSigned = false)
      (ht : t.shared = (s.setInstruction none).uxFlowInit uxMenuIdleFlow) :
      OnSignScreen t.shared ∧ Pressed sdk d (.press i) t := by
    refine ⟨.of_not_offersSign ?_, Unsigned.pressed ?_⟩
    · rw [ht]
      exact offersSign_menu
    · refine ⟨as ++ [.setInstruction none, .uxFlowInit uxMenuIdleFlow], by simp [ht, hlog], ?_⟩
      rw [List.any_append, has]
      rfl
  cases hcb : d.shared.pressed i with
  | none => exact ⟨h, (Unsigned.of_log rfl).pressed⟩
  | sendSuccessNoIdle =>
    exact ⟨h.extend [.reply [] success] rfl rfl rfl rfl,
      Unsigned.pressed ⟨[.reply [] success], rfl, rfl⟩⟩
  | sendSuccess => exact hmenu [.reply [] success] rfl rfl rfl
  | sendUserRejection => exact hmenu [.reply [] Error.rejectedByUser.code] rfl rfl rfl
  | uiIdle => exact hmenu [] (List.append_nil _).symm rfl rfl
  | osSchedExit =>
    exact ⟨h.extend [] (List.append_nil _).symm rfl rfl rfl,
      Unsigned.pressed ⟨[], (List.append_nil _).symm, rfl⟩⟩
  | buildAndSignTransactionHash => exact h.sign hh hcb
  | _ => rw [hcb] at hi; cases hi

/-- Between two sessions, without a Sign step on the display. -/
structure Resting (d : Device μ) : Prop where
  hash : d.shared.hash = hashed d.shared.log
  display : offersSign d.shared.display = false
  instruction : d.shared.currentInstruction = none

/-- The hash is the one of the log, and a Sign step is on the screen that came up last. -/
def Coherent (d : Device μ) : Prop :=
  d.shared.hash = hashed d.shared.log ∧ OnSignScreen d.shared

theorem Coherent.step (h : Coherent d) (hcb : app.callback = sharedCallback sdk own)
    (ha : Screened app ins L)
    (hframed : Framed app (fun _ => HashLogged) (fun _ => HashLogged) HashLogged)
    (hs : ConcordiumLedger.step app d ev = some d') :
    Coherent d' ∧ Pressed sdk d ev d' := by
  obtain ⟨hh, hscreen⟩ := h
  have hh' : d'.shared.hash = hashed d'.shared.log :=
    hframed.step (fun _ _ _ h => h) hs hh
  have hrest : OnSignScreen d'.shared ∧ Pressed sdk d ev d' := by
    cases ev with
    | command c =>
      obtain ⟨hs', hu⟩ := hscreen.command ha hs
      exact ⟨hs', hu.pressed⟩
    | noApdu =>
      unfold ConcordiumLedger.step at hs
      split at hs
      · cases hs
        have hreceived : OnSignScreen (received d).shared := hscreen
        exact ⟨hreceived.catchOther _,
          Unsigned.pressed (.trans (.of_log rfl) (.catchOther _ _))⟩
      · cases hs
    | press i =>
      obtain ⟨-, rfl⟩ := step_press hs
      by_cases hi : (d.shared.pressed i).isShared = true
      · rw [hcb]
        exact hscreen.sharedPress hh hi
      · obtain ⟨hs', hu⟩ := hscreen.ownPress ha (by simpa using hi)
        exact ⟨hs', hu.pressed⟩
  exact ⟨⟨hh', hrest.1⟩, hrest.2⟩

/-- Unless a handler was called on its screen. -/
theorem Coherent.bound (h : Coherent d) (hpressed : Pressed sdk d ev d') (hun : SignUnhandled d) :
    Bound sdk d ev d' := by
  intro path input hmem
  have hsigned := hpressed path input hmem
  obtain ⟨i, -, hi⟩ := hsigned.pressed
  have hoffers := offersSign_of_pressed hi
  obtain ⟨-, -, hsince⟩ := h.2 hoffers
  exact ⟨hsigned, hsince (hun hoffers)⟩

/-- As long as a Sign screen is up on which no handler is called, the hash and the path stay what
they were. -/
def KeepsScreen (d d' : Device μ) : Prop :=
  offersSign d'.shared.display = true → Unhandled d'.shared →
    flows d'.shared.log = flows d.shared.log →
      d'.shared.hash = d.shared.hash ∧ d'.shared.path = d.shared.path

theorem Coherent.keeps (h : Coherent d) (ha : Screened app ins L)
    (hs : ConcordiumLedger.step app d ev = some d') : KeepsScreen d d' := by
  intro ho hun hflows
  have hcaught {s : Shared} (e : Error) (hh : s.hash = d.shared.hash) (hp : s.path = d.shared.path)
      (hs' : d'.shared = catchOther e s) :
      d'.shared.hash = d.shared.hash ∧ d'.shared.path = d.shared.path := by
    rw [hs', catchOther_hash, catchOther_path]
    exact ⟨hh, hp⟩
  cases ev with
  | command c =>
    cases hhand : handed d c with
    | none =>
      obtain ⟨-, e, -, hshared⟩ := step_refused hhand hs
      exact hcaught (s := (receivedCommand d).shared) e rfl rfl hshared
    | some p =>
      obtain ⟨b, t⟩ := p
      -- the call is in the log since the flow
      have ht := (handing hhand).log
      rw [List.append_assoc] at ht
      have hlog : ∃ as, d'.shared.log = t.shared.log ++ as := by
        rw [step_handed hhand hs]
        refine finish_of_wp (P := fun t' => ∃ as, t'.shared.log = t.shared.log ++ as) ?_
        refine wp_mono (ha.handler c b t) (fun _ t' ht' => ?_) fun e t' ht' => ?_
        · obtain ⟨m, hm, rfl | heq⟩ := ht'
          · obtain ⟨as, hlog, -⟩ := hm.kept
            exact ⟨as, hlog⟩
          · obtain ⟨as, hlog, -⟩ := hm.kept
            exact ⟨as, by rw [heq]; exact hlog⟩
        · obtain ⟨as, hlog, -⟩ := ht'.kept
          obtain ⟨bs, hbs, -⟩ := catchOther_log e t'.shared
          exact ⟨as ++ bs, by rw [hbs, hlog, List.append_assoc]⟩
      obtain ⟨as, hlog⟩ := hlog
      rw [ht, List.append_assoc] at hlog
      rw [hlog] at hflows
      refine absurd hun (not_unhandled_of_handler hlog (not_shows_of_flows hflows) ?_)
      cases b <;> rfl
  | noApdu =>
    unfold ConcordiumLedger.step at hs
    split at hs
    · cases hs
      exact hcaught (s := (received d).shared) .noApduReceived rfl rfl rfl
    · cases hs
  | press i =>
    obtain ⟨-, rfl⟩ := step_press hs
    by_cases hi : (d.shared.pressed i).isShared = true
    · exact ⟨(ha.shared _ hi d).hash, (ha.shared _ hi d).path⟩
    · have hi' : (d.shared.pressed i).isShared = false := by simpa using hi
      have hdisplay := h.2.not_offersSign hi'
      -- the display did not offer Sign, and no other flow came up
      have hsame : (finish (app.callback (d.shared.pressed i) d)).shared.display =
          d.shared.display := by
        revert hflows
        refine finish_of_wp (P := fun t' => flows t'.shared.log = flows d.shared.log →
          t'.shared.display = d.shared.display) ?_
        refine wp_mono (ha.own _ hi' d) (fun _ t' ht' hflows => ?_) fun e t' ht' hflows => ?_
        · obtain ⟨as, hlog, hkept⟩ := ht'.kept
          exact hkept (not_shows_of_flows (hlog ▸ hflows))
        · obtain ⟨as, hlog, hkept⟩ := ht'.kept
          obtain ⟨bs, hbs, -⟩ := catchOther_log e t'.shared
          have hext : flows (d.shared.log ++ (as ++ bs)) = flows d.shared.log := by
            rw [← List.append_assoc, ← hlog, ← hbs]
            exact hflows
          have hall := not_shows_of_flows hext
          rw [List.any_append, Bool.or_eq_false_iff] at hall
          show (catchOther e t'.shared).display = _
          rw [catchOther_display]
          exact hkept hall.1
      rw [hsame, hdisplay] at ho
      cases ho

/-- The Sign step fires on the flow that came up last, nothing was hashed and no path was read since,
and what is signed is what was hashed before it, with the path read before it. -/
structure Binds (sdk : Sdk) (d : Device μ) (ev : Event) (d' : Device μ) : Prop where
  pressed : ∀ i, ev = .press i → d.shared.pressed i = .buildAndSignTransactionHash →
    (flows d.shared.log).getLast? = some d.shared.display ∧
      ∀ a ∈ sinceScreen d.shared.log, a.touches = false
  signed : Bound sdk d ev d'

/-- In every run, whatever came before: a Sign step on whose screen no handler was called is bound to
that screen. -/
theorem sign_screens_bind (hcb : app.callback = sharedCallback sdk own) (ha : Screened app ins L)
    (hframed : Framed app (fun _ => HashLogged) (fun _ => HashLogged) HashLogged)
    (hh : d.shared.hash = hashed d.shared.log) (hd : offersSign d.shared.display = false)
    (events : List Event) :
    Always (ConcordiumLedger.step app)
      (fun d ev d' => (Unhandled d.shared → Binds sdk d ev d') ∧ KeepsScreen d d') d events := by
  refine Always.of_invariant (I := Coherent) (fun d ev d' hI hs => ?_) ⟨hh, .of_not_offersSign hd⟩
  obtain ⟨hcoherent, hpressed⟩ := hI.step hcb ha hframed hs
  refine ⟨⟨fun hun => ⟨fun i _ hi => ?_, hI.bound hpressed fun _ => hun⟩, hI.keeps ha hs⟩, hcoherent⟩
  obtain ⟨-, hlast, hsince⟩ := hI.2 (offersSign_of_pressed hi)
  exact ⟨hlast, hsince hun⟩

/-- Where no handler runs on a Sign screen, none has run since it came up. -/
theorem SignUnhandled.step (h : SignUnhandled d) (hon : OnSignScreen d.shared)
    (ha : Screened app ins L)
    (hs : ConcordiumLedger.step app d ev = some d') (hc : Unhurried d ev) : SignUnhandled d' := by
  have hcaught {t : Device μ} {s : Shared} (h : offersSign s.display = true → Unhandled s) (e : Error)
      (ht : t.shared = catchOther e s) : SignUnhandled t := by
    intro ho
    rw [ht] at ho ⊢
    rw [catchOther_display] at ho
    obtain ⟨as, hlog, hclosing⟩ := catchOther_log e s
    refine (h ho).extend hlog ?_ ?_ <;> rcases hclosing with rfl | rfl | rfl <;> rfl
  have hshown {K : ScreenKind → Prop} {t : Device μ} {s : Shared}
      (hd : offersSign s.display = false) (ht : Shown K s t.shared) : SignUnhandled t :=
    ht.unhandled hd
  cases ev with
  | command c =>
    cases hhand : handed d c with
    | none =>
      obtain ⟨-, e, -, hshared⟩ := step_refused hhand hs
      exact hcaught (s := (receivedCommand d).shared) h e hshared
    | some p =>
      obtain ⟨b, t⟩ := p
      have hdisplay : offersSign t.shared.display = false := by
        rw [(handing hhand).display]
        exact hc (by rw [hhand]; rfl)
      rw [step_handed hhand hs]
      refine finish_of_wp (P := SignUnhandled) ?_
      refine wp_mono (ha.handler c b t) (fun _ t' ht' => ?_) fun e t' ht' => ?_
      · obtain ⟨m, hm, heq | heq⟩ := ht'
        · exact hshown hdisplay (heq ▸ hm)
        · intro ho
          rw [heq] at ho ⊢
          exact hm.unhandled hdisplay ho
      · exact hcaught (ht'.unhandled hdisplay) e rfl
  | noApdu =>
    unfold ConcordiumLedger.step at hs
    split at hs
    · cases hs
      exact hcaught (s := (received d).shared) h .noApduReceived rfl
    · cases hs
  | press i =>
    obtain ⟨-, rfl⟩ := step_press hs
    by_cases hi : (d.shared.pressed i).isShared = true
    · intro ho
      obtain ⟨hd, hscreens⟩ := (ha.shared _ hi d).of_offersSign ho
      obtain ⟨as, hlog, hquiet⟩ := (ha.shared _ hi d).log
      have hshows : as.any Action.shows = false := by
        rw [screens, hlog, sessionLog_append_quiet hquiet, screens] at hscreens
        exact not_shows_of_flows hscreens
      refine Unhandled.extend (h (hd ▸ ho)) hlog hshows (List.any_eq_false.mpr fun a hmem hh => ?_)
      have hq := hquiet a hmem
      cases a <;> simp_all [Action.quiet, Action.isHandler]
    · have hi' : (d.shared.pressed i).isShared = false := by simpa using hi
      have hdisplay := hon.not_offersSign hi'
      refine finish_of_wp (P := SignUnhandled) ?_
      refine wp_mono (ha.own _ hi' d) (fun _ t' ht' => hshown hdisplay ht') fun e t' ht' => ?_
      exact hcaught (ht'.unhandled hdisplay) e rfl

/-- The hash is the one of the log, and a Sign step is on the screen that came up last, on which no
handler was called. -/
def Consistent (d : Device μ) : Prop := Coherent d ∧ SignUnhandled d

theorem Consistent.step (h : Consistent d) (hcb : app.callback = sharedCallback sdk own)
    (ha : Screened app ins L)
    (hframed : Framed app (fun _ => HashLogged) (fun _ => HashLogged) HashLogged)
    (hs : ConcordiumLedger.step app d ev = some d') (hc : Unhurried d ev) :
    Consistent d' ∧ Bound sdk d ev d' := by
  obtain ⟨hcoherent, hun⟩ := h
  obtain ⟨hcoherent', hpressed⟩ := hcoherent.step hcb ha hframed hs
  exact ⟨⟨hcoherent', hun.step hcoherent.2 ha hs hc⟩, hcoherent.bound hpressed hun⟩

theorem Consistent.of_not_offersSign (hh : d.shared.hash = hashed d.shared.log)
    (hd : offersSign d.shared.display = false) : Consistent d := by
  refine ⟨⟨hh, .of_not_offersSign hd⟩, fun ho => ?_⟩
  rw [hd] at ho
  cases ho

end Runs

end ConcordiumLedger
