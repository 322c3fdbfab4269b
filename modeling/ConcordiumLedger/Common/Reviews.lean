import ConcordiumLedger.Common.Isolation

/-!
# Common.Reviews

What is shown is what is signed, for an instruction whose handler puts up a Sign screen of what it
has hashed.

* `opener`    — the instruction of the session that was opened last.
* `Reviewing` — each accepted command of the instruction leaves a screen that shows the hash.
* `Truthful`  — a Sign screen of a session of the instruction shows the hash.
* `signatures_reviewed` — what such a session signs is what its Sign screen shows.
* `SignsOn`   — the screen on which something is signed in a run, to compare two runs.
-/

namespace ConcordiumLedger

open CMem CProg CProg.Prog Transition

variable {μ : Type}

/-! ## Sessions -/

def openerStep (o : Option UInt8) : Action → Option UInt8
  | .setInstruction (some i) => some i
  | _ => o

/-- The instruction that the last session was opened with. -/
def opener (log : List Action) : Option UInt8 := log.foldl openerStep none

theorem opener_append (log as : List Action) :
    opener (log ++ as) = as.foldl openerStep (opener log) := by
  rw [opener, List.foldl_append, opener]

theorem opener_of_not_opens {log as : List Action} (h : ∀ a ∈ as, a.opens = false) :
    opener (log ++ as) = opener log := by
  rw [opener_append]
  induction as with
  | nil => rfl
  | cons a as ih =>
    have ha : openerStep (opener log) a = opener log := by
      have hopens := h a List.mem_cons_self
      cases a with
      | setInstruction ins =>
        cases ins with
        | none => rfl
        | some ins => cases hopens
      | _ => rfl
    rw [List.foldl_cons, ha, ih fun b hb => h b (List.mem_cons_of_mem _ hb)]

theorem Continued.opener {s s' : Shared} (h : Continued s s') : opener s'.log = opener s.log := by
  obtain ⟨as, hl, ha⟩ := h
  rw [hl, opener_of_not_opens ha]

/-! ## Screens of one instruction -/

/-- `W` says what a flow shows of a hash. A command that is rejected shows nothing. -/
structure Reviewing (app : App μ) (i : UInt8) (W : List Step → List UInt8 → Prop) : Prop where
  handler : ∀ c b t, c.ins = i → wp (app.handler c b)
    (fun _ t' => Only ScreenKind.shared.callbacks t'.shared.display ∧
      W t'.shared.display t'.shared.hash)
    (fun _ t' => t'.shared.display = t.shared.display) t

structure Truthful (i : UInt8) (W : List Step → List UInt8 → Prop) (s : Shared) : Prop where
  offered : opener s.log = some i → offersSign s.display = true → W s.display s.hash
  current : s.running = true → ∀ j, s.currentInstruction = some j → opener s.log = some j
  /-- The screens of the session have shared steps only. -/
  own : s.running = true → s.currentInstruction = some i →
    screens s = [] ∨ Only ScreenKind.shared.callbacks s.display

namespace Truthful

variable {i : UInt8} {W : List Step → List UInt8 → Prop} {app : App μ} {d d' t : Device μ}
  {s : Shared} {c : Apdu} {ins : UInt8} {L : ScreenKind → Prop}

/-- A caught error ends the session and leaves the screen up. -/
theorem caught (h : opener s.log = some i → offersSign s.display = true → W s.display s.hash)
    (e : Error) : Truthful i W (catchOther e s) := by
  have hcont : Continued s (catchOther e s) := (Frame.caught e s : Inner s _).continued
  have hnone {j : UInt8} (hr : (catchOther e s).running = true)
      (hj : (catchOther e s).currentInstruction = some j) : False := by
    rw [catchOther_ended e s hr] at hj
    cases hj
  constructor
  · intro ho hs
    rw [hcont.opener] at ho
    rw [catchOther_display] at hs ⊢
    rw [catchOther_hash]
    exact h ho hs
  · exact fun hr j hj => (hnone hr hj).elim
  · exact fun hr hj => (hnone hr hj).elim

theorem passed (h : Truthful i W t.shared) {t' : Device μ} (hp : Passed t t') :
    Truthful i W t'.shared := by
  have hopener := hp.continued.opener
  constructor
  · intro ho hs
    rw [hopener] at ho
    rcases hp.display with ⟨-, hd⟩ | hd
    · rw [hd] at hs ⊢
      rw [hp.hash]
      exact h.offered ho hs
    · rw [hd, offersSign_menu] at hs
      cases hs
  · intro hr j hj
    obtain ⟨-, hcur, hr', -⟩ := hp.goes_on hr (by simp [hj])
    rw [hopener]
    exact h.current hr' j (hcur ▸ hj)
  · intro hr hj
    obtain ⟨hd, hcur, hr', hscreens⟩ := hp.goes_on hr (by simp [hj])
    rw [hd, hscreens]
    exact h.own hr' (hcur ▸ hj)

/-- The handler of a command runs in a session of its instruction. -/
theorem handed_opener {b : Bool} (h : Truthful i W d.shared) (hr : d.shared.running = true)
    (hhand : handed d c = some (b, t)) : opener t.shared.log = some c.ins := by
  have hlog := (handing hhand).log
  cases b with
  | true =>
    have hopen : t.shared.log = d.shared.log ++ [.setInstruction (some c.ins)] ++
        [.handler c.ins c.p1 c.p2 c.data] := by simpa using hlog
    rw [hopen, opener_append, opener_append]
    rfl
  | false =>
    have hgo : t.shared.log = d.shared.log ++ [.handler c.ins c.p1 c.p2 c.data] := by
      simpa using hlog
    rw [hgo, opener_of_not_opens (by simp [Action.opens])]
    exact h.current hr c.ins (handed_continued hhand)

theorem command (h : Truthful i W d.shared) (hreview : Reviewing app i W)
    (hin : Framed app (fun _ => Inner) (fun _ => Inner) Inner) (hkept : KeepsSessions app)
    (hr : d.shared.running = true) (hs : step app d (.command c) = some d')
    (hu : Unhurried d (.command c)) : Truthful i W d'.shared := by
  cases hhand : handed d c with
  | none =>
    obtain ⟨-, e, -, hshared⟩ := step_refused hhand hs
    rw [hshared]
    exact caught (s := (receivedCommand d).shared) h.offered e
  | some p =>
    obtain ⟨b, t⟩ := p
    have ht := handing hhand
    have hd : offersSign d.shared.display = false := hu (by rw [hhand]; rfl)
    have hopener := h.handed_opener hr hhand
    have hinner := (hin.handler c b).holds t
    rw [step_handed hhand hs]
    cases hx : app.handler c b t with
    | ok a t' =>
      have hcont : Inner t.shared t'.shared := by
        have h := of_wp_ok hinner hx
        exact h
      have hopener' : opener t'.shared.log = some c.ins := hcont.continued.opener.trans hopener
      have hcur := ht.instruction_ok hkept hx
      refine ⟨fun ho _ => ?_, fun _ j hj => ?_, fun _ hj => ?_⟩
      · have hins : c.ins = i := Option.some.inj (hopener'.symm.trans ho)
        exact (of_wp_ok (hreview.handler c b t hins) hx).2
      · show opener t'.shared.log = some j
        rw [hopener', hcur j hj]
      · have hins : c.ins = i := (hcur i hj).symm
        exact .inr (of_wp_ok (hreview.handler c b t hins) hx).1
    | thrown e t' =>
      have hcont : Inner t.shared t'.shared := by
        have h := of_wp_thrown hinner hx
        exact h
      refine .caught (fun ho hsign => ?_) e
      have hins : c.ins = i :=
        Option.some.inj ((hcont.continued.opener.trans hopener).symm.trans ho)
      have hdisplay := of_wp_thrown (hreview.handler c b t hins) hx
      rw [hdisplay, ht.display, hd] at hsign
      cases hsign

/-- A step of an instruction is not on a screen of a session of `i`. -/
theorem press (h : Truthful i W d.shared)
    (hin : Framed app (fun _ => Inner) (fun _ => Inner) Inner) (hkept : KeepsSessions app)
    (hr : d.shared.running = true) {k : Nat} (hcb : (d.shared.pressed k).isShared = false)
    (hon : OnScreen d (.press k)) :
    Truthful i W (finish (app.callback (d.shared.pressed k) d)).shared := by
  obtain ⟨hcur, hscreens⟩ := hon hcb
  obtain ⟨j, hj⟩ := Option.ne_none_iff_exists'.mp hcur
  have hopener := h.current hr j hj
  have hne : j ≠ i := by
    rintro rfl
    have honly := (h.own hr hj).resolve_left hscreens
    have hmem := pressed_mem honly (by decide) k
    simp only [ScreenKind.callbacks, List.mem_cons, List.not_mem_nil, or_false] at hmem
    rcases hmem with hm | hm | hm | hm <;> rw [hm] at hcb <;> cases hcb
  have hinner := (hin.callback (d.shared.pressed k)).holds d
  have hsessions := (hkept.callback (d.shared.pressed k)).holds d
  have hother {s : Shared} (hc : Inner d.shared s) : opener s.log ≠ some i := by
    rw [hc.continued.opener, hopener]
    exact fun heq => hne (Option.some.inj heq)
  refine finish_of_wp (P := fun t => Truthful i W t.shared) ?_
  refine wp_mono (wp_and hinner hsessions) ?_ ?_
  · rintro _ t ⟨hc, hk⟩
    have hsame {m : UInt8} (hm : t.shared.currentInstruction = some m) : m = j :=
      Option.some.inj ((hk m hm).symm.trans hj)
    refine ⟨fun ho => absurd ho (hother hc), fun _ m hm => ?_, fun _ hm => ?_⟩
    · rw [hc.continued.opener, hopener, hsame hm]
    · exact absurd (hsame hm).symm hne
  · rintro e t ⟨hc, -⟩
    exact .caught (fun ho => absurd ho (hother hc)) e

theorem step {ev : Event} (h : Truthful i W d.shared) (hreview : Reviewing app i W)
    (hin : Framed app (fun _ => Inner) (fun _ => Inner) Inner) (hkept : KeepsSessions app)
    (ha : Screened app ins L) (hs : ConcordiumLedger.step app d ev = some d')
    (hu : Unhurried d ev) (hon : OnScreen d ev) : Truthful i W d'.shared := by
  cases ev with
  | command c => exact h.command hreview hin hkept (step_command hs).1 hs hu
  | press k =>
    obtain ⟨hr, rfl⟩ := step_press hs
    by_cases hcb : (d.shared.pressed k).isShared = true
    · exact h.passed (ha.shared _ hcb d)
    · exact h.press hin hkept hr (by simpa using hcb) hon
  | noApdu =>
    unfold ConcordiumLedger.step at hs
    split at hs
    · cases hs
      exact caught (s := (received d).shared) h.offered .noApduReceived
    · cases hs

end Truthful

/-! ## Runs -/

/-- No handler runs on a Sign screen, and other screens are only pressed in their session. -/
structure Attended (d : Device μ) (ev : Event) : Prop where
  unhurried : Unhurried d ev
  onScreen : OnScreen d ev

instance (d : Device μ) (ev : Event) : Decidable (Attended d ev) :=
  decidable_of_iff (Unhurried d ev ∧ OnScreen d ev)
    ⟨fun ⟨hu, ho⟩ => ⟨hu, ho⟩, fun ⟨hu, ho⟩ => ⟨hu, ho⟩⟩

/-- What is signed in a session of `i` is what the Sign screen that is pressed shows. -/
def SignedAsShown (i : UInt8) (W : List Step → List UInt8 → Prop) (d d' : Device μ) : Prop :=
  ∀ path input, .signed path input ∈ newActions d.shared d'.shared →
    opener d.shared.log = some i → W d.shared.display input

/-- Over all sequences of commands and presses. -/
theorem signatures_reviewed {sdk : Sdk} {app : App μ} {own : Callback → Fw μ PUnit} {ins i : UInt8}
    {L : ScreenKind → Prop} {W : List Step → List UInt8 → Prop} {d : Device μ}
    (hreview : Reviewing app i W) (hcb : app.callback = sharedCallback sdk own)
    (ha : Screened app ins L) (hin : Framed app (fun _ => Inner) (fun _ => Inner) Inner)
    (hkept : KeepsSessions app)
    (hframed : Framed app (fun _ => HashLogged) (fun _ => HashLogged) HashLogged)
    (hd : Resting d) {events : List Event}
    (h : Always (step app) (fun d ev _ => Attended d ev) d events) :
    Always (step app) (fun d _ d' => SignedAsShown i W d d') d events := by
  refine (always_and.mp ((Always.congr_of_invariant
    (I := fun d => Consistent d ∧ Truthful i W d.shared)
    (P := fun d ev d' => Attended d ev ∧ SignedAsShown i W d d')
    (Q := fun d ev _ => Attended d ev) (fun d ev d' hI hs => ?_)
    ⟨.of_not_offersSign hd.hash hd.display, ?_⟩).mpr h)).2
  · obtain ⟨hcon, htruthful⟩ := hI
    refine ⟨⟨And.left, fun hc => ⟨hc, fun path input hmem ho => ?_⟩⟩, fun hc => ⟨?_, ?_⟩⟩
    · have hsigned := (hcon.step hcb ha hframed hs hc.unhurried).2 path input hmem
      obtain ⟨k, -, hk⟩ := hsigned.pressed
      rw [hsigned.input_eq, ← hcon.1.1]
      exact htruthful.offered ho (offersSign_of_pressed hk)
    · exact (hcon.step hcb ha hframed hs hc.unhurried).1
    · exact htruthful.step hreview hin hkept ha hs hc.unhurried hc.onScreen
  · refine ⟨fun _ hs => ?_, fun _ j hj => ?_, fun _ hj => ?_⟩
    · rw [hd.display] at hs
      cases hs
    · rw [hd.instruction] at hj
      cases hj
    · rw [hd.instruction] at hj
      cases hj

/-! ## Two runs -/

/-- The events lead through a press of Sign on this flow that signs `input` in a session of `i`. -/
def SignsOn (app : App μ) (d : Device μ) (events : List Event) (i : UInt8) (flow : List Step)
    (input : List UInt8) : Prop :=
  ∃ pre ev t u path, pre ++ [ev] <+: events ∧ exec (step app) d pre = some t ∧
    step app t ev = some u ∧ .signed path input ∈ newActions t.shared u.shared ∧
    opener t.shared.log = some i ∧ t.shared.display = flow

theorem SignsOn.holds {app : App μ} {d : Device μ} {events : List Event} {i : UInt8}
    {flow : List Step} {input : List UInt8} {W : List Step → List UInt8 → Prop}
    (hs : SignsOn app d events i flow input)
    (h : Always (step app) (fun d _ d' => SignedAsShown i W d d') d events) : W flow input := by
  obtain ⟨pre, ev, t, u, path, hpre, ht, hu, hmem, ho, rfl⟩ := hs
  exact always_iff.mp h pre ev t u hpre ht hu path input hmem ho

/-- The titles and the texts of a flow. -/
def flowTexts (flow : List Step) : List (String × Option (List UInt8)) :=
  flow.map fun st => (st.title, st.shown)

theorem flowTexts_append (a b : List Step) : flowTexts (a ++ b) = flowTexts a ++ flowTexts b :=
  List.map_append

end ConcordiumLedger
