import Mathlib.Tactic.TypeStar

/-!
# Lib.Transition

Runs of an event driven machine whose step function may refuse an event, with a condition on each
step.

* `Run step C s t` — `t` is reached from `s` by events that `step` accepts and that meet `C` in
  the state they arrive in.
* `exec`           — the executable counterpart: the state a list of events leads to.
* `Always step P s es` — `P` holds of each step that the events lead through.
* `recorded step note` — the machine with a record of its run.
* `Together step Q s t es` — two runs refuse the same events and stay related by `Q`.
-/

namespace Transition

variable {σ ε : Type*}

inductive Run (step : σ → ε → Option σ) (C : σ → ε → Prop) : σ → σ → Prop where
  | refl {s : σ} : Run step C s s
  | tail {s t u : σ} {e : ε} : Run step C s t → C t e → step t e = some u → Run step C s u

/-- A property of the first state that each step keeps holds in every state reached. -/
theorem Run.invariant {step : σ → ε → Option σ} {C : σ → ε → Prop} {P : σ → Prop} {s t : σ}
    (h : Run step C s t) (h0 : P s)
    (hstep : ∀ t e u, P t → C t e → step t e = some u → P u) : P t := by
  induction h with
  | refl => exact h0
  | tail _ hC hs ih => exact hstep _ _ _ ih hC hs

theorem Run.trans {step : σ → ε → Option σ} {C : σ → ε → Prop} {s t u : σ}
    (h₁ : Run step C s t) (h₂ : Run step C t u) : Run step C s u := by
  induction h₂ with
  | refl => exact h₁
  | tail _ hC hs ih => exact .tail ih hC hs

theorem Run.mono {step : σ → ε → Option σ} {C C' : σ → ε → Prop} {s t : σ}
    (h : Run step C s t) (hC : ∀ s e, C s e → C' s e) : Run step C' s t := by
  induction h with
  | refl => exact .refl
  | tail _ hc hs ih => exact .tail ih (hC _ _ hc) hs

/-- The state that a list of events leads to; `none` when one of them is refused. -/
def exec (step : σ → ε → Option σ) : σ → List ε → Option σ
  | s, [] => some s
  | s, e :: es => (step s e).bind fun s' => exec step s' es

/-- Refuses the events that do not meet `C`. -/
def guarded (step : σ → ε → Option σ) (C : σ → ε → Prop) [∀ s e, Decidable (C s e)] :
    σ → ε → Option σ := fun s e => if C s e then step s e else none

theorem exec_run {step : σ → ε → Option σ} {C : σ → ε → Prop} [∀ s e, Decidable (C s e)] :
    ∀ {es : List ε} {s t : σ}, exec (guarded step C) s es = some t → Run step C s t := by
  intro es
  induction es with
  | nil => intro s t h; cases h; exact .refl
  | cons e es ih =>
    intro s t h
    simp only [exec, guarded, Option.bind_eq_some_iff] at h
    obtain ⟨s', hs, ht⟩ := h
    split at hs
    · rename_i hC
      exact Run.trans (.tail .refl hC hs) (ih ht)
    · cases hs

/-- Each step that the events lead through meets `P`, up to the first one that is refused. -/
def Always (step : σ → ε → Option σ) (P : σ → ε → σ → Prop) : σ → List ε → Prop
  | _, [] => True
  | s, e :: es => ∀ s', step s e = some s' → P s e s' ∧ Always step P s' es

instance Always.decidable (step : σ → ε → Option σ) (P : σ → ε → σ → Prop)
    [∀ s e s', Decidable (P s e s')] : ∀ s es, Decidable (Always step P s es)
  | _, [] => inferInstanceAs (Decidable True)
  | s, e :: es =>
    have : ∀ s', Decidable (Always step P s' es) := fun s' => Always.decidable step P s' es
    decidable_of_iff (∀ s' ∈ step s e, P s e s' ∧ Always step P s' es) Iff.rfl

/-- Events that are not refused meet the condition. -/
theorem exec_guarded {step : σ → ε → Option σ} {C : σ → ε → Prop} [∀ s e, Decidable (C s e)] :
    ∀ {es : List ε} {s t : σ}, exec (guarded step C) s es = some t →
      exec step s es = some t ∧ Always step (fun s e _ => C s e) s es := by
  intro es
  induction es with
  | nil => intro s t h; exact ⟨h, trivial⟩
  | cons e es ih =>
    intro s t h
    simp only [exec, guarded, Option.bind_eq_some_iff] at h
    obtain ⟨s', hs, ht⟩ := h
    split at hs
    · rename_i hC
      obtain ⟨hexec, hall⟩ := ih ht
      refine ⟨Option.bind_eq_some_iff.mpr ⟨s', hs, hexec⟩, fun u hu => ?_⟩
      rw [hs] at hu
      cases hu
      exact ⟨hC, hall⟩
    · cases hs

/-- A run whose steps meet the condition. -/
theorem run_of_exec {step : σ → ε → Option σ} {C : σ → ε → Prop} :
    ∀ {es : List ε} {s t : σ}, exec step s es = some t → Always step (fun s e _ => C s e) s es →
      Run step C s t := by
  intro es
  induction es with
  | nil => intro s t h _; cases h; exact .refl
  | cons e es ih =>
    intro s t h hall
    obtain ⟨s', hs, ht⟩ := Option.bind_eq_some_iff.mp h
    obtain ⟨hC, hrest⟩ := hall s' hs
    exact Run.trans (.tail .refl hC hs) (ih ht hrest)

theorem exec_concat {step : σ → ε → Option σ} {e : ε} {u : σ} :
    ∀ {es : List ε} {s : σ}, exec step s (es ++ [e]) = some u ↔
      ∃ t, exec step s es = some t ∧ step t e = some u := by
  intro es
  induction es with
  | nil => simp [exec]
  | cons e' es ih =>
    intro s
    simp only [List.cons_append, exec, Option.bind_eq_some_iff, ih]
    constructor
    · rintro ⟨s', hs, t, ht, hu⟩
      exact ⟨t, ⟨s', hs, ht⟩, hu⟩
    · rintro ⟨t, ⟨s', hs, ht⟩, hu⟩
      exact ⟨s', hs, t, ht, hu⟩

/-- Each step of a run is the last one of some of its first events. -/
theorem always_iff {step : σ → ε → Option σ} {P : σ → ε → σ → Prop} {s : σ} {es : List ε} :
    Always step P s es ↔ ∀ pre e t u, pre ++ [e] <+: es → exec step s pre = some t →
      step t e = some u → P t e u := by
  constructor
  · rintro h pre e t u ⟨rest, rfl⟩ ht hu
    rw [List.append_assoc] at h
    induction pre generalizing s with
    | nil =>
      cases ht
      exact (h u hu).1
    | cons e' pre ih =>
      obtain ⟨s', hs, ht'⟩ := Option.bind_eq_some_iff.mp ht
      exact ih (h s' hs).2 ht'
  · intro h
    induction es generalizing s with
    | nil => trivial
    | cons e es ih =>
      intro s' hs
      refine ⟨h [] e s s' ⟨es, rfl⟩ rfl hs, ih fun pre e' t u hpre ht hu => ?_⟩
      obtain ⟨rest, rfl⟩ := hpre
      exact h (e :: pre) e' t u ⟨rest, rfl⟩ (Option.bind_eq_some_iff.mpr ⟨s', hs, ht⟩) hu

/-- The last step of a run. -/
theorem Always.last {step : σ → ε → Option σ} {P : σ → ε → σ → Prop} {e : ε} {es : List ε}
    {s t u : σ} (h : Always step P s (es ++ [e])) (ht : exec step s es = some t)
    (hu : step t e = some u) : P t e u :=
  always_iff.mp h es e t u List.prefix_rfl ht hu

/-- What holds at first and after each step holds where the run ends. -/
theorem Always.at_end {step : σ → ε → Option σ} {P : σ → Prop} {es : List ε} {s t : σ} (h : P s)
    (hall : Always step (fun _ _ s' => P s') s es) (ht : exec step s es = some t) : P t := by
  rcases es.eq_nil_or_concat with rfl | ⟨pre, e, rfl⟩
  · cases ht
    exact h
  · rw [List.concat_eq_append] at hall ht
    obtain ⟨r, hr, hu⟩ := exec_concat.mp ht
    exact hall.last hr hu

/-- What each step from a state with the invariant does, each step of a run does, if it keeps the
invariant. -/
theorem Always.of_invariant {step : σ → ε → Option σ} {P : σ → ε → σ → Prop} {I : σ → Prop}
    (hstep : ∀ s e s', I s → step s e = some s' → P s e s' ∧ I s') :
    ∀ {s : σ} {es : List ε}, I s → Always step P s es := by
  intro s es
  induction es generalizing s with
  | nil => intro _; trivial
  | cons e es ih =>
    intro hI s' hs
    obtain ⟨hp, hkeep⟩ := hstep s e s' hI hs
    exact ⟨hp, ih hkeep⟩

/-- What two conditions say about each step from a state with the invariant, they say about each
run, if the second one keeps the invariant. -/
theorem Always.congr_of_invariant {step : σ → ε → Option σ} {P Q : σ → ε → σ → Prop} {I : σ → Prop}
    (hstep : ∀ s e s', I s → step s e = some s' → (P s e s' ↔ Q s e s') ∧ (Q s e s' → I s')) :
    ∀ {s : σ} {es : List ε}, I s → (Always step P s es ↔ Always step Q s es) := by
  intro s es
  induction es generalizing s with
  | nil => intro _; exact Iff.rfl
  | cons e es ih =>
    intro hI
    constructor
    · intro hP s' hs
      obtain ⟨hp, hrest⟩ := hP s' hs
      obtain ⟨hiff, hkeep⟩ := hstep s e s' hI hs
      have hq := hiff.mp hp
      exact ⟨hq, (ih (hkeep hq)).mp hrest⟩
    · intro hQ s' hs
      obtain ⟨hq, hrest⟩ := hQ s' hs
      obtain ⟨hiff, hkeep⟩ := hstep s e s' hI hs
      exact ⟨hiff.mpr hq, (ih (hkeep hq)).mpr hrest⟩

/-- What two conditions say about each step, they say about each run. -/
theorem Always.congr {step : σ → ε → Option σ} {P Q : σ → ε → σ → Prop}
    (h : ∀ s e s', step s e = some s' → (P s e s' ↔ Q s e s')) {s : σ} {es : List ε} :
    Always step P s es ↔ Always step Q s es :=
  Always.congr_of_invariant (I := fun _ => True)
    (fun s e s' _ hs => ⟨h s e s' hs, fun _ => trivial⟩) trivial

theorem always_and {step : σ → ε → Option σ} {P Q : σ → ε → σ → Prop} :
    ∀ {s : σ} {es : List ε}, Always step (fun s e s' => P s e s' ∧ Q s e s') s es ↔
      Always step P s es ∧ Always step Q s es := by
  intro s es
  induction es generalizing s with
  | nil => exact ⟨fun _ => ⟨trivial, trivial⟩, fun _ => trivial⟩
  | cons e es ih =>
    constructor
    · intro h
      refine ⟨fun s' hs => ?_, fun s' hs => ?_⟩
      · exact ⟨(h s' hs).1.1, (ih.mp (h s' hs).2).1⟩
      · exact ⟨(h s' hs).1.2, (ih.mp (h s' hs).2).2⟩
    · rintro ⟨hP, hQ⟩ s' hs
      exact ⟨⟨(hP s' hs).1, (hQ s' hs).1⟩, ih.mpr ⟨(hP s' hs).2, (hQ s' hs).2⟩⟩

/-- What each step keeps, and counts up when it is marked by `B`: the events are unmarked exactly
if the count is the same afterwards. -/
theorem exec_counting {step : σ → ε → Option σ} {I : Nat → σ → Prop} {B : σ → ε → Prop}
    (hstep : ∀ k s e s', I k s → step s e = some s' →
      (¬ B s e → I k s') ∧ (B s e → I (k + 1) s')) {t : σ} :
    ∀ {es : List ε} {k : Nat} {s : σ}, I k s → exec step s es = some t →
      ∃ k', k ≤ k' ∧ I k' t ∧ (k' = k ↔ Always step (fun s e _ => ¬ B s e) s es) := by
  intro es
  induction es with
  | nil =>
    intro k s h ht
    cases ht
    exact ⟨k, Nat.le_refl k, h, iff_of_true rfl trivial⟩
  | cons e es ih =>
    intro k s h ht
    obtain ⟨s', hs, ht'⟩ := Option.bind_eq_some_iff.mp ht
    obtain ⟨hkeep, hcount⟩ := hstep k s e s' h hs
    by_cases hB : B s e
    · obtain ⟨k', hle, hI, _⟩ := ih (hcount hB) ht'
      refine ⟨k', by omega, hI, iff_of_false (by omega) fun hall => ?_⟩
      exact (hall s' hs).1 hB
    · obtain ⟨k', hle, hI, hiff⟩ := ih (hkeep hB) ht'
      refine ⟨k', hle, hI, hiff.trans ⟨fun hall u hu => ?_, fun hall => (hall s' hs).2⟩⟩
      rw [hs] at hu
      cases hu
      exact ⟨hB, hall⟩

/-! ## Records -/

/-- The machine with a record of its run beside the state; `note` says what a step adds to it. -/
def recorded {ρ : Type*} (step : σ → ε → Option σ) (note : σ → ε → σ → ρ → ρ) :
    σ × ρ → ε → Option (σ × ρ) :=
  fun s e => (step s.1 e).map fun s' => (s', note s.1 e s' s.2)

theorem recorded_eq_some {ρ : Type*} {step : σ → ε → Option σ} {note : σ → ε → σ → ρ → ρ}
    {s s' : σ × ρ} {e : ε} :
    recorded step note s e = some s' ↔ step s.1 e = some s'.1 ∧ s'.2 = note s.1 e s'.1 s.2 := by
  obtain ⟨t, r⟩ := s'
  simp only [recorded, Option.map_eq_some_iff, Prod.mk.injEq]
  constructor
  · rintro ⟨u, hu, rfl, rfl⟩
    exact ⟨hu, rfl⟩
  · rintro ⟨hu, rfl⟩
    exact ⟨t, hu, rfl, rfl⟩

/-- A condition on the states alone holds of the recorded run if it holds of the run. -/
theorem always_recorded {ρ : Type*} {step : σ → ε → Option σ} {note : σ → ε → σ → ρ → ρ}
    {P : σ → ε → σ → Prop} {es : List ε} :
    ∀ {s : σ × ρ}, Always (recorded step note) (fun s e s' => P s.1 e s'.1) s es ↔
      Always step P s.1 es := by
  induction es with
  | nil => exact Iff.rfl
  | cons e es ih =>
    intro s
    constructor
    · intro h s' hs
      obtain ⟨hp, hrest⟩ := h (s', note s.1 e s' s.2) (recorded_eq_some.mpr ⟨hs, rfl⟩)
      exact ⟨hp, ih.mp hrest⟩
    · intro h s' hs
      obtain ⟨hp, hrest⟩ := h s'.1 (recorded_eq_some.mp hs).1
      exact ⟨hp, ih.mpr hrest⟩

/-! ## Two runs -/

/-- Two runs, event by event: both refuse the events of a pair, or both take them and the states
they lead to are related by `Q`. -/
def Together (step : σ → ε → Option σ) (Q : σ → σ → Prop) : σ → σ → List (ε × ε) → Prop
  | _, _, [] => True
  | s, t, (e, f) :: es =>
    Option.Rel (fun s' t' => Q s' t' ∧ Together step Q s' t' es) (step s e) (step t f)

/-- `C` holds of each pair of events, as long as both runs take them. -/
def Along (step : σ → ε → Option σ) (C : σ → σ → ε → ε → Prop) : σ → σ → List (ε × ε) → Prop
  | _, _, [] => True
  | s, t, (e, f) :: es => ∀ s' t', step s e = some s' → step t f = some t' →
    C s t e f ∧ Along step C s' t' es

/-- The last states of two runs that stay together. -/
theorem Together.exec {step : σ → ε → Option σ} {Q : σ → σ → Prop} :
    ∀ {es : List (ε × ε)} {s t s' t' : σ}, Together step Q s t es → Q s t →
      exec step s (es.map Prod.fst) = some s' → exec step t (es.map Prod.snd) = some t' →
      Q s' t' := by
  intro es
  induction es with
  | nil =>
    intro s t s' t' _ hQ hs ht
    cases hs
    cases ht
    exact hQ
  | cons p es ih =>
    intro s t s' t' htog hQ hs ht
    obtain ⟨u, hu, hs'⟩ := Option.bind_eq_some_iff.mp hs
    obtain ⟨v, hv, ht'⟩ := Option.bind_eq_some_iff.mp ht
    unfold Together at htog
    rw [hu, hv] at htog
    cases htog with
    | some h => exact ih h.2 h.1 hs' ht'

theorem along_of_forall {step : σ → ε → Option σ} {C : σ → σ → ε → ε → Prop} :
    ∀ {es : List (ε × ε)} {s t : σ}, (∀ p ∈ es, ∀ s t, C s t p.1 p.2) → Along step C s t es := by
  intro es
  induction es with
  | nil => intro s t _; trivial
  | cons p es ih =>
    intro s t h s' t' _ _
    exact ⟨h p List.mem_cons_self s t, ih fun q hq => h q (List.mem_cons_of_mem _ hq)⟩

/-- If `C` decides for each pair of steps from states related by `R` whether `Q` holds afterwards,
and keeps `R`, then it decides whether the runs stay together. `A` holds of the pairs that both
runs take. -/
theorem together_iff {step : σ → ε → Option σ} {Q R : σ → σ → Prop}
    {A C : σ → σ → ε → ε → Prop} {F : ε → ε → Prop}
    (hstep : ∀ s t e f, R s t → F e f →
      (∀ s' t', step s e = some s' → step t f = some t' → A s t e f) →
      Option.Rel (fun s' t' => (Q s' t' ↔ C s t e f) ∧ (C s t e f → R s' t')) (step s e) (step t f))
    {es : List (ε × ε)} :
    ∀ {s t : σ}, R s t → (∀ p ∈ es, F p.1 p.2) → Along step A s t es →
      (Together step Q s t es ↔ Along step C s t es) := by
  induction es with
  | nil => intro s t _ _ _; exact Iff.rfl
  | cons p es ih =>
    obtain ⟨e, f⟩ := p
    intro s t hR hF hA
    have hF' : ∀ p ∈ es, F p.1 p.2 := fun p hp => hF p (List.mem_cons_of_mem _ hp)
    have hrel := hstep s t e f hR (hF (e, f) List.mem_cons_self)
      fun s' t' hs ht => (hA s' t' hs ht).1
    unfold Together Along
    unfold Along at hA
    generalize step s e = o₁ at hrel hA ⊢
    generalize step t f = o₂ at hrel hA ⊢
    cases hrel with
    | none => exact ⟨fun _ _ _ h => (by cases h), fun _ => .none⟩
    | some h =>
      rename_i s' t'
      obtain ⟨hQC, hCR⟩ := h
      have hA' := (hA s' t' rfl rfl).2
      constructor
      · intro htog u v hu hv
        cases hu
        cases hv
        cases htog with
        | some hq =>
          have hC := hQC.mp hq.1
          exact ⟨hC, (ih (hCR hC) hF' hA').mp hq.2⟩
      · intro halong
        obtain ⟨hC, hrest⟩ := halong s' t' rfl rfl
        exact .some ⟨hQC.mpr hC, (ih (hCR hC) hF' hA').mpr hrest⟩

end Transition
