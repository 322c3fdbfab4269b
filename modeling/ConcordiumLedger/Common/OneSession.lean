import ConcordiumLedger.Common.Isolation

/-!
# Common.OneSession

A Sign screen and the session in which it came up, in runs of any commands and any presses, with
handlers that are called on Sign screens and steps that are pressed after their session.

* `UpIn i s`       — the flow on the display came up in a session of `i`.
* `screenSession`  — the log since that session was opened.
* `OneSession`     — the path was read and the hash was started and filled in that session.
* `Leaves x`       — `x` hashes nothing and reads no path.
* `Settles x`      — when `x` returns, the session is over or is on a screen without a Sign step
  behind it.
* `signed_in_one_session` — what a Sign screen signs if no other session was opened on it.
-/

namespace ConcordiumLedger

open CMem CProg CProg.Prog Transition

variable {μ γ : Type} {s s' : Shared} {i j : UInt8} {starts : Apdu → Prop}

/-! ## The log of a session -/

/-- The instruction whose session is still open at the end of its log. -/
def live : List Action → Option UInt8
  | .handler i _ _ _ :: rest => if .setInstruction none ∈ rest then none else some i
  | _ => none

theorem live_append {l as : List Action} (ha : ∀ a ∈ as, a.inner = true) :
    live (l ++ as) = if .setInstruction none ∈ as then none else live l := by
  cases l with
  | nil =>
    have hnone : live as = none := by
      cases as with
      | nil => rfl
      | cons a as =>
        have hinner := ha a List.mem_cons_self
        cases a <;> first | rfl | cases hinner
    rw [List.nil_append, hnone]
    split <;> rfl
  | cons a l =>
    cases a with
    | handler i p1 p2 data =>
      by_cases hl : .setInstruction none ∈ l <;> by_cases hs : .setInstruction none ∈ as <;>
        simp [live, hl, hs]
    | _ =>
      simp only [List.cons_append, live]
      split <;> rfl

theorem not_mem_of_live {l : List Action} (h : live l = some i) : .setInstruction none ∉ l := by
  cases l with
  | nil => cases h
  | cons a l =>
    cases a with
    | handler i p1 p2 data =>
      rw [live] at h
      split at h
      · cases h
      · simpa using ‹_›
    | _ => cases h

theorem live_extend {l as : List Action} (h : live l = some i) (ha : .setInstruction none ∉ as) :
    live (l ++ as) = some i := by
  have hl := not_mem_of_live h
  cases l with
  | nil => cases h
  | cons a l =>
    cases a with
    | handler i p1 p2 data =>
      simp only [List.mem_cons, reduceCtorEq, false_or] at hl
      simpa [live, hl, ha] using h
    | _ => cases h

/-- Nothing is hashed and no path is read once the session is over. -/
def StaysWithin (l : List Action) : Prop :=
  ∀ a ∈ l.dropWhile (· ≠ .setInstruction none), a.touches = false

instance (l : List Action) : Decidable (StaysWithin l) :=
  inferInstanceAs (Decidable (∀ a ∈ l.dropWhile _, a.touches = false))

theorem StaysWithin.extend {l as : List Action} (h : StaysWithin l)
    (ha : ∀ a ∈ as, a.touches = false) : StaysWithin (l ++ as) := by
  intro a hmem
  rw [List.dropWhile_append] at hmem
  split at hmem
  · exact ha a (List.dropWhile_subset _ hmem)
  · rcases List.mem_append.mp hmem with hmem | hmem
    · exact h a hmem
    · exact ha a hmem

theorem staysWithin_of_not_mem {l : List Action} (h : .setInstruction none ∉ l) : StaysWithin l := by
  intro a ha
  have hnil : l.dropWhile (· ≠ .setInstruction none) = [] := by
    rw [List.dropWhile_eq_nil_iff]
    intro b hb
    rw [decide_eq_true_eq]
    rintro rfl
    exact h hb
  rw [hnil] at ha
  cases ha

/-- The command that the session began with meets the condition. -/
def BeganWith (starts : Apdu → Prop) (l : List Action) : Prop :=
  ∀ c : Apdu, l.head? = some (.handler c.ins c.p1 c.p2 c.data) → starts c

theorem BeganWith.of_append {l as : List Action} (h : BeganWith starts (l ++ as)) :
    BeganWith starts l := by
  intro c hc
  refine h c ?_
  rw [List.head?_append, hc]
  rfl

/-! ## Screens -/

/-- The log before the flow on the display came up. -/
def beforeScreen (log : List Action) : List Action :=
  log.take (log.length - (sinceScreen log).length - 1)

theorem beforeScreen_uxFlowInit (log : List Action) (flow : List Step) :
    beforeScreen (log ++ [.uxFlowInit flow]) = log := by
  simp [beforeScreen, sinceScreen_uxFlowInit]

theorem beforeScreen_append {log as : List Action} (h : as.any Action.shows = false) :
    beforeScreen (log ++ as) = beforeScreen log := by
  have hlen : (log ++ as).length - (sinceScreen (log ++ as)).length - 1 =
      log.length - (sinceScreen log).length - 1 := by
    rw [sinceScreen_append h, List.length_append, List.length_append]
    omega
  rw [beforeScreen, hlen, List.take_append_of_le_length (by omega), beforeScreen]

theorem sinceScreen_not_shows (log : List Action) :
    (sinceScreen log).any Action.shows = false := by
  induction log using List.reverseRecOn with
  | nil => rfl
  | append_singleton log a ih =>
    rw [sinceScreen, List.foldl_append, List.foldl_cons, List.foldl_nil, sinceScreenStep]
    cases ha : a.shows with
    | true => rfl
    | false =>
      rw [if_neg Bool.false_ne_true, List.any_append, ← sinceScreen, ih]
      simpa using ha

/-- The log up to a flow and since it came up. -/
theorem screen_split (log : List Action) : beforeScreen log = [] ∨
    ∃ flow, log = beforeScreen log ++ .uxFlowInit flow :: sinceScreen log := by
  induction log using List.reverseRecOn with
  | nil => exact .inl rfl
  | append_singleton log a ih =>
    by_cases ha : a.shows = true
    · obtain ⟨flow, rfl⟩ : ∃ flow, a = .uxFlowInit flow := by
        cases a with
        | uxFlowInit flow => exact ⟨flow, rfl⟩
        | _ => cases ha
      exact .inr ⟨flow, by rw [beforeScreen_uxFlowInit, sinceScreen_uxFlowInit]⟩
    · have has : [a].any Action.shows = false := by simpa using ha
      rw [beforeScreen_append has, sinceScreen_append has]
      refine ih.imp id fun hflow => ?_
      obtain ⟨flow, hlog⟩ := hflow
      refine ⟨flow, ?_⟩
      rw [← List.cons_append, ← List.append_assoc, ← hlog]

/-- The flow on the display came up in a session of `i`. -/
def UpIn (i : UInt8) (s : Shared) : Prop := live (sessionLog (beforeScreen s.log)) = some i

instance (i : UInt8) (s : Shared) : Decidable (UpIn i s) := inferInstanceAs (Decidable (_ = _))

/-- No session was opened since. -/
def Unopened (s : Shared) : Prop := ∀ a ∈ sinceScreen s.log, a.opens = false

instance (s : Shared) : Decidable (Unopened s) :=
  inferInstanceAs (Decidable (∀ a ∈ sinceScreen s.log, a.opens = false))

/-- The log since the session was opened in which the flow on the display came up. -/
def screenSession (s : Shared) : List Action :=
  sessionLog (beforeScreen s.log) ++ s.log.drop (beforeScreen s.log).length

/-- What a Sign screen of a session of `i` signs is of that session. -/
structure OneSession (i : UInt8) (s : Shared) (input : List UInt8) : Prop where
  /-- The first command of the session has read the path and started the hash. -/
  fresh : startsFresh i (screenSession s) = true
  /-- All the rest was hashed before the session was over. -/
  within : StaysWithin (screenSession s)
  input_eq : input = hashed (screenSession s)

/-- The flow came up in the session that was opened last. -/
def CameUp (i : UInt8) (s : Shared) : Prop := live (beforeScreen (sessionLog s.log)) = some i

theorem UpIn.sessions (h : UpIn i s) (hs : Unopened s) :
    CameUp i s ∧ screenSession s = sessionLog s.log := by
  rcases screen_split s.log with hnil | ⟨flow, hlog⟩
  · rw [UpIn, hnil] at h
    cases h
  · have hopens : ∀ a ∈ .uxFlowInit flow :: sinceScreen s.log, a.opens = false := by
      intro a ha
      rcases List.mem_cons.mp ha with rfl | ha
      · rfl
      · exact hs a ha
    have hsession : sessionLog s.log =
        sessionLog (beforeScreen s.log) ++ .uxFlowInit flow :: sinceScreen s.log := by
      rw [← sessionLog_of_not_opens hopens, ← hlog]
    have hdrop : s.log.drop (beforeScreen s.log).length = .uxFlowInit flow :: sinceScreen s.log := by
      calc s.log.drop (beforeScreen s.log).length
          = (beforeScreen s.log ++ .uxFlowInit flow :: sinceScreen s.log).drop
              (beforeScreen s.log).length := by rw [← hlog]
        _ = .uxFlowInit flow :: sinceScreen s.log := List.drop_left
    refine ⟨?_, by rw [screenSession, hdrop, hsession]⟩
    rw [CameUp, hsession, List.append_cons, beforeScreen_append (sinceScreen_not_shows _),
      beforeScreen_uxFlowInit]
    exact h

/-! ## Functions -/

/-- Neither hashes anything nor reads a path. -/
def Untouching (s s' : Shared) : Prop := ∃ as, s'.log = s.log ++ as ∧ ∀ a ∈ as, a.touches = false

theorem Untouching.of_log (h : s'.log = s.log) : Untouching s s' := ⟨[], by simp [h], by simp⟩

theorem Untouching.trans {s'' : Shared} (h : Untouching s s') (h' : Untouching s' s'') :
    Untouching s s'' := by
  obtain ⟨as, hl, ha⟩ := h
  obtain ⟨as', hl', ha'⟩ := h'
  refine ⟨as ++ as', by rw [hl', hl, List.append_assoc], fun a hmem => ?_⟩
  rcases List.mem_append.mp hmem with hmem | hmem
  · exact ha a hmem
  · exact ha' a hmem

class Leaves {α : Type} (x : Fw γ α) : Prop where
  holds : ∀ t, wp x (fun _ t' => Untouching t.shared t'.shared)
    (fun _ t' => Untouching t.shared t'.shared) t

section Leaves

variable {α β : Type} {x y : Fw γ α} {k : α → Fw γ β} {c : Prop} [Decidable c]

instance Leaves.bind [hx : Leaves x] [hk : ∀ a, Leaves (k a)] : Leaves (x >>= k) := by
  refine ⟨fun t => ?_⟩
  rw [wp_bind]
  refine wp_mono (hx.holds t) (fun a t' ht => ?_) fun _ _ h => h
  exact wp_mono ((hk a).holds t') (fun _ _ h => ht.trans h) fun _ _ h => ht.trans h

instance Leaves.ite [hx : Leaves x] [hy : Leaves y] : Leaves (if c then x else y) := by
  refine ⟨fun t => ?_⟩
  rw [wp_ite]
  exact ⟨fun _ => hx.holds t, fun _ => hy.holds t⟩

instance Leaves.pure (a : α) : Leaves (Pure.pure a : Fw γ α) := ⟨fun _ => .of_log rfl⟩

instance Leaves.throw (e : Error) : Leaves (Fw.throw e : Fw γ α) := ⟨fun _ => .of_log rfl⟩

instance Leaves.throwIf (c : Prop) [Decidable c] (e : Error) :
    Leaves (Fw.throwIf c e : Fw γ PUnit) :=
  ⟨fun _ => (Fw.wp_throwIf c e).mpr ⟨fun _ => .of_log rfl, fun _ => .of_log rfl⟩⟩

instance Leaves.when (c : Prop) [Decidable c] {x : Fw γ PUnit} [h : Leaves x] :
    Leaves (Fw.when c x) :=
  ⟨fun t => (Fw.wp_when c x).mpr ⟨fun _ => h.holds t, fun _ => .of_log rfl⟩⟩

instance Leaves.eval (r : Except Error α) : Leaves (Fw.eval r : Fw γ α) :=
  ⟨fun _ => (Fw.wp_eval r).mpr ⟨fun _ _ => .of_log rfl, fun _ _ => .of_log rfl⟩⟩

instance Leaves.ensureNoError (r : Option α) : Leaves (Fw.ensureNoError r : Fw γ α) :=
  ⟨fun _ => (Fw.wp_ensureNoError r).mpr ⟨fun _ _ => .of_log rfl, fun _ => .of_log rfl⟩⟩

instance Leaves.getCtx : Leaves (Fw.getCtx : Fw γ γ) := ⟨fun _ => .of_log rfl⟩

instance Leaves.getShared : Leaves (Fw.getShared : Fw γ Shared) := ⟨fun _ => .of_log rfl⟩

instance Leaves.modifyCtx (g : γ → γ) : Leaves (Fw.modifyCtx g : Fw γ PUnit) :=
  ⟨fun _ => .of_log rfl⟩

instance Leaves.on (m : Member μ γ) [h : Leaves x] : Leaves (Fw.on m x) :=
  ⟨fun t => (Fw.wp_on m x).mpr (h.holds ⟨m.get t.ctx, t.shared⟩)⟩

instance Leaves.uxFlowInit (flow : Device γ → List Step) : Leaves (uxFlowInit flow) :=
  ⟨fun t => ⟨[.uxFlowInit (flow t)], rfl, by simp [Action.touches]⟩⟩

instance Leaves.sendSuccessResultNoIdle (data : List UInt8) :
    Leaves (sendSuccessResultNoIdle data : Fw γ PUnit) :=
  ⟨fun _ => ⟨[.reply data success], rfl, by simp [Action.touches]⟩⟩

instance Leaves.sendSuccessNoIdle : Leaves (sendSuccessNoIdle : Fw γ PUnit) :=
  inferInstanceAs (Leaves (ConcordiumLedger.sendSuccessResultNoIdle []))

instance Leaves.endSession :
    Leaves (Fw.modifyShared (Shared.setInstruction none) : Fw γ PUnit) :=
  ⟨fun _ => ⟨[.setInstruction none], rfl, by simp [Action.touches]⟩⟩

instance Leaves.sendSuccess (data : List UInt8) : Leaves (sendSuccess data : Fw γ PUnit) :=
  ⟨fun _ => ⟨[.reply data success, .setInstruction none, .uxFlowInit uxMenuIdleFlow], by simp,
    by simp [Action.touches]⟩⟩

instance Leaves.sendPublicKey (sdk : Sdk) (compare : Bool) : Leaves (sendPublicKey sdk compare) := by
  have hresponse : Leaves (publicKeyResponse sdk) := by
    unfold publicKeyResponse
    infer_instance
  unfold ConcordiumLedger.sendPublicKey
  infer_instance

end Leaves

/-- The session is over, or a screen of it is up that leads to no Sign step. -/
def Closed (s : Shared) : Prop := s.currentInstruction = none ∨ Only closing s.display

class Settles {α : Type} (x : Fw γ α) : Prop where
  holds : ∀ t, wp x (fun _ t' => Closed t'.shared) (fun _ _ => True) t

section Settles

variable {α β : Type} {x y : Fw γ α} {k : α → Fw γ β} {c : Prop} [Decidable c]

instance Settles.bind [hk : ∀ a, Settles (k a)] : Settles (x >>= k) := by
  refine ⟨fun t => ?_⟩
  rw [wp_bind]
  exact wp_of_run (fun a t' _ => (hk a).holds t') fun _ _ _ => trivial

instance Settles.ite [hx : Settles x] [hy : Settles y] : Settles (if c then x else y) := by
  refine ⟨fun t => ?_⟩
  rw [wp_ite]
  exact ⟨fun _ => hx.holds t, fun _ => hy.holds t⟩

instance Settles.throw (e : Error) : Settles (Fw.throw e : Fw γ α) := ⟨fun _ => trivial⟩

instance Settles.on (m : Member μ γ) [h : Settles x] : Settles (Fw.on m x) :=
  ⟨fun t => (Fw.wp_on m x).mpr (h.holds ⟨m.get t.ctx, t.shared⟩)⟩

instance Settles.screen {k : ScreenKind} (flow : Device γ → List Step) [o : OfKind k flow]
    [p : Permits Closes k] : Settles (uxFlowInit flow) :=
  ⟨fun t => .inr ((o.holds t).closing p.holds)⟩

instance Settles.waits (flow : Device γ → List Step) [h : Settles (uxFlowInit flow)] :
    Settles (uxFlowInit flow >>= fun _ => waitForButton) := by
  refine ⟨fun t => ?_⟩
  rw [wp_bind]
  exact wp_mono (h.holds t) (fun _ _ ht => ht) fun _ _ h => h

instance Settles.sendSuccess (data : List UInt8) : Settles (sendSuccess data : Fw γ PUnit) :=
  ⟨fun _ => .inl rfl⟩

instance Settles.sendPublicKey (sdk : Sdk) : Settles (sendPublicKey sdk false) := by
  unfold ConcordiumLedger.sendPublicKey
  refine @Settles.bind _ _ _ _ _ fun keys => ?_
  obtain ⟨key, response⟩ := keys
  exact inferInstanceAs (Settles (ConcordiumLedger.sendSuccess response))

instance Settles.handleGetPublicKey [Permits Closes (.own .sendPublicKey)] (sdk : Sdk) (cdata : Ptr)
    (p1 p2 : UInt8) : Settles (handleGetPublicKey sdk cdata p1 p2) := by
  unfold ConcordiumLedger.handleGetPublicKey
  infer_instance

end Settles

/-! ## The session of a screen -/

/-- The current instruction is the one of the session that the log leaves open. -/
def LiveLogged (s s' : Shared) : Prop :=
  s.currentInstruction = live (sessionLog s.log) → s'.currentInstruction = live (sessionLog s'.log)

theorem LiveLogged.of_act (a : Action) (ha : a.inner = true) (hne : a ≠ .setInstruction none)
    (hlog : s'.log = s.log ++ [a]) (hcur : s'.currentInstruction = s.currentInstruction) :
    LiveLogged s s' := by
  intro h
  rw [hlog, sessionLog_of_not_opens (by simpa using not_opens_of_inner ha),
    live_append (by simpa using ha), if_neg (by simpa using Ne.symm hne), hcur, h]

instance : Frame LiveLogged where
  refl _ h := h
  trans h h' hs := h' (h hs)
  sha256Init _ := .of_act .sha256Init rfl (by simp) rfl rfl
  updateHash _ bytes := .of_act (.updateHash bytes) rfl (by simp) rfl rfl
  uxFlowInit _ flow := .of_act (.uxFlowInit flow) rfl (by simp) rfl rfl
  reply _ data sw := .of_act (.reply data sw) rfl (by simp) rfl rfl
  endSession s _ := by
    have hlog : (s.setInstruction none).log = s.log ++ [.setInstruction none] := rfl
    rw [hlog, sessionLog_of_not_opens (by simp [Action.opens]), live_append (by simp [Action.inner]),
      if_pos (by simp)]
    rfl
  sender _ _ h := h
  signed _ path input := .of_act (.signed path input) rfl (by simp) rfl rfl
  exit _ h := h

instance : Waits LiveLogged LiveLogged LiveLogged := .of_frame fun _ h => h

instance (cdata : Ptr) : Loads LiveLogged cdata := by
  refine ⟨fun γ => ⟨fun t => ?_⟩⟩
  rw [wp_parseKeyDerivationPath]
  exact ⟨fun _ => .of_act .parseKeyDerivationPath rfl (by simp) rfl rfl,
    fun _ => .of_act .parseKeyDerivationPath rfl (by simp) rfl rfl⟩

theorem CameUp.of_log {as : List Action} (hlog : s'.log = s.log ++ as)
    (hopens : ∀ a ∈ as, a.opens = false) (hshows : as.any Action.shows = false) (h : CameUp j s') :
    CameUp j s := by
  rw [CameUp, hlog, sessionLog_of_not_opens hopens, beforeScreen_append hshows] at h
  exact h

/-- A flow that came up just now came up in the session that was open. -/
theorem CameUp.of_uxFlowInit {as bs : List Action} {flow : List Step}
    (hlog : s'.log = s.log ++ as ++ [.uxFlowInit flow] ++ bs) (ha : ∀ a ∈ as, a.inner = true)
    (hopens : ∀ b ∈ bs, b.opens = false) (hshows : bs.any Action.shows = false) (h : CameUp j s') :
    .setInstruction none ∉ as ∧ live (sessionLog s.log) = some j := by
  have has : ∀ a ∈ as, a.opens = false := fun a hmem => not_opens_of_inner (ha a hmem)
  rw [CameUp, hlog, sessionLog_of_not_opens hopens, beforeScreen_append hshows,
    sessionLog_of_not_opens (by simp [Action.opens]), beforeScreen_uxFlowInit,
    sessionLog_of_not_opens has, live_append ha] at h
  split at h
  · cases h
  · exact ⟨‹_›, h⟩

/-- What a function of this kind puts up. -/
def ScreenOf (K : ScreenKind → Prop) (flow : List Step) : Prop :=
  Only [.none] flow ∨ ∃ k, K k ∧ Only k.callbacks flow

theorem ScreenOf.closing {flow : List Step} (h : ScreenOf Closes flow) : Only closing flow := by
  rcases h with h | ⟨k, hk, honly⟩
  · exact h.mono (by simp [ConcordiumLedger.closing])
  · exact honly.closing hk

theorem Touched.all_inner {as : List Action} (h : ∀ a ∈ as, a.touches = true) :
    ∀ a ∈ as, a.inner = true ∧ a ≠ .setInstruction none := by
  intro a ha
  have ht := h a ha
  cases a <;> simp_all [Action.touches, Action.inner]

section Screens

variable {K : ScreenKind → Prop}

theorem Shown.cameUp (h : Shown K s s') (hj : CameUp j s') :
    CameUp j s ∧ s'.display = s.display ∨
      live (sessionLog s.log) = some j ∧ ScreenOf K s'.display := by
  cases h with
  | touched h =>
    obtain ⟨as, hlog, ha⟩ := h.log
    have hin := Touched.all_inner ha
    exact .inl ⟨hj.of_log hlog (fun a hmem => not_opens_of_inner (hin a hmem).1)
      (not_shows_of_touches ha), h.display⟩
  | replied h data =>
    obtain ⟨as, hlog, ha⟩ := h.log
    have hin := Touched.all_inner ha
    have hm : CameUp j _ := hj.of_log rfl (by simp [Action.opens]) rfl
    exact .inl ⟨hm.of_log hlog (fun a hmem => not_opens_of_inner (hin a hmem).1)
      (not_shows_of_touches ha), h.display⟩
  | @screen m h k flow hk honly =>
    obtain ⟨as, hlog, ha⟩ := h.log
    have hin := Touched.all_inner ha
    have hl : (m.uxFlowInit flow).log = s.log ++ as ++ [.uxFlowInit flow] ++ [] := by simp [hlog]
    have hlive := hj.of_uxFlowInit hl (fun a hmem => (hin a hmem).1) (by simp) rfl
    exact .inr ⟨hlive.2, .inr ⟨k, hk, honly⟩⟩
  | @finished m h data k flow hk honly =>
    obtain ⟨as, hlog, ha⟩ := h.log
    have hin := Touched.all_inner ha
    have hl : (((m.reply data success).setInstruction none).uxFlowInit flow).log =
        s.log ++ (as ++ [.reply data success, .setInstruction none]) ++ [.uxFlowInit flow] ++ [] := by
      simp [hlog]
    have hlive := hj.of_uxFlowInit hl (fun a hmem => ?_) (by simp) rfl
    · exact absurd (by simp) hlive.1
    · rcases List.mem_append.mp hmem with hmem | hmem
      · exact (hin a hmem).1
      · simp only [List.mem_cons, List.not_mem_nil, or_false] at hmem
        rcases hmem with rfl | rfl <;> rfl
  | @loading m h data flow honly =>
    obtain ⟨as, hlog, ha⟩ := h.log
    have hin := Touched.all_inner ha
    have hl : ((m.uxFlowInit flow).reply data success).log =
        s.log ++ as ++ [.uxFlowInit flow] ++ [.reply data success] := by
      simp [hlog]
    have hlive := hj.of_uxFlowInit hl (fun a hmem => (hin a hmem).1) (by simp [Action.opens]) rfl
    exact .inr ⟨hlive.2, .inl honly⟩

theorem Shown.only_closing (h : Shown Closes s s') (hs : Only closing s.display) :
    Only closing s'.display := by
  cases h with
  | touched h => exact h.display ▸ hs
  | replied h data =>
    have hm := h.display ▸ hs
    exact hm
  | screen h hk honly => exact honly.closing hk
  | finished h data hk honly => exact honly.closing hk
  | loading h data honly => exact Only.mono honly (by simp [ConcordiumLedger.closing])

/-- All that is hashed is hashed before the session is over. -/
theorem Shown.within (h : Shown K s s') (hopen : .setInstruction none ∉ sessionLog s.log) :
    StaysWithin (sessionLog s'.log) := by
  have htouched {m : Shared} (hm : Touched s m) : StaysWithin (sessionLog m.log) := by
    obtain ⟨as, hlog, ha⟩ := hm.log
    have hin := Touched.all_inner ha
    rw [hlog, sessionLog_of_not_opens fun a hmem => not_opens_of_inner (hin a hmem).1]
    refine staysWithin_of_not_mem fun hmem => ?_
    rcases List.mem_append.mp hmem with hmem | hmem
    · exact hopen hmem
    · exact (hin _ hmem).2 rfl
  have hrest {m : Shared} (hm : Touched s m) {as : List Action} (hlog : s'.log = m.log ++ as)
      (hopens : ∀ a ∈ as, a.opens = false) (ht : ∀ a ∈ as, a.touches = false) :
      StaysWithin (sessionLog s'.log) := by
    rw [hlog, sessionLog_of_not_opens hopens]
    exact (htouched hm).extend ht
  cases h with
  | touched h => exact htouched h
  | replied h data => exact hrest h rfl (by simp [Action.opens]) (by simp [Action.touches])
  | screen h hk honly => exact hrest h rfl (by simp [Action.opens]) (by simp [Action.touches])
  | @finished m h data k flow =>
    have hl : (((m.reply data success).setInstruction none).uxFlowInit flow).log =
        m.log ++ [.reply data success, .setInstruction none, .uxFlowInit flow] := by simp
    exact hrest h hl (by simp [Action.opens]) (by simp [Action.touches])
  | @loading m h data flow =>
    have hl : ((m.uxFlowInit flow).reply data success).log =
        m.log ++ [.uxFlowInit flow, .reply data success] := by simp
    exact hrest h hl (by simp [Action.opens]) (by simp [Action.touches])

end Screens

/-! ## The invariant -/

variable {signs : UInt8 → Prop} {hashing : Callback → Prop}

/-- A Sign step on the display that came up in the session opened last is of an instruction that
signs, and the first command of that session has started it anew. -/
def OfferedIn (signs : UInt8 → Prop) (starts : Apdu → Prop) (s : Shared) : Prop :=
  offersSign s.display = true → ∀ j, CameUp j s →
    signs j ∧ (BeganWith starts (sessionLog s.log) → Fresh j s)

theorem OfferedIn.of_closing (h : Only closing s.display) : OfferedIn signs starts s := by
  intro ho
  rw [not_offersSign_of_closing h] at ho
  cases ho

theorem OfferedIn.extend (h : OfferedIn signs starts s) {as : List Action}
    (hlog : s'.log = s.log ++ as) (hopens : ∀ a ∈ as, a.opens = false)
    (hshows : as.any Action.shows = false) (hdisplay : s'.display = s.display) :
    OfferedIn signs starts s' := by
  intro ho j hj
  obtain ⟨hsign, hfresh⟩ := h (hdisplay ▸ ho) j (hj.of_log hlog hopens hshows)
  refine ⟨hsign, fun hbegan => ?_⟩
  rw [hlog, sessionLog_of_not_opens hopens] at hbegan
  exact (hfresh hbegan.of_append).extend ⟨as, hlog, hopens⟩

/-- After a function that may put up a screen. -/
theorem OfferedIn.shown {K : ScreenKind → Prop} (h : OfferedIn signs starts s) (hin : Inner s s')
    (hshown : Shown K s s') (hnew : flows s'.log ≠ flows s.log → ScreenOf K s'.display →
      offersSign s'.display = true → ∀ j, live (sessionLog s.log) = some j →
        signs j ∧ (BeganWith starts (sessionLog s'.log) → Fresh j s')) :
    OfferedIn signs starts s' := by
  obtain ⟨as, hlog, ha⟩ := hin
  have hopens : ∀ a ∈ as, a.opens = false := fun a hmem => not_opens_of_inner (ha a hmem)
  intro ho j hj
  by_cases hflows : flows s'.log = flows s.log
  · obtain ⟨bs, hbs, hkept⟩ := hshown.kept
    have heq : as = bs := List.append_cancel_left (hlog.symm.trans hbs)
    subst heq
    have hshows := not_shows_of_flows (hlog ▸ hflows)
    exact h.extend hlog hopens hshows (hkept hshows) ho j hj
  · rcases hshown.cameUp hj with ⟨hbefore, hdisplay⟩ | ⟨hlive, hscreen⟩
    · obtain ⟨hsign, hfresh⟩ := h (hdisplay ▸ ho) j hbefore
      refine ⟨hsign, fun hbegan => ?_⟩
      rw [hlog, sessionLog_of_not_opens hopens] at hbegan
      exact (hfresh hbegan.of_append).extend ⟨as, hlog, hopens⟩
    · exact hnew hflows hscreen ho j hlive

structure Apart (signs : UInt8 → Prop) (starts : Apdu → Prop) (s : Shared) : Prop where
  live : s.currentInstruction = live (sessionLog s.log)
  within : StaysWithin (sessionLog s.log)
  offered : OfferedIn signs starts s
  signing : s.running = true → ∀ j, s.currentInstruction = some j → signs j →
    BeganWith starts (sessionLog s.log) → Fresh j s
  closing : s.running = true → ∀ j, s.currentInstruction = some j → ¬ signs j →
    Only closing s.display

/-- A caught error ends the session and leaves the screen up. -/
theorem Apart.caught (hlive : s.currentInstruction = ConcordiumLedger.live (sessionLog s.log))
    (hwithin : StaysWithin (sessionLog s.log)) (hoffered : OfferedIn signs starts s) (e : Error) :
    Apart signs starts (catchOther e s) := by
  obtain ⟨as, hlog, has⟩ := catchOther_log e s
  have hopens : ∀ a ∈ as, a.opens = false := by
    rcases has with rfl | rfl | rfl <;> simp [Action.opens]
  have hnone {j : UInt8} (hr : (catchOther e s).running = true)
      (hj : (catchOther e s).currentInstruction = some j) : False := by
    rw [catchOther_ended e s hr] at hj
    cases hj
  constructor
  · exact (Frame.caught e s : LiveLogged s _) hlive
  · rw [hlog, sessionLog_of_not_opens hopens]
    refine hwithin.extend ?_
    rcases has with rfl | rfl | rfl <;> simp [Action.touches]
  · refine hoffered.extend hlog hopens ?_ (catchOther_display e s)
    rcases has with rfl | rfl | rfl <;> rfl
  · exact fun hr j hj => (hnone hr hj).elim
  · exact fun hr j hj => (hnone hr hj).elim

section Step

variable {app : App μ} {d d' t : Device μ} {c : Apdu} {n : Nat} {kinds : List (UInt8 × List UInt8)}
  {L : ScreenKind → Prop} {ins : UInt8} {sdk : Sdk}

/-- What else the handlers and callbacks have to do; `hashing` says which callbacks hash. -/
structure Separate (app : App μ) (signs : UInt8 → Prop) (hashing : Callback → Prop) : Prop where
  lives : Framed app (fun _ => LiveLogged) (fun _ => LiveLogged) LiveLogged
  leaves : ∀ cb, cb.isShared = false → ¬ hashing cb → Leaves (app.callback cb)
  settles : ∀ c b, ¬ signs c.ins → Settles (app.handler c b)

theorem Untouching.within (h : Untouching s s') (hin : Inner s s')
    (hw : StaysWithin (sessionLog s.log)) : StaysWithin (sessionLog s'.log) := by
  obtain ⟨as, hlog, ha⟩ := hin
  obtain ⟨bs, hbs, ht⟩ := h
  have heq : as = bs := List.append_cancel_left (hlog.symm.trans hbs)
  subst heq
  rw [hlog, sessionLog_of_not_opens fun a hmem => not_opens_of_inner (ha a hmem)]
  exact hw.extend ht

theorem Apart.passed (h : Apart signs starts d.shared) (hp : Passed d t)
    (hlive : LiveLogged d.shared t.shared) : Apart signs starts t.shared := by
  obtain ⟨as, hlog, hquiet⟩ := hp.log
  have htouches : ∀ a ∈ as, a.touches = false := by
    intro a hmem
    have hq := hquiet a hmem
    cases a <;> first | rfl | cases hq
  have hsession : sessionLog t.shared.log = sessionLog d.shared.log ++ as := by
    rw [hlog, sessionLog_append_quiet hquiet]
  obtain ⟨bs, hbs, hopens⟩ := hp.continued
  have heq : bs = as := List.append_cancel_left (hbs.symm.trans hlog)
  subst heq
  constructor
  · exact hlive h.live
  · rw [hsession]
    exact h.within.extend htouches
  · intro ho
    obtain ⟨hdisplay, hscreens⟩ := hp.of_offersSign ho
    have hshows : bs.any Action.shows = false := by
      rw [screens, hsession, screens] at hscreens
      exact not_shows_of_flows hscreens
    exact h.offered.extend hlog hopens hshows hdisplay ho
  · intro hr j hj hsign hbegan
    obtain ⟨-, hcur, hr', -⟩ := hp.goes_on hr (by simp [hj])
    rw [hsession] at hbegan
    exact (h.signing hr' j (hcur ▸ hj) hsign hbegan.of_append).extend hp.continued
  · intro hr j hj hsign
    obtain ⟨hdisplay, hcur, hr', -⟩ := hp.goes_on hr (by simp [hj])
    rw [hdisplay]
    exact h.closing hr' j (hcur ▸ hj) hsign

/-! ### Presses -/

/-- A step that hashes is only pressed on a screen of the running session. -/
def HashesOnScreen (hashing : Callback → Prop) (d : Device μ) : Event → Prop
  | .press k => hashing (d.shared.pressed k) →
      d.shared.currentInstruction ≠ none ∧ screens d.shared ≠ []
  | _ => True

instance (hashing : Callback → Prop) [DecidablePred hashing] (d : Device μ) (ev : Event) :
    Decidable (HashesOnScreen hashing d ev) :=
  match ev with
  | .press _ => inferInstanceAs (Decidable (_ → _))
  | .command _ => .isTrue trivial
  | .noApdu => .isTrue trivial

/-- What a callback of an instruction does. -/
structure Called (K : ScreenKind → Prop) (s s' : Shared) : Prop where
  inner : Inner s s'
  live : LiveLogged s s'
  kept : SessionKept s s'
  shown : Shown K s s'
  within : StaysWithin (sessionLog s'.log)

theorem Called.began {K : ScreenKind → Prop} (h : Called K s s')
    (hb : BeganWith starts (sessionLog s'.log)) : BeganWith starts (sessionLog s.log) := by
  obtain ⟨as, hlog, ha⟩ := h.inner
  rw [hlog, sessionLog_of_not_opens fun a hmem => not_opens_of_inner (ha a hmem)] at hb
  exact hb.of_append

/-- A callback of the session of an instruction that signs, or of none. -/
theorem Apart.called {K : ScreenKind → Prop} (h : Apart signs starts s) (hr : s.running = true)
    (hsign : ∀ j, s.currentInstruction = some j → signs j) (hc : Called K s s') :
    OfferedIn signs starts s' := by
  refine h.offered.shown hc.inner hc.shown fun _ _ _ j hj => ?_
  rw [← h.live] at hj
  exact ⟨hsign j hj, fun hb =>
    (h.signing hr j hj (hsign j hj) (hc.began hb)).extend hc.inner.continued⟩

theorem Apart.after {K : ScreenKind → Prop} (h : Apart signs starts s) (hr : s.running = true)
    (hc : Called K s s') (ho : OfferedIn signs starts s')
    (hclosing : ∀ j, s.currentInstruction = some j → ¬ signs j →
      Only ConcordiumLedger.closing s'.display) : Apart signs starts s' where
  live := hc.live h.live
  within := hc.within
  offered := ho
  signing _ j hj hsign hb :=
    (h.signing hr j (hc.kept j hj) hsign (hc.began hb)).extend hc.inner.continued
  closing _ j hj := hclosing j (hc.kept j hj)

theorem Apart.press {k : Nat} (h : Apart signs starts d.shared)
    (happ : Isolating app signs starts n kinds) (hsep : Separate app signs hashing)
    (hkept : KeepsSessions app) (ha : Screened app ins L) (hr : d.shared.running = true)
    (hcb : (d.shared.pressed k).isShared = false)
    (hon : hashing (d.shared.pressed k) → d.shared.currentInstruction ≠ none) :
    Apart signs starts (finish (app.callback (d.shared.pressed k) d)).shared := by
  have hinner := (happ.framed.callback (d.shared.pressed k)).holds d
  have hlives := (hsep.lives.callback (d.shared.pressed k)).holds d
  have hkeeps := (hkept.callback (d.shared.pressed k)).holds d
  have hall {K : ScreenKind → Prop} (hshown : wp (app.callback (d.shared.pressed k))
      (fun _ t => Shown K d.shared t.shared) (fun _ t => Shown K d.shared t.shared) d) :
      wp (app.callback (d.shared.pressed k)) (fun _ t => Called K d.shared t.shared)
        (fun _ t => Called K d.shared t.shared) d := by
    have hrest := wp_and hinner (wp_and hlives (wp_and hkeeps hshown))
    by_cases hhash : hashing (d.shared.pressed k)
    · -- the hash goes on in the session that is open
      obtain ⟨j, hj⟩ := Option.ne_none_iff_exists'.mp (hon hhash)
      have hopen := not_mem_of_live (h.live ▸ hj)
      refine wp_mono hrest ?_ ?_
      · exact fun _ _ ht => ⟨ht.1, ht.2.1, ht.2.2.1, ht.2.2.2, ht.2.2.2.within hopen⟩
      · exact fun _ _ ht => ⟨ht.1, ht.2.1, ht.2.2.1, ht.2.2.2, ht.2.2.2.within hopen⟩
    · have hleaves := (hsep.leaves _ hcb hhash).holds d
      refine wp_mono (wp_and hleaves hrest) ?_ ?_
      · exact fun _ _ ht => ⟨ht.2.1, ht.2.2.1, ht.2.2.2.1, ht.2.2.2.2, ht.1.within ht.2.1 h.within⟩
      · exact fun _ _ ht => ⟨ht.2.1, ht.2.2.1, ht.2.2.2.1, ht.2.2.2.2, ht.1.within ht.2.1 h.within⟩
  by_cases hsign : ∀ j, d.shared.currentInstruction = some j → signs j
  · refine finish_of_wp (P := fun t => Apart signs starts t.shared)
      (wp_mono (hall (ha.own _ hcb d)) (fun _ t hc => ?_) fun e t hc => ?_)
    · exact h.after hr hc (h.called hr hsign hc) fun j hj hn => absurd (hsign j hj) hn
    · exact .caught (hc.live h.live) hc.within (h.called hr hsign hc) e
  · -- the screen that is up only closes the session
    push Not at hsign
    obtain ⟨j, hj, hn⟩ := hsign
    have honly := h.closing hr j hj hn
    have hclosing := (happ.closing _ hcb (pressed_mem honly (by decide) k)).holds d
    have hstays {s' : Shared} (hc : Called Closes d.shared s') :
        Only ConcordiumLedger.closing s'.display := hc.shown.only_closing honly
    refine finish_of_wp (P := fun t => Apart signs starts t.shared)
      (wp_mono (hall hclosing) (fun _ t hc => ?_) fun e t hc => ?_)
    · exact h.after hr hc (.of_closing (hstays hc)) fun _ _ _ => hstays hc
    · exact .caught (hc.live h.live) hc.within (.of_closing (hstays hc)) e

/-! ### Commands -/

theorem Handing.session {b : Bool} (ht : Handing d c b t) :
    sessionLog t.shared.log =
      (if b = true then [] else sessionLog d.shared.log) ++ [.handler c.ins c.p1 c.p2 c.data] := by
  rw [ht.log, sessionLog_append, sessionLog_append]
  cases b <;> rfl

/-- The handler is called in an open session of its instruction. -/
theorem Apart.handed_live {b : Bool} (h : Apart signs starts d.shared)
    (hhand : handed d c = some (b, t)) :
    ConcordiumLedger.live (sessionLog t.shared.log) = some c.ins := by
  rw [(handing hhand).session]
  cases b with
  | true => rfl
  | false =>
    have hcur := handed_continued hhand
    rw [h.live] at hcur
    exact live_extend hcur (by simp)

theorem Apart.handed_offered {b : Bool} (h : Apart signs starts d.shared)
    (hhand : handed d c = some (b, t)) : OfferedIn signs starts t.shared := by
  have ht := handing hhand
  cases b with
  | true =>
    intro _ j hj
    rw [CameUp, ht.session] at hj
    cases hj
  | false =>
    have hlog : t.shared.log = d.shared.log ++ [.handler c.ins c.p1 c.p2 c.data] := by
      simpa using ht.log
    exact h.offered.extend hlog (by simp [Action.opens]) rfl ht.display

/-- A session that goes on was started anew. -/
theorem Apart.handed_fresh (h : Apart signs starts d.shared) (hr : d.shared.running = true)
    (hhand : handed d c = some (false, t)) (hsign : signs c.ins)
    (hb : BeganWith starts (sessionLog t.shared.log)) : Fresh c.ins t.shared := by
  have hlog : t.shared.log = d.shared.log ++ [.handler c.ins c.p1 c.p2 c.data] := by
    simpa using (handing hhand).log
  have hopens : ∀ a ∈ [Action.handler c.ins c.p1 c.p2 c.data], a.opens = false := by
    simp [Action.opens]
  rw [hlog, sessionLog_of_not_opens hopens] at hb
  exact (h.signing hr c.ins (handed_continued hhand) hsign hb.of_append).extend ⟨_, hlog, hopens⟩

/-- What a handler does, up to the flag of the button that it waits for. -/
structure Served (K : ScreenKind → Prop) (s s' : Shared) : Prop where
  inner : Inner s s'
  live : LiveLogged s s'
  kept : SessionKept s s'
  shown : ∃ m, Shown K s m ∧ (s' = m ∨ s' = { m with asynchReply := true })

theorem Served.within {K : ScreenKind → Prop} (h : Served K s s')
    (hn : .setInstruction none ∉ sessionLog s.log) : StaysWithin (sessionLog s'.log) := by
  obtain ⟨m, hm, rfl | rfl⟩ := h.shown
  · exact hm.within hn
  · exact hm.within hn

theorem Served.offered {K : ScreenKind → Prop} (h : Served K s s')
    (ho : OfferedIn signs starts s) (hnew : flows s'.log ≠ flows s.log → ScreenOf K s'.display →
      offersSign s'.display = true → ∀ j, ConcordiumLedger.live (sessionLog s.log) = some j →
        signs j ∧ (BeganWith starts (sessionLog s'.log) → Fresh j s')) :
    OfferedIn signs starts s' := by
  obtain ⟨m, hm, rfl | rfl⟩ := h.shown
  · exact ho.shown h.inner hm hnew
  · have hoffered : OfferedIn signs starts m := ho.shown h.inner hm hnew
    exact hoffered

/-- A handler of an instruction that signs leaves a fresh session, or has shown nothing. -/
theorem Apart.handler_fresh {b : Bool} (h : Apart signs starts d.shared)
    (happ : Isolating app signs starts n kinds) (hr : d.shared.running = true)
    (hhand : handed d c = some (b, t)) (hsign : signs c.ins) :
    wp (app.handler c b)
      (fun _ t' => BeganWith starts (sessionLog t'.shared.log) → Fresh c.ins t'.shared)
      (fun _ t' => BeganWith starts (sessionLog t'.shared.log) →
        Fresh c.ins t'.shared ∨ flows t'.shared.log = flows t.shared.log) t := by
  have ht := handing hhand
  have hinner := (happ.framed.handler c b).holds t
  have hbefore {t' : Device μ} (hi : Inner t.shared t'.shared)
      (hb : BeganWith starts (sessionLog t'.shared.log)) :
      BeganWith starts (sessionLog t.shared.log) := by
    obtain ⟨as, hlog, ha⟩ := hi
    rw [hlog, sessionLog_of_not_opens fun a hmem => not_opens_of_inner (ha a hmem)] at hb
    exact hb.of_append
  cases b with
  | false =>
    refine wp_mono hinner (fun _ t' hi hb => ?_) fun e t' hi hb => ?_
    · exact (h.handed_fresh hr hhand hsign (hbefore hi hb)).extend hi.continued
    · exact .inl ((h.handed_fresh hr hhand hsign (hbefore hi hb)).extend hi.continued)
  | true =>
    have hstarts {t' : Device μ} (hi : Inner t.shared t'.shared)
        (hb : BeganWith starts (sessionLog t'.shared.log)) : starts c := by
      refine hbefore hi hb c ?_
      rw [ht.session]
      rfl
    have hfresh {s' : Shared} (h : Restarted t.shared s') : Fresh c.ins s' :=
      .of_restarted (by simpa using ht.log) h
    by_cases hc : starts c
    · have hrestarts := (happ.restarts c hsign hc).holds t.shared t ⟨.refl _, by simp, by simp⟩
      refine wp_mono hrestarts (fun _ t' hre _ => hfresh hre) fun e t' hre _ => ?_
      rcases hre with htouched | hre
      · obtain ⟨as, hlog, ha⟩ := htouched.log
        refine .inr ?_
        rw [hlog, flows_append, flows_of_not_shows (not_shows_of_touches ha), List.append_nil]
      · exact .inl (hfresh hre)
    · exact wp_mono hinner (fun _ _ hi hb => absurd (hstarts hi hb) hc)
        fun _ _ hi hb => absurd (hstarts hi hb) hc

theorem Apart.command {b : Bool} (h : Apart signs starts d.shared)
    (happ : Isolating app signs starts n kinds) (hsep : Separate app signs hashing)
    (hkept : KeepsSessions app) (ha : Screened app ins L) (hr : d.shared.running = true)
    (hhand : handed d c = some (b, t)) :
    Apart signs starts (finish (app.handler c b t)).shared := by
  have hlive := h.handed_live hhand
  have hopen := not_mem_of_live hlive
  have hoffered := h.handed_offered hhand
  have hentered : t.shared.currentInstruction = ConcordiumLedger.live (sessionLog t.shared.log) := by
    rw [hlive, (handing hhand).instruction]
  have hins {j : UInt8} (hj : ConcordiumLedger.live (sessionLog t.shared.log) = some j) :
      j = c.ins := by
    rw [hlive] at hj
    exact (Option.some.inj hj).symm
  have hcur {s' : Shared} (hk : SessionKept t.shared s') {j : UInt8}
      (hj : s'.currentInstruction = some j) : j = c.ins := by
    have hj' := hk j hj
    rw [(handing hhand).instruction] at hj'
    exact (Option.some.inj hj').symm
  have hinner := (happ.framed.handler c b).holds t
  have hlives := (hsep.lives.handler c b).holds t
  have hkeeps := (hkept.handler c b).holds t
  have hall {K : ScreenKind → Prop} (hshown : wp (app.handler c b)
      (fun _ t' => Ended K t.shared t'.shared) (fun _ t' => Shown K t.shared t'.shared) t) :
      wp (app.handler c b) (fun _ t' => Served K t.shared t'.shared)
        (fun _ t' => Served K t.shared t'.shared) t := by
    refine wp_mono (wp_and hinner (wp_and hlives (wp_and hkeeps hshown))) ?_ ?_
    · exact fun _ _ ht => ⟨ht.1, ht.2.1, ht.2.2.1, ht.2.2.2⟩
    · exact fun _ t' ht => ⟨ht.1, ht.2.1, ht.2.2.1, t'.shared, ht.2.2.2, .inl rfl⟩
  by_cases hsign : signs c.ins
  · have hfresh := h.handler_fresh happ hr hhand hsign
    refine finish_of_wp (P := fun t => Apart signs starts t.shared)
      (wp_mono (wp_and (hall (ha.handler c b t)) hfresh) (fun _ t' ht' => ?_) fun e t' ht' => ?_)
    · obtain ⟨hc, hfresh⟩ := ht'
      have hready {j : UInt8} (hj : j = c.ins) : signs j ∧
          (BeganWith starts (sessionLog t'.shared.log) → Fresh j t'.shared) := by
        subst hj
        exact ⟨hsign, hfresh⟩
      exact {
        live := hc.live hentered
        within := hc.within hopen
        offered := hc.offered hoffered fun _ _ _ j hj => hready (hins hj)
        signing := fun _ j hj _ hb => (hready (hcur hc.kept hj)).2 hb
        closing := fun _ j hj hn => absurd (hready (hcur hc.kept hj)).1 hn }
    · obtain ⟨hc, hfresh⟩ := ht'
      refine .caught (hc.live hentered) (hc.within hopen)
        (hc.offered hoffered fun hflows _ _ j hj => ?_) e
      rw [hins hj]
      exact ⟨hsign, fun hb => (hfresh hb).resolve_right hflows⟩
  · have hoff {s' : Shared} (hc : Served Closes t.shared s') : OfferedIn signs starts s' := by
      refine hc.offered hoffered fun _ hscreen hs _ _ => ?_
      rw [not_offersSign_of_closing hscreen.closing] at hs
      cases hs
    have hsettles := (hsep.settles c b hsign).holds t
    refine finish_of_wp (P := fun t => Apart signs starts t.shared)
      (wp_mono (wp_and (hall ((happ.closes c b hsign).holds t)) hsettles) (fun _ t' ht' => ?_)
        fun e t' ht' => ?_)
    · obtain ⟨hc, hsettled⟩ := ht'
      exact {
        live := hc.live hentered
        within := hc.within hopen
        offered := hoff hc
        signing := fun _ j hj hs => absurd (hcur hc.kept hj ▸ hs) hsign
        closing := fun _ j hj _ => hsettled.resolve_left (by simp [hj]) }
    · exact .caught (ht'.1.live hentered) (ht'.1.within hopen) (hoff ht'.1) e

theorem Apart.step {ev : Event} (h : Apart signs starts d.shared)
    (happ : Isolating app signs starts n kinds) (hsep : Separate app signs hashing)
    (hkept : KeepsSessions app) (ha : Screened app ins L) (hs : step app d ev = some d')
    (hc : HashesOnScreen hashing d ev) : Apart signs starts d'.shared := by
  cases ev with
  | command c =>
    have hr := (step_command hs).1
    cases hhand : handed d c with
    | none =>
      obtain ⟨-, e, -, hshared⟩ := step_refused hhand hs
      have hreceived : Apart signs starts (receivedCommand d).shared := ⟨h.live, h.within, h.offered,
        h.signing, h.closing⟩
      rw [hshared]
      exact .caught hreceived.live hreceived.within hreceived.offered e
    | some p =>
      obtain ⟨b, t⟩ := p
      rw [step_handed hhand hs]
      exact h.command happ hsep hkept ha hr hhand
  | press k =>
    obtain ⟨hr, rfl⟩ := step_press hs
    by_cases hcb : (d.shared.pressed k).isShared = true
    · refine h.passed (ha.shared _ hcb d) ?_
      exact (hsep.lives.callback _).finish
        (fun _ _ e h hl => (Frame.caught e _ : LiveLogged _ _) (h hl)) d
    · exact h.press happ hsep hkept ha hr (by simpa using hcb) fun hhash => (hc hhash).1
  | noApdu =>
    unfold ConcordiumLedger.step at hs
    split at hs
    · cases hs
      have hreceived : Apart signs starts (received d).shared := ⟨h.live, h.within, h.offered,
        h.signing, h.closing⟩
      have hcaught := Apart.caught hreceived.live hreceived.within hreceived.offered .noApduReceived
      exact hcaught
    · cases hs

end Step

/-! ## Runs -/

section Runs

variable {sdk : Sdk} {app : App μ} {own : Callback → Fw μ PUnit} {ins : UInt8}
  {L : ScreenKind → Prop} {n : Nat} {kinds : List (UInt8 × List UInt8)} {d : Device μ}

theorem Fresh.startsFresh (h : Fresh i s) : startsFresh i (sessionLog s.log) = true := fresh_iff.mp h

/-- A transaction signature on a screen that came up in a session of `i`, which was begun as `starts`
says and after which no other session was opened, is of that session. -/
def SignsOneSession (signs : UInt8 → Prop) (starts : Apdu → Prop) (d d' : Device μ) : Prop :=
  ∀ path input, .signed path input ∈ newActions d.shared d'.shared →
    ∀ i, UpIn i d.shared → Unopened d.shared → BeganWith starts (screenSession d.shared) →
      signs i ∧ OneSession i d.shared input

/-- Over all sequences of commands and presses. -/
theorem signed_in_one_session (happ : Isolating app signs starts n kinds)
    (hsep : Separate app signs hashing) (hcb : app.callback = sharedCallback sdk own)
    (ha : Screened app ins L) (hkept : KeepsSessions app)
    (hframed : Framed app (fun _ => HashLogged) (fun _ => HashLogged) HashLogged)
    (hd : Booted d) (hh : d.shared.hash = hashed d.shared.log) {events : List Event}
    (h : Always (step app) (fun d ev _ => HashesOnScreen hashing d ev) d events) :
    Always (step app) (fun d _ d' => SignsOneSession signs starts d d') d events := by
  refine (always_and.mp ((Always.congr_of_invariant
    (I := fun d => Coherent d ∧ Apart signs starts d.shared)
    (P := fun d ev d' => HashesOnScreen hashing d ev ∧ SignsOneSession signs starts d d')
    (Q := fun d ev _ => HashesOnScreen hashing d ev) (fun d ev d' hI hs => ?_)
    ⟨⟨hh, .of_not_offersSign ?_⟩, ?_⟩).mpr h)).2
  · obtain ⟨hcoherent, hapart⟩ := hI
    obtain ⟨hcoherent', hpressed⟩ := hcoherent.step hcb ha hframed hs
    refine ⟨⟨And.left, fun hc => ⟨hc, fun path input hmem i hup hopens hbegan => ?_⟩⟩,
      fun hc => ⟨hcoherent', hapart.step happ hsep hkept ha hs hc⟩⟩
    have hsigned := hpressed path input hmem
    obtain ⟨k, -, hk⟩ := hsigned.pressed
    obtain ⟨hcame, hsession⟩ := hup.sessions hopens
    rw [hsession] at hbegan
    obtain ⟨hsign, hfresh⟩ := hapart.offered (offersSign_of_pressed hk) i hcame
    have hready := hfresh hbegan
    refine ⟨hsign, ?_, ?_, ?_⟩
    · rw [hsession]
      exact hready.startsFresh
    · rw [hsession]
      exact hapart.within
    · rw [hsession, hsigned.input_eq]
      exact hready.hashed
  · rw [hd.display]
    exact offersSign_menu
  · have hsession : sessionLog d.shared.log = d.shared.log := by
      rw [hd.log]
      rfl
    constructor
    · rw [hsession, hd.log]
      exact hd.instruction
    · rw [hsession, hd.log]
      decide
    · refine .of_closing ?_
      rw [hd.display]
      decide
    · intro _ j hj
      rw [hd.instruction] at hj
      cases hj
    · intro _ j hj
      rw [hd.instruction] at hj
      cases hj

end Runs

end ConcordiumLedger
