import ConcordiumLedger.Common.Frames
import ConcordiumLedger.Common.Presses

/-!
# Common.Screens

What a handler or a callback leaves on the display: it reads and hashes, and then puts up one screen
or sends one reply, if it does either.

* `Touched`  — only the hash, the path and the texts have changed.
* `Shown K`  — then a screen of the kinds `K` has come up, or a reply was sent.
* `Ended K`  — then it may wait for a button.
* `handed`   — the state in which the handler runs for a command, if the loop does not refuse it.
-/

namespace ConcordiumLedger

open CMem CProg CProg.Prog

variable {μ : Type} {K : ScreenKind → Prop}

/-! ## Handlers and callbacks -/

/-- The actions that change what is signed. -/
def Action.touches : Action → Bool
  | .sha256Init | .updateHash _ | .parseKeyDerivationPath => true
  | _ => false

def Action.shows : Action → Bool
  | .uxFlowInit _ => true
  | _ => false

def Action.isSigned : Action → Bool
  | .signed _ _ => true
  | _ => false

theorem not_shows_of_touches {as : List Action} (h : ∀ a ∈ as, a.touches = true) :
    as.any Action.shows = false := by
  rw [List.any_eq_false]
  intro a ha hs
  have ht := h a ha
  cases a <;> simp_all [Action.touches, Action.shows]

/-- What is in the log of `s'` after the log of `s`. -/
def newActions (s s' : Shared) : List Action := s'.log.drop s.log.length

theorem newActions_of_log {s s' : Shared} {as : List Action} (h : s'.log = s.log ++ as) :
    newActions s s' = as := by
  rw [newActions, h, List.drop_left]

/-- All but the hash, the path and the sender. -/
structure Touched (s s' : Shared) : Prop where
  log : ∃ as, s'.log = s.log ++ as ∧ ∀ a ∈ as, a.touches = true
  display : s'.display = s.display
  replyOwed : s'.replyOwed = s.replyOwed
  instruction : s'.currentInstruction = s.currentInstruction
  running : s'.running = s.running
  asynchReply : s'.asynchReply = s.asynchReply

theorem Touched.of_act {s s' : Shared} {a : Action} (ha : a.touches = true)
    (hlog : s'.log = s.log ++ [a]) (hdisplay : s'.display = s.display)
    (howed : s'.replyOwed = s.replyOwed) (hins : s'.currentInstruction = s.currentInstruction)
    (hrun : s'.running = s.running) (hasynch : s'.asynchReply = s.asynchReply) : Touched s s' where
  log := ⟨[a], hlog, by simpa using ha⟩
  display := hdisplay
  replyOwed := howed
  instruction := hins
  running := hrun
  asynchReply := hasynch

theorem Touched.refl (s : Shared) : Touched s s := ⟨⟨[], by simp, by simp⟩, rfl, rfl, rfl, rfl, rfl⟩

theorem Touched.trans {s s' s'' : Shared} (h : Touched s s') (h' : Touched s' s'') :
    Touched s s'' := by
  obtain ⟨as, hl, ha⟩ := h.log
  obtain ⟨as', hl', ha'⟩ := h'.log
  refine ⟨⟨as ++ as', by rw [hl', hl, List.append_assoc], ?_⟩, h'.display.trans h.display,
    h'.replyOwed.trans h.replyOwed, h'.instruction.trans h.instruction,
    h'.running.trans h.running, h'.asynchReply.trans h.asynchReply⟩
  intro a hmem
  rcases List.mem_append.mp hmem with hmem | hmem
  · exact ha a hmem
  · exact ha' a hmem

instance : Steady Touched where
  refl := .refl
  trans := .trans
  updateHash _ _ := .of_act (a := .updateHash _) rfl rfl rfl rfl rfl rfl rfl
  sender s _ := ⟨⟨[], by simp, by simp⟩, rfl, rfl, rfl, rfl, rfl⟩

instance : Inits Touched where
  sha256Init _ := .of_act (a := .sha256Init) rfl rfl rfl rfl rfl rfl rfl

instance (cdata : Ptr) : Loads Touched cdata := by
  refine ⟨fun γ => ⟨fun t => ?_⟩⟩
  rw [wp_parseKeyDerivationPath]
  exact ⟨fun _ => .of_act (a := .parseKeyDerivationPath) rfl rfl rfl rfl rfl rfl rfl,
    fun _ => .of_act (a := .parseKeyDerivationPath) rfl rfl rfl rfl rfl rfl rfl⟩

inductive Shown (K : ScreenKind → Prop) (s : Shared) : Shared → Prop where
  | touched {m : Shared} (h : Touched s m) : Shown K s m
  | screen {m : Shared} (h : Touched s m) {k : ScreenKind} {flow : List Step} (hk : K k)
      (honly : Only k.callbacks flow) : Shown K s (m.uxFlowInit flow)
  | replied {m : Shared} (h : Touched s m) (data : List UInt8) : Shown K s (m.reply data success)
  | finished {m : Shared} (h : Touched s m) (data : List UInt8) {k : ScreenKind} {flow : List Step}
      (hk : K k) (honly : Only k.callbacks flow) :
      Shown K s (((m.reply data success).setInstruction none).uxFlowInit flow)
  | loading {m : Shared} (h : Touched s m) (data : List UInt8) {flow : List Step}
      (honly : Only [.none] flow) : Shown K s ((m.uxFlowInit flow).reply data success)

def Ended (K : ScreenKind → Prop) (s s' : Shared) : Prop :=
  ∃ m, Shown K s m ∧ (s' = m ∨ s' = { m with asynchReply := true })

theorem Shown.comp {s s' s'' : Shared} (h : Touched s s') (h' : Shown K s' s'') : Shown K s s'' := by
  cases h' with
  | touched h' => exact .touched (h.trans h')
  | screen h' hk honly => exact .screen (h.trans h') hk honly
  | replied h' data => exact .replied (h.trans h') data
  | finished h' data hk honly => exact .finished (h.trans h') data hk honly
  | loading h' data honly => exact .loading (h.trans h') data honly

instance : Screens K Touched (Shown K) where
  weaken := .touched
  comp := .comp
  screen s _ _ := .screen (.refl s)
  reply s := .replied (.refl s)
  finished s data _ _ := .finished (.refl s) data
  loading s data _ := .loading (.refl s) data

instance : Waits Touched (Shown K) (Ended K) where
  weaken h := ⟨_, h, .inl rfl⟩
  comp h := by
    rintro ⟨m, hm, heq⟩
    exact ⟨m, .comp h hm, heq⟩
  wait h := ⟨_, h, .inr rfl⟩

/-! ## Commands -/

/-- The loop refuses commands of another class, and of another instruction than the current one. -/
def handed (d : Device μ) (c : Apdu) : Option (Bool × Device μ) :=
  if c.cla = 0xE0 then
    match d.shared.currentInstruction with
    | none => some (true, opened d c)
    | some ins => if ins = c.ins then some (false, entered d c) else none
  else none

theorem step_refused {app : App μ} {d d' : Device μ} {c : Apdu} (hn : handed d c = none)
    (h : step app d (.command c) = some d') :
    d'.ctx = d.ctx ∧ ∃ e, e.isCaught = true ∧ d'.shared = catchOther e (receivedCommand d).shared := by
  have hfinish {e : Error} (hx : dispatch app c (receivedCommand d) = .thrown e (receivedCommand d)) :
      d' = ⟨d.ctx, catchOther e (receivedCommand d).shared⟩ := by
    unfold step at h
    split at h
    · simp only [hx, finish, Option.some.injEq] at h
      exact h.symm
    · cases h
  by_cases hcla : c.cla = 0xE0
  · rw [handed, if_pos hcla] at hn
    cases hi : d.shared.currentInstruction with
    | none => simp [hi] at hn
    | some ins =>
      have hne : ¬ ins = c.ins := by
        intro heq
        simp [hi, heq] at hn
      have hx : dispatch app c (receivedCommand d) = .thrown .invalidState (receivedCommand d) := by
        have hr : (receivedCommand d).shared.currentInstruction = some ins := hi
        unfold dispatch
        rw [Fw.throwIf, if_neg (by rw [hcla]; simp)]
        show (match (receivedCommand d).shared.currentInstruction with
          | none => _
          | some ins => _ : Fw μ PUnit) (receivedCommand d) = _
        rw [hr]
        show Prog.bind (Fw.throwIf (ins ≠ c.ins) .invalidState) _ (receivedCommand d) = _
        rw [Fw.throwIf, if_pos hne]
        rfl
      rw [hfinish hx]
      exact ⟨rfl, .invalidState, rfl, rfl⟩
  · rw [hfinish (dispatch_cla app hcla)]
    exact ⟨rfl, .invalidCla, rfl, rfl⟩

theorem step_handed {app : App μ} {d d' t : Device μ} {c : Apdu} {b : Bool}
    (hs : handed d c = some (b, t)) (h : step app d (.command c) = some d') :
    d' = finish (app.handler c b t) := by
  unfold step at h
  split at h
  · have heq : dispatch app c (receivedCommand d) = app.handler c b t := by
      unfold handed at hs
      split at hs
      · rename_i hcla
        cases hi : d.shared.currentInstruction with
        | none =>
          simp only [hi, Option.some.injEq, Prod.mk.injEq] at hs
          obtain ⟨rfl, rfl⟩ := hs
          exact dispatch_opened app hi hcla
        | some ins =>
          simp only [hi] at hs
          split at hs
          · rename_i hins
            cases hs
            exact dispatch_eq app (by rw [hi, hins]) hcla
          · cases hs
      · cases hs
    rw [← heq]
    exact (Option.some.inj h).symm
  · cases h

/-- The state in which the handler runs differs in the reply that is owed now and in the log. -/
structure Handing (d : Device μ) (c : Apdu) (b : Bool) (t : Device μ) : Prop where
  ctx : t.ctx = d.ctx
  display : t.shared.display = d.shared.display
  replyOwed : t.shared.replyOwed = true
  instruction : t.shared.currentInstruction = some c.ins
  running : t.shared.running = d.shared.running
  log : t.shared.log = d.shared.log ++
    (if b = true then [.setInstruction (some c.ins)] else []) ++ [.handler c.ins c.p1 c.p2 c.data]
  initial : b = true ↔ d.shared.currentInstruction = none

theorem handing {d t : Device μ} {c : Apdu} {b : Bool} (h : handed d c = some (b, t)) :
    Handing d c b t := by
  unfold handed at h
  split at h
  · cases hi : d.shared.currentInstruction with
    | none =>
      simp only [hi, Option.some.injEq, Prod.mk.injEq] at h
      obtain ⟨rfl, rfl⟩ := h
      exact ⟨rfl, rfl, rfl, rfl, rfl, rfl, by simp [hi]⟩
    | some ins =>
      simp only [hi] at h
      split at h
      · rename_i hins
        cases h
        refine ⟨rfl, rfl, rfl, by rw [← hins]; exact hi, rfl, ?_, by simp [hi]⟩
        simp [entered]
      · cases h
  · cases h

/-! ## Applications -/

/-- The handlers and the own callbacks show at most one screen. Screens of the kinds `L` only come
up with a command of the instruction `ins`. -/
structure Screened (app : App μ) (ins : UInt8) (L : ScreenKind → Prop) : Prop where
  handler : ∀ (c : Apdu) (b : Bool) (t : Device μ), wp (app.handler c b)
    (fun _ t' => Ended (fun k => L k → c.ins = ins) t.shared t'.shared)
    (fun _ t' => Shown (fun k => L k → c.ins = ins) t.shared t'.shared) t
  shared : ∀ cb, cb.isShared = true → ∀ t, Passed t (finish (app.callback cb t))
  own : ∀ cb, cb.isShared = false → ∀ t : Device μ, wp (app.callback cb)
    (fun _ t' => Shown (¬ L ·) t.shared t'.shared) (fun _ t' => Shown (¬ L ·) t.shared t'.shared) t

end ConcordiumLedger
