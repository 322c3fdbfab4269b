import ConcordiumLedger.Common.MainHelpers
import ConcordiumLedger.Common.Observations

/-!
# Common.Rules

How to reason about the functions of the firmware.

* `Fw.wp_…` — the weakest precondition of each primitive.
* `lockStep_command`, `lockStep_press`, `begins_handler` — what an event of a session does, in
  terms of the handler or the callback that it runs.
* `lockStep_view` — a session of one instruction, seen on the context of that instruction only.
-/

namespace ConcordiumLedger

open CMem CProg CProg.Prog

variable {μ γ : Type} {α : Type}

/-! ## Primitives -/

namespace Fw

variable {Q : α → Device γ → Prop} {U : PUnit → Device γ → Prop} {E : Error → Device γ → Prop}
  {d : Device γ}

@[simp] theorem wp_throw (e : Error) : wp (throw e : Fw γ α) Q E d ↔ E e d := Iff.rfl

@[simp] theorem wp_throwIf (c : Prop) [Decidable c] (e : Error) :
    wp (throwIf c e : Fw γ PUnit) U E d ↔ (c → E e d) ∧ (¬ c → U ⟨⟩ d) :=
  wp_ite c _ _

@[simp] theorem wp_when (c : Prop) [Decidable c] (x : Fw γ PUnit) :
    wp (when c x) U E d ↔ (c → wp x U E d) ∧ (¬ c → U ⟨⟩ d) :=
  wp_ite c _ _

@[simp] theorem wp_getCtx {Q : γ → Device γ → Prop} : wp getCtx Q E d ↔ Q d.ctx d := Iff.rfl

@[simp] theorem wp_getShared {Q : Shared → Device γ → Prop} :
    wp getShared Q E d ↔ Q d.shared d := Iff.rfl

@[simp] theorem wp_modifyCtx (f : γ → γ) :
    wp (modifyCtx f) U E d ↔ U ⟨⟩ ⟨f d.ctx, d.shared⟩ := Iff.rfl

@[simp] theorem wp_modifyShared (f : Shared → Shared) :
    wp (modifyShared f) U E d ↔ U ⟨⟩ ⟨d.ctx, f d.shared⟩ := Iff.rfl

@[simp] theorem wp_eval (r : Except Error α) :
    wp (eval r : Fw γ α) Q E d ↔ (∀ a, r = .ok a → Q a d) ∧ (∀ e, r = .error e → E e d) :=
  wp_ofExcept r

@[simp] theorem wp_ensureNoError (r : Option α) :
    wp (ensureNoError r : Fw γ α) Q E d ↔
      (∀ a, r = some a → Q a d) ∧ (r = none → E .failedCxOperation d) := by
  cases r with
  | none => simp only [reduceCtorEq, false_implies, implies_true, true_and, true_implies]; rfl
  | some a => simp only [Option.some.injEq, forall_eq', reduceCtorEq, false_implies, and_true]; rfl

@[simp] theorem wp_on {Q : α → Device μ → Prop} {E : Error → Device μ → Prop} {d : Device μ}
    (m : Member μ γ) (x : Fw γ α) :
    wp (Fw.on m x) Q E d ↔
      wp x (fun a t => Q a ⟨m.set t.ctx d.ctx, t.shared⟩)
        (fun e t => E e ⟨m.set t.ctx d.ctx, t.shared⟩) ⟨m.get d.ctx, d.shared⟩ :=
  wp_zoom _ _ x

end Fw

/-- The path that `parseKeyDerivationPath` loads. -/
@[simps]
def Shared.loadPath (cdata : Ptr) (s : Shared) : Shared :=
  let nodes := (List.range (cdata 0).toNat).map fun i => cdata.u4be (1 + i * 4)
  { s with
    path.pathLength := cdata 0
    path.rawKeyDerivationPath := setNodes nodes s.path.rawKeyDerivationPath
    path.keyDerivationPath :=
      setNodes (nodes.map (· ||| hardenedOffset)) s.path.keyDerivationPath
    log := s.log ++ [.parseKeyDerivationPath] }

@[simp] theorem screens_loadPath (cdata : Ptr) (s : Shared) :
    screens (s.loadPath cdata) = screens s := by
  simp [screens, sessionStep, flows]

@[simp] theorem wp_parseKeyDerivationPath {Q : Nat → Device γ → Prop}
    {E : Error → Device γ → Prop} {d : Device γ} (cdata : Ptr) :
    wp (parseKeyDerivationPath cdata) Q E d ↔
      (cdata 0 > 8 → E .invalidPath ⟨d.ctx, { d.shared.act .parseKeyDerivationPath with
        path.pathLength := cdata 0 }⟩) ∧
      (¬ cdata 0 > 8 → Q (1 + 4 * (cdata 0).toNat) ⟨d.ctx, d.shared.loadPath cdata⟩) := by
  simp only [parseKeyDerivationPath, wp_bind, Fw.wp_modifyShared, Fw.wp_throwIf, wp_pure]
  rfl

section Display

variable {U : PUnit → Device γ → Prop} {E : Error → Device γ → Prop} {d : Device γ}

@[simp] theorem wp_cxSha256Init :
    wp cxSha256Init U E d ↔ U ⟨⟩ ⟨d.ctx, d.shared.sha256Init⟩ := Iff.rfl

@[simp] theorem wp_updateHash (cdata : Ptr) (len : Nat) :
    wp (updateHash cdata len) U E d ↔
      U ⟨⟩ ⟨d.ctx, d.shared.updateHash (cdata.slice len)⟩ := Iff.rfl

@[simp] theorem wp_uxFlowInit (flow : Device γ → List Step) :
    wp (uxFlowInit flow) U E d ↔ U ⟨⟩ ⟨d.ctx, d.shared.uxFlowInit (flow d)⟩ := Iff.rfl

@[simp] theorem wp_waitForButton :
    wp waitForButton U E d ↔ U ⟨⟩ ⟨d.ctx, { d.shared with asynchReply := true }⟩ := Iff.rfl

@[simp] theorem wp_sendSuccessResultNoIdle (data : List UInt8) :
    wp (sendSuccessResultNoIdle data) U E d ↔
      U ⟨⟩ ⟨d.ctx, d.shared.reply data success⟩ := Iff.rfl

@[simp] theorem wp_sendSuccessNoIdle :
    wp sendSuccessNoIdle U E d ↔ U ⟨⟩ ⟨d.ctx, d.shared.reply [] success⟩ := Iff.rfl

@[simp] theorem wp_uiIdle :
    wp uiIdle U E d ↔
      U ⟨⟩ ⟨d.ctx, (d.shared.setInstruction none).uxFlowInit uxMenuIdleFlow⟩ := Iff.rfl

end Display

/-! ## Two runs of the same function -/

section Two

universe u

variable {β : Type u} {Q : β → β → Device γ → Device γ → Prop} {s t : Device γ}
  {k l : PUnit.{u + 1} → Fw γ β}

@[simp] theorem wp₂_getCtx {β : Type} {Q : β → β → Device γ → Device γ → Prop}
    {k l : γ → Fw γ β} :
    wp₂ (Fw.getCtx >>= k) (Fw.getCtx >>= l) Q s t ↔ wp₂ (k s.ctx) (l t.ctx) Q s t := Iff.rfl

@[simp] theorem wp₂_modifyCtx (f g : γ → γ) :
    wp₂ (Fw.modifyCtx f >>= k) (Fw.modifyCtx g >>= l) Q s t ↔
      wp₂ (k ⟨⟩) (l ⟨⟩) Q ⟨f s.ctx, s.shared⟩ ⟨g t.ctx, t.shared⟩ := Iff.rfl

@[simp] theorem wp₂_updateHash (p q : Ptr) (m n : Nat) :
    wp₂ (updateHash p m >>= k) (updateHash q n >>= l) Q s t ↔
      wp₂ (k ⟨⟩) (l ⟨⟩) Q ⟨s.ctx, s.shared.updateHash (p.slice m)⟩
        ⟨t.ctx, t.shared.updateHash (q.slice n)⟩ := Iff.rfl

@[simp] theorem wp₂_cxSha256Init :
    wp₂ (cxSha256Init >>= k) (cxSha256Init >>= l) Q s t ↔
      wp₂ (k ⟨⟩) (l ⟨⟩) Q ⟨s.ctx, s.shared.sha256Init⟩ ⟨t.ctx, t.shared.sha256Init⟩ := Iff.rfl

@[simp] theorem wp₂_uxFlowInit_bind (f g : Device γ → List Step) :
    wp₂ (uxFlowInit f >>= k) (uxFlowInit g >>= l) Q s t ↔
      wp₂ (k ⟨⟩) (l ⟨⟩) Q ⟨s.ctx, s.shared.uxFlowInit (f s)⟩
        ⟨t.ctx, t.shared.uxFlowInit (g t)⟩ := Iff.rfl

section Last

variable {Q : PUnit.{u + 1} → PUnit.{u + 1} → Device γ → Device γ → Prop}

@[simp] theorem wp₂_lastModifyCtx (f g : γ → γ) :
    wp₂ (Fw.modifyCtx f) (Fw.modifyCtx g) Q s t ↔
      Q ⟨⟩ ⟨⟩ ⟨f s.ctx, s.shared⟩ ⟨g t.ctx, t.shared⟩ := Iff.rfl

@[simp] theorem wp₂_uxFlowInit (f g : Device γ → List Step) :
    wp₂ (uxFlowInit f) (uxFlowInit g) Q s t ↔
      Q ⟨⟩ ⟨⟩ ⟨s.ctx, s.shared.uxFlowInit (f s)⟩ ⟨t.ctx, t.shared.uxFlowInit (g t)⟩ := Iff.rfl

@[simp] theorem wp₂_sendSuccessNoIdle :
    wp₂ sendSuccessNoIdle sendSuccessNoIdle Q s t ↔
      Q ⟨⟩ ⟨⟩ ⟨s.ctx, s.shared.reply [] success⟩ ⟨t.ctx, t.shared.reply [] success⟩ := Iff.rfl

@[simp] theorem wp₂_waitForButton :
    wp₂ waitForButton waitForButton Q s t ↔
      Q ⟨⟩ ⟨⟩ ⟨s.ctx, { s.shared with asynchReply := true }⟩
        ⟨t.ctx, { t.shared with asynchReply := true }⟩ := Iff.rfl

theorem wp₂_when {c d : Prop} [Decidable c] [Decidable d] {x y : Fw γ PUnit.{u + 1}} (hcd : c ↔ d)
    (hthen : c → wp₂ x y Q s t) (helse : ¬ c → Q ⟨⟩ ⟨⟩ s t) :
    wp₂ (Fw.when c x) (Fw.when d y) Q s t :=
  wp₂_ite hcd hthen helse

end Last

@[simp] theorem wp₂_throw {β : Type} {Q : β → β → Device γ → Device γ → Prop} (e e' : Error) :
    wp₂ (Fw.throw e) (Fw.throw e') Q s t ↔ True := Iff.rfl

theorem wp₂_throwIf {c d : Prop} [Decidable c] [Decidable d] {e e' : Error} (hcd : c ↔ d)
    (h : ¬ c → wp₂ (k ⟨⟩) (l ⟨⟩) Q s t) :
    wp₂ (Fw.throwIf c e >>= k) (Fw.throwIf d e' >>= l) Q s t :=
  wp₂_bind (wp₂_ite hcd (fun _ => trivial) h)

theorem wp₂_eval {β : Type} {Q : β → β → Device γ → Device γ → Prop} {r r' : Except Error α}
    {k l : α → Fw γ β} (hr : r.isOk = r'.isOk)
    (h : ∀ a b, r = .ok a → r' = .ok b → wp₂ (k a) (l b) Q s t) :
    wp₂ (Fw.eval r >>= k) (Fw.eval r' >>= l) Q s t := by
  cases r with
  | error e =>
    cases r' with
    | error e' => trivial
    | ok b => cases hr
  | ok a =>
    cases r' with
    | error e' => cases hr
    | ok b => exact h a b rfl rfl

theorem wp₂_parseKeyDerivationPath {β : Type} {Q : β → β → Device γ → Device γ → Prop}
    {k l : Nat → Fw γ β} (cdata : Ptr)
    (h : wp₂ (k (1 + 4 * (cdata 0).toNat)) (l (1 + 4 * (cdata 0).toNat)) Q
      ⟨s.ctx, s.shared.loadPath cdata⟩ ⟨t.ctx, t.shared.loadPath cdata⟩) :
    wp₂ (parseKeyDerivationPath cdata >>= k) (parseKeyDerivationPath cdata >>= l) Q s t := by
  refine wp₂_bind (wp₂_iff_wp.mpr ?_)
  simp only [wp_parseKeyDerivationPath]
  exact ⟨fun hc => ⟨fun _ => trivial, fun hn => hn hc⟩, fun hn => ⟨fun hc => hn hc, fun _ => h⟩⟩

end Two

/-! ## Hashing -/

/-- All that happens between the two states is that `bytes` are hashed. -/
structure Hashes (bytes : List UInt8) (s s' : Shared) : Prop where
  hash : s'.hash = s.hash ++ bytes
  screens : screens s' = screens s
  display : s'.display = s.display
  instruction : s'.currentInstruction = s.currentInstruction
  replyOwed : s'.replyOwed = s.replyOwed
  running : s'.running = s.running

namespace Hashes

variable {s s' s'' : Shared} {a b : List UInt8}

theorem nil (s : Shared) : Hashes [] s s :=
  ⟨(List.append_nil _).symm, rfl, rfl, rfl, rfl, rfl⟩

theorem update (s : Shared) (bytes : List UInt8) : Hashes bytes s (s.updateHash bytes) :=
  ⟨rfl, screens_updateHash s bytes, rfl, rfl, rfl, rfl⟩

theorem trans (h : Hashes a s s') (h' : Hashes b s' s'') : Hashes (a ++ b) s s'' where
  hash := by rw [h'.hash, h.hash, List.append_assoc]
  screens := h'.screens.trans h.screens
  display := h'.display.trans h.display
  instruction := h'.instruction.trans h.instruction
  replyOwed := h'.replyOwed.trans h.replyOwed
  running := h'.running.trans h.running

end Hashes

/-! ## Transaction headers -/

/-- The account transaction header of a command that begins with a key path. -/
def headerOf (cdata : Ptr) : List UInt8 := (cdata.advance (1 + 4 * (cdata 0).toNat)).slice 60

/-- What comes after the header and the transaction kind. -/
def payloadOf (cdata : Ptr) : Ptr := cdata.advance (1 + 4 * (cdata 0).toNat + 61)

theorem headerOf_length (cdata : Ptr) : (headerOf cdata).length = 60 := Ptr.slice_length _ _

/-- The key path, the header and the kind were read from a command that begins with them. -/
structure HeaderHashed (cdata : Ptr) (kind : UInt8) (s s' : Shared) : Prop where
  hash : s'.hash = headerOf cdata ++ [kind]
  log : s'.log = s.log ++ [.parseKeyDerivationPath, .sha256Init, .updateHash (headerOf cdata),
    .updateHash [kind]]
  display : s'.display = s.display
  instruction : s'.currentInstruction = s.currentInstruction
  replyOwed : s'.replyOwed = s.replyOwed
  running : s'.running = s.running

section Header

variable {E : Error → Device γ → Prop} {d : Device γ}

theorem slice_one (p : Ptr) : p.slice 1 = [p 0] := rfl

/-- Reading a header, as most instructions begin. -/
theorem wp_header {Q : Nat → Device γ → Prop} {sdk : Sdk} {cdata : Ptr} {kind : UInt8}
    (h : ∀ s', HeaderHashed cdata kind d.shared s' → Q 61 ⟨d.ctx, s'⟩) :
    wp (hashAccountTransactionHeaderAndKind sdk (cdata.advance (1 + 4 * (cdata 0).toNat)) kind) Q
      (fun _ _ => True) ⟨d.ctx, (d.shared.loadPath cdata).sha256Init⟩ := by
  simp only [hashAccountTransactionHeaderAndKind, hashHeaderAndType, wp_bind, Fw.wp_getShared,
    Fw.wp_eval, Fw.wp_modifyShared, wp_updateHash, Fw.wp_throwIf, wp_pure, implies_true,
    and_true, true_and]
  intro sender _ hk
  have hkind : (cdata.advance (1 + 4 * (cdata 0).toNat)).advance accountTransactionHeaderLength 0
      = kind := by simpa using hk
  apply h
  exact {
    hash := by simp [headerOf, accountTransactionHeaderLength, slice_one, ← hkind]
    log := by simp [headerOf, accountTransactionHeaderLength, slice_one, ← hkind]
    display := rfl
    instruction := rfl
    replyOwed := rfl
    running := rfl }

/-- Reading a header and the recipient. -/
theorem wp_headerAndToAddress {Q : Nat × Buffer 57 → Device γ → Prop} {sdk : Sdk} {cdata : Ptr}
    {kind : UInt8} {dst : Buffer 57}
    (h : ∀ s' recipient, HeaderHashed cdata kind d.shared s' →
      Q (1 + 4 * (cdata 0).toNat + 61 + 32, recipient)
        ⟨d.ctx, s'.updateHash ((payloadOf cdata).slice 32)⟩) :
    wp (handleHeaderAndToAddress sdk cdata kind dst) Q (fun _ _ => True) d := by
  simp only [handleHeaderAndToAddress, wp_bind, wp_parseKeyDerivationPath, wp_cxSha256Init,
    implies_true, true_and]
  intro _
  refine wp_header fun s' hs => ?_
  simp only [wp_bind, wp_updateHash, Fw.wp_eval, wp_pure, implies_true, and_true]
  intro recipient _
  have hp : (cdata.advance (1 + 4 * (cdata 0).toNat)).advance 61 = payloadOf cdata := by
    simp [payloadOf]
  rw [hp]
  exact h s' recipient hs

end Header

/-! ## Sessions -/

/-- The state in which the handler runs, after a command of a running session has arrived. -/
def entered (d : Device μ) (apdu : Apdu) : Device μ :=
  ⟨d.ctx, ({ d.shared with asynchReply := false, replyOwed := true } : Shared).act
    (.handler apdu.ins apdu.p1 apdu.p2 apdu.data)⟩

/-- The state in which the handler runs, after the first command of a session has arrived. -/
def opened (d : Device μ) (apdu : Apdu) : Device μ :=
  ⟨d.ctx, (({ d.shared with asynchReply := false, replyOwed := true } : Shared).setInstruction
    (some apdu.ins)).act (.handler apdu.ins apdu.p1 apdu.p2 apdu.data)⟩

@[simp] theorem screens_entered (d : Device μ) (apdu : Apdu) :
    screens (entered d apdu).shared = screens d.shared :=
  screens_handler _ _ _ _ _

@[simp] theorem screens_opened (d : Device μ) (apdu : Apdu) :
    screens (opened d apdu).shared = [] := by
  rw [opened, screens_handler, screens_setInstruction]

theorem accepted_eq_some {o : Outcome Error (Device μ) PUnit} {d : Device μ} :
    accepted o = some d ↔ o = .ok ⟨⟩ d := by
  cases o with
  | ok a t => simp [accepted]
  | thrown e t => simp [accepted]

theorem dispatch_none (app : App μ) (apdu : Apdu) {d d' : Device μ}
    (hi : d.shared.currentInstruction = none)
    (h : dispatch app apdu (receivedCommand d) = .ok ⟨⟩ d') :
    app.handler apdu true (opened d apdu) = .ok ⟨⟩ d' := by
  have hw : wp (dispatch app apdu)
      (fun _ t => app.handler apdu true (opened d apdu) = .ok ⟨⟩ t) (fun _ _ => True)
      (receivedCommand d) := by
    have hr : (receivedCommand d).shared.currentInstruction = none := hi
    unfold dispatch
    simp only [wp_bind, Fw.wp_throwIf, Fw.wp_getShared, implies_true, true_and]
    intro _
    rw [hr]
    simp only [wp_bind, Fw.wp_modifyShared]
    exact wp_of_run (fun _ t ht => ht) (fun _ _ _ => trivial)
  have hq := of_wp_ok hw h
  exact hq

theorem dispatch_some (app : App μ) (apdu : Apdu) {d d' : Device μ} {ins : UInt8}
    (hi : d.shared.currentInstruction = some ins)
    (h : dispatch app apdu (receivedCommand d) = .ok ⟨⟩ d') :
    app.handler apdu false (entered d apdu) = .ok ⟨⟩ d' := by
  have hw : wp (dispatch app apdu)
      (fun _ t => app.handler apdu false (entered d apdu) = .ok ⟨⟩ t) (fun _ _ => True)
      (receivedCommand d) := by
    have hr : (receivedCommand d).shared.currentInstruction = some ins := hi
    unfold dispatch
    simp only [wp_bind, Fw.wp_throwIf, Fw.wp_getShared, implies_true, true_and]
    intro _
    rw [hr]
    simp only [wp_bind, Fw.wp_throwIf, Fw.wp_modifyShared, implies_true, true_and]
    intro _
    exact wp_of_run (fun _ t ht => ht) (fun _ _ _ => trivial)
  have hq := of_wp_ok hw h
  exact hq

theorem begins_handler {app : App μ} {ins : UInt8} {d₀ d : Device μ} {apdu : Apdu}
    (h : begins app ins d₀ apdu d) :
    Idle d₀ ∧ apdu.ins = ins ∧ app.handler apdu true (opened d₀ apdu) = .ok ⟨⟩ d := by
  obtain ⟨hidle, hins, hacc⟩ := h
  exact ⟨hidle, hins, dispatch_none app apdu hidle.instruction (accepted_eq_some.mp hacc)⟩

/-- A command of a session has run the handler. -/
theorem lockStep_command {app : App μ} {d d' : Device μ} {apdu : Apdu}
    (h : lockStep app d (.command apdu) = some d') :
    d.shared.currentInstruction = some apdu.ins ∧ d.shared.running ∧
      d.shared.replyOwed = false ∧ app.handler apdu false (entered d apdu) = .ok ⟨⟩ d' := by
  unfold lockStep at h
  cases hi : d.shared.currentInstruction with
  | none => rw [hi] at h; cases h
  | some ins =>
    rw [hi] at h
    simp only at h
    split at h
    · rename_i hc
      obtain ⟨hr, ho, rfl⟩ := hc
      exact ⟨rfl, hr, by simpa using ho, dispatch_some app apdu hi (accepted_eq_some.mp h)⟩
    · cases h

/-- What the loop does with a command of the current instruction. -/
theorem dispatch_eq (app : App μ) {d : Device μ} {apdu : Apdu}
    (hi : d.shared.currentInstruction = some apdu.ins) (hcla : apdu.cla = 0xE0) :
    dispatch app apdu (receivedCommand d) = app.handler apdu false (entered d apdu) := by
  have hr : (receivedCommand d).shared.currentInstruction = some apdu.ins := hi
  unfold dispatch
  rw [Fw.throwIf, if_neg (by rw [hcla]; simp)]
  refine (bind_of_ok (a := PUnit.unit) (t := receivedCommand d) ?_).trans ?_
  · rfl
  refine (bind_of_ok (a := (receivedCommand d).shared) (t := receivedCommand d) ?_).trans ?_
  · rfl
  rw [hr]
  show Prog.bind (Fw.throwIf (apdu.ins ≠ apdu.ins) .invalidState) _ (receivedCommand d) = _
  rw [Fw.throwIf, if_neg (by simp)]
  rfl

/-- What the loop does with the first command of a session. -/
theorem dispatch_opened (app : App μ) {d : Device μ} {apdu : Apdu}
    (hi : d.shared.currentInstruction = none) (hcla : apdu.cla = 0xE0) :
    dispatch app apdu (receivedCommand d) = app.handler apdu true (opened d apdu) := by
  have hr : (receivedCommand d).shared.currentInstruction = none := hi
  unfold dispatch
  rw [Fw.throwIf, if_neg (by rw [hcla]; simp)]
  refine (bind_of_ok (a := PUnit.unit) (t := receivedCommand d) ?_).trans ?_
  · rfl
  refine (bind_of_ok (a := (receivedCommand d).shared) (t := receivedCommand d) ?_).trans ?_
  · rfl
  rw [hr]
  rfl

theorem dispatch_cla (app : App μ) {d : Device μ} {apdu : Apdu} (hcla : apdu.cla ≠ 0xE0) :
    dispatch app apdu d = .thrown .invalidCla d := by
  unfold dispatch
  rw [Fw.throwIf, if_pos hcla]
  rfl

/-- When a session takes a command. -/
theorem lockStep_command_iff {app : App μ} {d d' : Device μ} {apdu : Apdu}
    (hi : d.shared.currentInstruction = some apdu.ins) (hr : d.shared.running = true)
    (ho : d.shared.replyOwed = false) (hcla : apdu.cla = 0xE0) :
    lockStep app d (.command apdu) = some d' ↔
      app.handler apdu false (entered d apdu) = .ok ⟨⟩ d' := by
  refine ⟨fun h => (lockStep_command h).2.2.2, fun h => ?_⟩
  unfold lockStep
  rw [hi]
  simp only [hr, ho, dispatch_eq app hi hcla, h, accepted]
  rfl

/-- A press during a session has run the callback of the step. -/
theorem lockStep_press {app : App μ} {d d' : Device μ} {i : Nat}
    (h : lockStep app d (.press i) = some d') :
    d.shared.currentInstruction ≠ none ∧ d.shared.running ∧
      d' = finish (app.callback (d.shared.pressed i) d) := by
  unfold lockStep at h
  cases hi : d.shared.currentInstruction with
  | none => rw [hi] at h; cases h
  | some ins =>
    rw [hi] at h
    simp only at h
    split at h
    · rename_i hr; cases h; exact ⟨by simp, hr, rfl⟩
    · cases h

/-- One event of a session, in terms of what it runs. -/
def SessionStep (app : App μ) (d : Device μ) : Event → Device μ → Prop
  | .command apdu, d' =>
    d.shared.currentInstruction = some apdu.ins ∧ d.shared.running ∧
      d.shared.replyOwed = false ∧ app.handler apdu false (entered d apdu) = .ok ⟨⟩ d'
  | .press i, d' =>
    d.shared.currentInstruction ≠ none ∧ d.shared.running ∧
      d' = finish (app.callback (d.shared.pressed i) d)
  | .noApdu, _ => False

theorem lockStep_session {app : App μ} {d d' : Device μ} {ev : Event}
    (h : lockStep app d ev = some d') : SessionStep app d ev d' := by
  cases ev with
  | command apdu => exact lockStep_command h
  | press i => exact lockStep_press h
  | noApdu =>
    unfold lockStep at h
    cases hi : d.shared.currentInstruction <;> rw [hi] at h <;> cases h

theorem pressed_mem {cbs : List Callback} {s : Shared} (h : Only cbs s.display)
    (hn : .none ∈ cbs) (i : Nat) : s.pressed i ∈ cbs := by
  unfold Shared.pressed
  cases hi : s.display[i]? with
  | none => exact hn
  | some st => exact h st (List.mem_of_getElem? hi)

theorem uxMenuIdleFlow_only : Only [.none, .osSchedExit] uxMenuIdleFlow := by
  simp [Only, uxMenuIdleFlow]

/-! ## What a thrown error leaves -/

theorem finish_of_wp {x : Fw μ PUnit} {P : Device μ → Prop} {d : Device μ}
    (h : wp x (fun _ t => P t) (fun e t => P ⟨t.ctx, catchOther e t.shared⟩) d) :
    P (finish (x d)) := by
  unfold wp at h
  unfold finish
  cases hx : x d with
  | ok a t => rw [hx] at h; exact h
  | thrown e t => rw [hx] at h; exact h

section CatchOther

variable (e : Error) (s : Shared)

@[simp] theorem catchOther_display : (catchOther e s).display = s.display := by
  unfold catchOther; split
  · simp only; split <;> rfl
  · rfl

@[simp] theorem catchOther_hash : (catchOther e s).hash = s.hash := by
  unfold catchOther; split
  · simp only; split <;> rfl
  · rfl

@[simp] theorem catchOther_path : (catchOther e s).path = s.path := by
  unfold catchOther; split
  · simp only; split <;> rfl
  · rfl

theorem catchOther_instruction {i : UInt8} (h : (catchOther e s).currentInstruction = some i) :
    s.currentInstruction = some i := by
  unfold catchOther at h; split at h
  · simp only at h; split at h <;> cases h
  · exact h

/-- The session is over, or the device has reset. -/
theorem catchOther_ended (hr : (catchOther e s).running = true) :
    (catchOther e s).currentInstruction = none := by
  unfold catchOther at hr ⊢; split
  · simp only; split <;> rfl
  · rename_i hc; rw [if_neg hc] at hr; cases hr

@[simp] theorem catchOther_screens : screens (catchOther e s) = screens s := by
  unfold catchOther; split
  · simp only
    split <;> simp [screens, sessionStep, flows]
  · rfl

end CatchOther

/-! ## The view on one context -/

def Device.view (m : Member μ γ) (d : Device μ) : Device γ := ⟨m.get d.ctx, d.shared⟩

/-- `x` does to the device what `y` does to its view. -/
def Views (m : Member μ γ) (x : Fw μ PUnit) (y : Fw γ PUnit) : Prop :=
  ∀ d, y (d.view m) = match x d with
    | .ok a d' => .ok a (d'.view m)
    | .thrown e d' => .thrown e (d'.view m)

theorem Views.on (m : Member μ γ) (x : Fw γ PUnit) : Views m (Fw.on m x) x := by
  intro d
  show x ⟨m.get d.ctx, d.shared⟩ = _
  unfold Fw.on zoom
  cases x ⟨m.get d.ctx, d.shared⟩ <;> simp [Device.view]

theorem Views.buildAndSign (m : Member μ γ) (sdk : Sdk) :
    Views m (buildAndSignTransactionHash sdk) (buildAndSignTransactionHash sdk) := by
  intro d
  have hs : (d.view m).shared = d.shared := rfl
  unfold buildAndSignTransactionHash
  simp only [Bind.bind, Prog.bind, Fw.getShared, Prog.gets, hs]
  cases h : sdk.sign d.shared.path.nodes (sdk.sha256 d.shared.hash) <;> rfl

/-- What a function did to the device, it does to its own context. -/
theorem Fw.view_of_on {m : Member μ γ} {x : Fw γ PUnit} {d d' : Device μ} {a : PUnit}
    (h : Fw.on m x d = .ok a d') : x (d.view m) = .ok a (d'.view m) := by
  rw [Views.on m x d, h]

/-- The device after a function of one instruction has returned. -/
theorem Fw.on_ok {m : Member μ γ} {x : Fw γ α} {d : Device μ} {a : α} {t : Device γ}
    (h : x (d.view m) = .ok a t) : Fw.on m x d = .ok a ⟨m.set t.ctx d.ctx, t.shared⟩ := by
  have hd : x ⟨m.get d.ctx, d.shared⟩ = .ok a t := h
  unfold Fw.on zoom
  simp only [hd]

theorem Fw.on_thrown {m : Member μ γ} {x : Fw γ α} {d : Device μ} {e : Error} {t : Device γ}
    (h : x (d.view m) = .thrown e t) : Fw.on m x d = .thrown e ⟨m.set t.ctx d.ctx, t.shared⟩ := by
  have hd : x ⟨m.get d.ctx, d.shared⟩ = .thrown e t := h
  unfold Fw.on zoom
  simp only [hd]

/-- The callbacks that no instruction owns. -/
def Callback.isShared : Callback → Bool
  | .none | .sendSuccessNoIdle | .sendSuccess | .sendUserRejection | .buildAndSignTransactionHash
  | .uiIdle | .osSchedExit => true
  | _ => false

theorem Views.sharedCallback (m : Member μ γ) (sdk : Sdk) {own : Callback → Fw μ PUnit}
    {own' : Callback → Fw γ PUnit} {cb : Callback} (h : cb.isShared) :
    Views m (sharedCallback sdk own cb) (sharedCallback sdk own' cb) := by
  cases cb with
  | buildAndSignTransactionHash => exact Views.buildAndSign m sdk
  | none | sendSuccessNoIdle | sendSuccess | sendUserRejection | uiIdle | osSchedExit =>
    intro d; rfl
  | _ => cases h

theorem finish_view {m : Member μ γ} {x : Fw μ PUnit} {y : Fw γ PUnit} (h : Views m x y)
    (d : Device μ) : (finish (x d)).view m = finish (y (d.view m)) := by
  rw [h d]
  cases x d <;> rfl

/-- `loc` does on its context what `app` does for the instruction `ins` and the callbacks of
`own`. -/
structure Embeds (app : App μ) (m : Member μ γ) (loc : App γ) (ins : UInt8)
    (own : Callback → Prop) : Prop where
  handler : ∀ apdu b, apdu.ins = ins → Views m (app.handler apdu b) (loc.handler apdu b)
  callback : ∀ cb, own cb → Views m (app.callback cb) (loc.callback cb)

section Embeds

variable {app : App μ} {m : Member μ γ} {loc : App γ} {ins : UInt8} {own : Callback → Prop}

theorem Embeds.handler_ok (he : Embeds app m loc ins own) {apdu : Apdu} {b : Bool}
    {d d' : Device μ} (hins : apdu.ins = ins) (h : app.handler apdu b d = .ok ⟨⟩ d') :
    loc.handler apdu b (d.view m) = .ok ⟨⟩ (d'.view m) := by
  rw [he.handler apdu b hins d, h]

theorem Embeds.sessionStep (he : Embeds app m loc ins own) {d d' : Device μ} {ev : Event}
    (hins : ∀ i, d.shared.currentInstruction = some i → i = ins)
    (hown : ∀ i, ev = .press i → own (d.shared.pressed i)) (h : SessionStep app d ev d') :
    SessionStep loc (d.view m) ev (d'.view m) := by
  cases ev with
  | command apdu =>
    obtain ⟨hi, hr, ho, hh⟩ := h
    exact ⟨hi, hr, ho, he.handler_ok (d := entered d apdu) (hins _ hi) hh⟩
  | press i =>
    obtain ⟨hi, hr, rfl⟩ := h
    exact ⟨hi, hr, finish_view (he.callback _ (hown i rfl)) d⟩
  | noApdu => exact h

/-- A command of the session does to the device what it does to the context. -/
theorem Embeds.lockStep_view (he : Embeds app m loc ins own) (d : Device μ) {apdu : Apdu}
    (hins : apdu.ins = ins) (hcla : apdu.cla = 0xE0) :
    (lockStep app d (.command apdu)).map (Device.view m) =
      lockStep loc (d.view m) (.command apdu) := by
  have hv : (d.view m).shared = d.shared := rfl
  unfold lockStep
  rw [hv]
  cases hi : d.shared.currentInstruction with
  | none => rfl
  | some i =>
    by_cases hc : d.shared.running = true ∧ ¬ d.shared.replyOwed = true ∧ apdu.ins = i
    · have hi' : d.shared.currentInstruction = some apdu.ins := by rw [hi, hc.2.2]
      have hiv : (d.view m).shared.currentInstruction = some apdu.ins := hi'
      simp only [if_pos hc]
      rw [dispatch_eq app hi' hcla, dispatch_eq loc hiv hcla]
      show _ = accepted (loc.handler apdu false ((entered d apdu).view m))
      rw [he.handler apdu false hins (entered d apdu)]
      cases app.handler apdu false (entered d apdu) <;> rfl
    · simp only [if_neg hc, Option.map_none]

/-- The commands of a session do to the device what they do to the context. -/
theorem Embeds.exec_view (he : Embeds app m loc ins own) (d : Device μ) {cs : List Apdu}
    (hcs : ∀ c ∈ cs, c.ins = ins ∧ c.cla = 0xE0) :
    (Transition.exec (lockStep app) d (cs.map .command)).map (Device.view m) =
      Transition.exec (lockStep loc) (d.view m) (cs.map .command) := by
  induction cs generalizing d with
  | nil => rfl
  | cons c cs ih =>
    obtain ⟨hins, hcla⟩ := hcs c List.mem_cons_self
    simp only [List.map_cons, Transition.exec]
    rw [← he.lockStep_view d hins hcla]
    cases lockStep app d (.command c) with
    | none => rfl
    | some d' => exact ih d' fun c' hc' => hcs c' (List.mem_cons_of_mem _ hc')

/-- What the first command establishes and each event of the session keeps holds of the context
in every state of the session. -/
theorem Embeds.invariant (he : Embeds app m loc ins own) {P : Device γ → Prop}
    {C : Device γ → Event → Prop} {d₀ d₁ d : Device μ} {first : Apdu}
    (hb : begins app ins d₀ first d₁)
    (hrun : Transition.Run (lockStep app) (fun d e => C (d.view m) e) d₁ d)
    (hfirst : ∀ t, loc.handler first true (opened (d₀.view m) first) = .ok ⟨⟩ t → P t)
    (hins : ∀ t, P t → ∀ i, t.shared.currentInstruction = some i → i = ins)
    (hown : ∀ t i, P t → C t (.press i) → own (t.shared.pressed i))
    (hstep : ∀ t e t', P t → C t e → SessionStep loc t e t' → P t') : P (d.view m) := by
  obtain ⟨_, hi, hh⟩ := begins_handler hb
  have hok : loc.handler first true (opened (d₀.view m) first) = .ok ⟨⟩ (d₁.view m) :=
    he.handler_ok (d := opened d₀ first) hi hh
  refine hrun.invariant (P := fun d => P (d.view m)) (hfirst _ hok) ?_
  intro t e u hP hC hs
  refine hstep _ _ _ hP hC (he.sessionStep (hins _ hP) ?_ (lockStep_session hs))
  intro i hpress
  subst hpress
  exact hown _ _ hP hC

end Embeds

end ConcordiumLedger
