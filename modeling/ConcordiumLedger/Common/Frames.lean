import ConcordiumLedger.Common.GetPublicKey
import ConcordiumLedger.Common.Rules

/-!
# Common.Frames

What every function of the firmware does to the shared state, found by instance search. A function
reads and hashes first; then it may put up one screen or send one reply, and nothing is hashed after
that.

* `Steady R`    — a relation between two shared states that reading and hashing respect.
* `Moves R x`   — `x` moves the shared state along `R`, however it ends.
* `Screens K R S`, `Shows K R S x` — `S` is what a screen of the kinds `K` or a reply makes of `R`.
* `Waits R S T`, `Ends K R S T x`  — along `S` when it throws and along `T` when it returns. The
  difference is `waitForButton`, the last thing that a handler does before it returns.
* `Frame R`     — a relation that all operations respect, in any order.
* `Loads R cdata` — loading the key path from `cdata` respects `R` as well.
* `Dispatches R`  — so does the loop before it calls a handler.
-/

namespace ConcordiumLedger

open CMem CProg CProg.Prog

set_option synthInstance.maxSize 20000

universe u

variable {γ μ : Type} {R S T : Shared → Shared → Prop} {K : ScreenKind → Prop}

class Steady (R : Shared → Shared → Prop) : Prop where
  refl : ∀ s, R s s
  trans : ∀ {s s' s''}, R s s' → R s' s'' → R s s''
  updateHash : ∀ (s : Shared) bytes, R s (s.updateHash bytes)
  sender : ∀ (s : Shared) sender, R s { s with sender }

/-- Starting the hash anew respects `R` as well. -/
class Inits (R : Shared → Shared → Prop) : Prop where
  sha256Init : ∀ s : Shared, R s s.sha256Init

class Moves {α : Type u} (R : Shared → Shared → Prop) (x : Fw γ α) : Prop where
  holds : ∀ t, wp x (fun _ t' => R t.shared t'.shared) (fun _ t' => R t.shared t'.shared) t

class Screens (K : ScreenKind → Prop) (R S : Shared → Shared → Prop) : Prop where
  weaken : ∀ {s s'}, R s s' → S s s'
  comp : ∀ {s s' s''}, R s s' → S s' s'' → S s s''
  screen : ∀ (s : Shared) {k flow}, K k → Only k.callbacks flow → S s (s.uxFlowInit flow)
  reply : ∀ (s : Shared) data, S s (s.reply data success)
  finished : ∀ (s : Shared) data {k flow}, K k → Only k.callbacks flow →
    S s (((s.reply data success).setInstruction none).uxFlowInit flow)
  loading : ∀ (s : Shared) data {flow}, Only [.none] flow → S s ((s.uxFlowInit flow).reply data success)

class Shows {α : Type u} (K : ScreenKind → Prop) (R S : Shared → Shared → Prop) (x : Fw γ α) :
    Prop where
  holds : ∀ t, wp x (fun _ t' => S t.shared t'.shared) (fun _ t' => S t.shared t'.shared) t

class Waits (R S T : Shared → Shared → Prop) : Prop where
  weaken : ∀ {s s'}, S s s' → T s s'
  comp : ∀ {s s' s''}, R s s' → T s' s'' → T s s''
  wait : ∀ {s s' : Shared}, S s s' → T s { s' with asynchReply := true }

class Ends {α : Type u} (K : ScreenKind → Prop) (R S T : Shared → Shared → Prop) (x : Fw γ α) :
    Prop where
  holds : ∀ t, wp x (fun _ t' => T t.shared t'.shared) (fun _ t' => S t.shared t'.shared) t

/-- Does not touch the shared state. -/
class Still {α : Type u} (x : Fw γ α) : Prop where
  holds : ∀ t, wp x (fun _ t' => t'.shared = t.shared) (fun _ t' => t'.shared = t.shared) t

/-- At most waits for a button. -/
class Rests {α : Type u} (x : Fw γ α) : Prop where
  holds : ∀ t, wp x
    (fun _ t' => t'.shared = t.shared ∨ t'.shared = { t.shared with asynchReply := true })
    (fun _ t' => t'.shared = t.shared) t

class Permits (K : ScreenKind → Prop) (k : ScreenKind) : Prop where
  holds : K k

class OfKind (k : outParam ScreenKind) (flow : Device γ → List Step) : Prop where
  holds : ∀ t, Only k.callbacks (flow t)

class Frame (R : Shared → Shared → Prop) : Prop extends Steady R, Inits R where
  uxFlowInit : ∀ (s : Shared) flow, R s (s.uxFlowInit flow)
  reply : ∀ (s : Shared) data sw, R s (s.reply data sw)
  endSession : ∀ s : Shared, R s (s.setInstruction none)
  signed : ∀ (s : Shared) path input, R s (s.act (.signed path input))
  exit : ∀ s : Shared, R s { s with running := false }

/-- The loop itself respects `R` when it hands a command to its handler. -/
class Dispatches (R : Shared → Shared → Prop) : Prop where
  openSession : ∀ (s : Shared) ins, R s (s.setInstruction (some ins))
  handler : ∀ (s : Shared) ins p1 p2 data, R s (s.act (.handler ins p1 p2 data))

class Loads (R : Shared → Shared → Prop) (cdata : Ptr) : Prop where
  holds : ∀ γ, Moves R (parseKeyDerivationPath cdata : Fw γ Nat)

/-- Every kind of screen. -/
def AnyScreen (_ : ScreenKind) : Prop := True

instance (k : ScreenKind) : Permits AnyScreen k := ⟨trivial⟩

instance Frame.screens [f : Frame R] : Screens K R R where
  weaken h := h
  comp := f.trans
  screen s _ flow _ _ := f.uxFlowInit s flow
  reply s data := f.reply s data success
  finished s data _ flow _ _ :=
    f.trans (f.trans (f.reply s data success) (f.endSession _)) (f.uxFlowInit _ flow)
  loading s data flow _ := f.trans (f.uxFlowInit s flow) (f.reply _ data success)

theorem Waits.of_frame [f : Frame R] (h : ∀ s : Shared, R s { s with asynchReply := true }) :
    Waits R R R where
  weaken h := h
  comp := f.trans
  wait hs := f.trans hs (h _)

/-! ## Control flow -/

section Control

variable {α α' : Type u} {x y : Fw γ α} {k : α → Fw γ α'} {c : Prop} [Decidable c]

instance Moves.bind [f : Steady R] [h : Moves R x] [hk : ∀ a, Moves R (k a)] :
    Moves R (x >>= k) := by
  refine ⟨fun t => ?_⟩
  rw [wp_bind]
  refine wp_mono (h.holds t) (fun a t' ht => ?_) fun _ _ h => h
  exact wp_mono ((hk a).holds t') (fun _ _ h => f.trans ht h) fun _ _ h => f.trans ht h

instance Moves.ite [hx : Moves R x] [hy : Moves R y] : Moves R (if c then x else y) := by
  refine ⟨fun t => ?_⟩
  rw [wp_ite]
  exact ⟨fun _ => hx.holds t, fun _ => hy.holds t⟩

instance Still.bind [h : Still x] [hk : ∀ a, Still (k a)] : Still (x >>= k) := by
  refine ⟨fun t => ?_⟩
  rw [wp_bind]
  refine wp_mono (h.holds t) (fun a t' ht => ?_) fun _ _ h => h
  exact wp_mono ((hk a).holds t') (fun _ _ h => h.trans ht) fun _ _ h => h.trans ht

instance Still.ite [hx : Still x] [hy : Still y] : Still (if c then x else y) := by
  refine ⟨fun t => ?_⟩
  rw [wp_ite]
  exact ⟨fun _ => hx.holds t, fun _ => hy.holds t⟩

instance Rests.of_still [h : Still x] : Rests x :=
  ⟨fun t => wp_mono (h.holds t) (fun _ _ h => .inl h) fun _ _ h => h⟩

instance Rests.bind [h : Still x] [hk : ∀ a, Rests (k a)] : Rests (x >>= k) := by
  refine ⟨fun t => ?_⟩
  rw [wp_bind]
  refine wp_mono (h.holds t) (fun a t' ht => ?_) fun _ _ h => h
  refine wp_mono ((hk a).holds t') (fun _ _ h => ?_) fun _ _ h => h.trans ht
  rwa [ht] at h

instance Shows.of_moves [f : Screens K R S] [h : Moves R x] : Shows K R S x :=
  ⟨fun t => wp_mono (h.holds t) (fun _ _ h => f.weaken h) fun _ _ h => f.weaken h⟩

instance Shows.ite [hx : Shows K R S x] [hy : Shows K R S y] : Shows K R S
    (if c then x else y) := by
  refine ⟨fun t => ?_⟩
  rw [wp_ite]
  exact ⟨fun _ => hx.holds t, fun _ => hy.holds t⟩

/-- Nothing but the context is touched after a screen. -/
instance Shows.still [h : Shows K R S x] [hk : ∀ a, Still (k a)] : Shows K R S (x >>= k) := by
  refine ⟨fun t => ?_⟩
  rw [wp_bind]
  refine wp_mono (h.holds t) (fun a t' ht => ?_) fun _ _ h => h
  exact wp_mono ((hk a).holds t') (fun _ _ h => h ▸ ht) fun _ _ h => h ▸ ht

instance Shows.bind [f : Screens K R S] [h : Moves R x] [hk : ∀ a, Shows K R S (k a)] :
    Shows K R S (x >>= k) := by
  refine ⟨fun t => ?_⟩
  rw [wp_bind]
  refine wp_mono (h.holds t) (fun a t' ht => ?_) fun _ _ h => f.weaken h
  exact wp_mono ((hk a).holds t') (fun _ _ h => f.comp ht h) fun _ _ h => f.comp ht h

instance Ends.of_shows [w : Waits R S T] [h : Shows K R S x] : Ends K R S T x :=
  ⟨fun t => wp_mono (h.holds t) (fun _ _ h => w.weaken h) fun _ _ h => h⟩

instance Ends.ite [hx : Ends K R S T x] [hy : Ends K R S T y] :
    Ends K R S T (if c then x else y) := by
  refine ⟨fun t => ?_⟩
  rw [wp_ite]
  exact ⟨fun _ => hx.holds t, fun _ => hy.holds t⟩

instance Ends.rests [w : Waits R S T] [h : Shows K R S x] [hk : ∀ a, Rests (k a)] :
    Ends K R S T (x >>= k) := by
  refine ⟨fun t => ?_⟩
  rw [wp_bind]
  refine wp_mono (h.holds t) (fun a t' ht => ?_) fun _ _ h => h
  refine wp_mono ((hk a).holds t') (fun _ t'' h => ?_) fun _ _ h => h ▸ ht
  rcases h with h | h
  · rw [h]
    exact w.weaken ht
  · rw [h]
    exact w.wait ht

instance Ends.bind [f : Screens K R S] [w : Waits R S T] [h : Moves R x]
    [hk : ∀ a, Ends K R S T (k a)] : Ends K R S T (x >>= k) := by
  refine ⟨fun t => ?_⟩
  rw [wp_bind]
  refine wp_mono (h.holds t) (fun a t' ht => ?_) fun _ _ h => f.weaken h
  exact wp_mono ((hk a).holds t') (fun _ _ h => w.comp ht h) fun _ _ h => f.comp ht h

end Control

/-! ## Access to the state -/

section Access

instance Still.pure {α : Type u} (a : α) : Still (Pure.pure a : Fw γ α) := ⟨fun _ => rfl⟩

instance Still.getCtx : Still (Fw.getCtx : Fw γ γ) := ⟨fun _ => rfl⟩

instance Still.modifyCtx (g : γ → γ) : Still (Fw.modifyCtx g : Fw γ PUnit) := ⟨fun _ => rfl⟩

instance Rests.waitForButton : Rests (waitForButton : Fw γ PUnit) := ⟨fun _ => .inr rfl⟩

variable [f : Steady R]

instance Moves.pure {α : Type u} (a : α) : Moves R (Pure.pure a : Fw γ α) := ⟨fun _ => f.refl _⟩

instance Moves.throw {α : Type} (e : Error) : Moves R (Fw.throw e : Fw γ α) := ⟨fun _ => f.refl _⟩

instance Moves.throwIf (c : Prop) [Decidable c] (e : Error) :
    Moves R (Fw.throwIf c e : Fw γ PUnit) :=
  ⟨fun _ => (Fw.wp_throwIf c e).mpr ⟨fun _ => f.refl _, fun _ => f.refl _⟩⟩

instance Moves.when (c : Prop) [Decidable c] {x : Fw γ PUnit} [h : Moves R x] :
    Moves R (Fw.when c x) :=
  ⟨fun t => (Fw.wp_when c x).mpr ⟨fun _ => h.holds t, fun _ => f.refl _⟩⟩

instance Moves.eval {α : Type} (r : Except Error α) : Moves R (Fw.eval r : Fw γ α) :=
  ⟨fun _ => (Fw.wp_eval r).mpr ⟨fun _ _ => f.refl _, fun _ _ => f.refl _⟩⟩

instance Moves.ensureNoError {α : Type} (r : Option α) : Moves R (Fw.ensureNoError r : Fw γ α) :=
  ⟨fun _ => (Fw.wp_ensureNoError r).mpr ⟨fun _ _ => f.refl _, fun _ => f.refl _⟩⟩

instance Moves.getCtx : Moves R (Fw.getCtx : Fw γ γ) := ⟨fun _ => f.refl _⟩

instance Moves.getShared : Moves R (Fw.getShared : Fw γ Shared) := ⟨fun _ => f.refl _⟩

instance Moves.modifyCtx (g : γ → γ) : Moves R (Fw.modifyCtx g : Fw γ PUnit) := ⟨fun _ => f.refl _⟩

omit f

theorem Moves.modifyShared {g : Shared → Shared} (h : ∀ s, R s (g s)) :
    Moves R (Fw.modifyShared g : Fw γ PUnit) := ⟨fun t => h t.shared⟩

instance Moves.on (m : Member μ γ) {α : Type} {x : Fw γ α} [h : Moves R x] : Moves R (Fw.on m x) :=
  ⟨fun t => (Fw.wp_on m x).mpr (h.holds ⟨m.get t.ctx, t.shared⟩)⟩

instance Shows.on (m : Member μ γ) {x : Fw γ PUnit} [h : Shows K R S x] :
    Shows K R S (Fw.on m x) :=
  ⟨fun t => (Fw.wp_on m x).mpr (h.holds ⟨m.get t.ctx, t.shared⟩)⟩

instance Ends.on (m : Member μ γ) {x : Fw γ PUnit} [h : Ends K R S T x] :
    Ends K R S T (Fw.on m x) :=
  ⟨fun t => (Fw.wp_on m x).mpr (h.holds ⟨m.get t.ctx, t.shared⟩)⟩

end Access

/-! ## The shared functions -/

section Functions

variable [f : Steady R] [g : Screens K R S] (sdk : Sdk) (cdata : Ptr) (kind : UInt8)

omit g

omit f in
instance [i : Inits R] : Moves R (cxSha256Init : Fw γ PUnit) := .modifyShared i.sha256Init

instance (len : Nat) : Moves R (updateHash cdata len : Fw γ PUnit) :=
  .modifyShared fun s => f.updateHash s _

instance (bytes : List UInt8) : Moves R (Fw.modifyShared (Shared.updateHash bytes) : Fw γ PUnit) :=
  .modifyShared fun s => f.updateHash s bytes

instance (len : Nat) : Moves R (hashHeaderAndType cdata len kind : Fw γ Nat) := by
  unfold hashHeaderAndType
  infer_instance

instance : Moves R (hashUpdateHeaderAndType cdata kind : Fw γ Nat) := by
  unfold hashUpdateHeaderAndType
  infer_instance

instance : Moves R (hashAccountTransactionHeaderAndKind sdk cdata kind : Fw γ Nat) := by
  have h (buf : Buffer 57) : Moves (γ := γ) R (Fw.modifyShared fun s => { s with sender := buf }) :=
    .modifyShared fun s => f.sender s buf
  unfold hashAccountTransactionHeaderAndKind
  infer_instance

instance {n : Nat} (dst : Buffer n) : Moves (γ := γ) R (hashAndLoadU64Ratio cdata dst) := by
  unfold hashAndLoadU64Ratio
  infer_instance

omit f in
instance [h : Loads R cdata] : Moves R (parseKeyDerivationPath cdata : Fw γ Nat) := h.holds γ

instance [Inits R] [Loads R cdata] (dst : Buffer 57) :
    Moves (γ := γ) R (handleHeaderAndToAddress sdk cdata kind dst) := by
  unfold handleHeaderAndToAddress
  infer_instance

instance : Moves R (publicKeyResponse sdk) := by
  unfold publicKeyResponse
  infer_instance

include g

omit f in
instance {k : ScreenKind} (flow : Device γ → List Step) [o : OfKind k flow] [p : Permits K k] :
    Shows K R S (uxFlowInit flow) :=
  ⟨fun t => g.screen t.shared p.holds (o.holds t)⟩

omit f in
theorem Shows.of_only [p : Permits K .shared] {flow : Device γ → List Step}
    (h : ∀ d, Only ScreenKind.shared.callbacks (flow d)) : Shows K R S (uxFlowInit flow) :=
  ⟨fun t => g.screen t.shared p.holds (h t)⟩

omit f in
instance (data : List UInt8) : Shows K R S (sendSuccessResultNoIdle data : Fw γ PUnit) :=
  ⟨fun t => g.reply t.shared data⟩

omit f in
instance : Shows K R S (sendSuccessNoIdle : Fw γ PUnit) :=
  inferInstanceAs (Shows K R S (sendSuccessResultNoIdle []))

omit f in
instance [p : Permits K (.own .osSchedExit)] (data : List UInt8) :
    Shows K R S (sendSuccess data : Fw γ PUnit) :=
  ⟨fun t => g.finished t.shared data p.holds (by simp [Only, uxMenuIdleFlow, ScreenKind.callbacks])⟩

omit f g in
instance : OfKind (.own .sendPublicKey) fun d : Device GetPublicKey.Context =>
    GetPublicKey.uxGeneratePublicFlow d.ctx :=
  ⟨fun _ => by simp [Only, GetPublicKey.uxGeneratePublicFlow, ScreenKind.callbacks]⟩

instance [Permits K (.own .osSchedExit)] [p : Permits K (.own .uiIdle)] (compare : Bool) :
    Shows K R S (sendPublicKey sdk compare) := by
  unfold sendPublicKey
  refine @Shows.bind _ _ _ _ _ _ _ _ _ _ fun keys => ?_
  obtain ⟨key, response⟩ := keys
  refine @Shows.ite _ _ _ _ _ _ _ _ _ ⟨fun t => ?_⟩ _
  -- The reply is sent before the key is written out for the screen.
  simp only [sendSuccessResultNoIdle, wp_bind, Fw.wp_modifyShared, Fw.wp_getCtx, Fw.wp_eval,
    Fw.wp_modifyCtx, wp_uxFlowInit]
  refine ⟨fun hex _ => ?_, fun _ _ => g.reply t.shared response⟩
  exact g.finished t.shared response p.holds
    (by simp [Only, GetPublicKey.uxSignComparePublicKey, ScreenKind.callbacks])

instance [Waits R S T] [Inits R] [Loads R cdata] [Permits K (.own .osSchedExit)] [Permits K (.own .uiIdle)]
    [Permits K (.own .sendPublicKey)] (p1 p2 : UInt8) :
    Ends K R S T (handleGetPublicKey sdk cdata p1 p2) := by
  unfold handleGetPublicKey
  infer_instance

end Functions

/-! ## Any order -/

/-- A relation that all operations respect is respected by what ends in a screen too. -/
theorem Shows.moves {x : Fw γ PUnit} [Frame R] (h : Shows AnyScreen R R x) : Moves R x :=
  ⟨h.holds⟩

theorem Moves.sharedCallback [f : Frame R] {sdk : Sdk} {own : Callback → Fw γ PUnit}
    (h : ∀ cb, Shows AnyScreen R R (own cb)) (cb : Callback) :
    Moves R (sharedCallback sdk own cb) := by
  have hidle : Moves R (ConcordiumLedger.uiIdle : Fw γ PUnit) :=
    ⟨fun t => f.trans (f.endSession t.shared) (f.uxFlowInit _ uxMenuIdleFlow)⟩
  have hreject : Moves (γ := γ) R (Fw.modifyShared (Shared.reply [] Error.rejectedByUser.code)) :=
    .modifyShared fun s => f.reply s [] _
  have hsigned (path : List UInt32) (input : List UInt8) :
      Moves (γ := γ) R (Fw.modifyShared (Shared.act (.signed path input))) :=
    .modifyShared fun s => f.signed s path input
  have hsuccess (data : List UInt8) : Moves R (ConcordiumLedger.sendSuccess data : Fw γ PUnit) :=
    Shows.moves inferInstance
  cases cb with
  | none => exact inferInstanceAs (Moves R (Pure.pure ⟨⟩ : Fw γ PUnit))
  | sendSuccessNoIdle =>
    exact Shows.moves (inferInstanceAs (Shows _ R R (ConcordiumLedger.sendSuccessNoIdle : Fw γ PUnit)))
  | sendSuccess => exact hsuccess []
  | sendUserRejection =>
    show Moves R (ConcordiumLedger.sendUserRejection : Fw γ PUnit)
    unfold ConcordiumLedger.sendUserRejection
    infer_instance
  | buildAndSignTransactionHash =>
    show Moves R (ConcordiumLedger.buildAndSignTransactionHash sdk : Fw γ PUnit)
    unfold ConcordiumLedger.buildAndSignTransactionHash
    infer_instance
  | uiIdle => exact hidle
  | osSchedExit => exact .modifyShared f.exit
  | _ => exact Shows.moves (h _)

/-! ## Applications -/

/-- The handlers move along `R` and `T` for the bytes of their command, the callbacks along `K`. -/
structure Framed (app : App μ) (R T : Ptr → Shared → Shared → Prop) (K : Shared → Shared → Prop) :
    Prop where
  handler : ∀ (apdu : Apdu) (b : Bool),
    Ends AnyScreen (R apdu.cdata) (R apdu.cdata) (T apdu.cdata) (app.handler apdu b)
  callback : ∀ cb, Moves K (app.callback cb)

theorem Framed.dispatch {app : App μ} {R T : Ptr → Shared → Shared → Prop}
    {K : Shared → Shared → Prop} [∀ cdata, Frame (R cdata)]
    [∀ cdata, Waits (R cdata) (R cdata) (T cdata)] [∀ cdata, Dispatches (R cdata)]
    (h : Framed app R T K) (apdu : Apdu) :
    Ends AnyScreen (R apdu.cdata) (R apdu.cdata) (T apdu.cdata) (dispatch app apdu) := by
  have hopen : Moves (γ := μ) (R apdu.cdata)
      (Fw.modifyShared (Shared.setInstruction (some apdu.ins))) :=
    .modifyShared fun s => Dispatches.openSession s _
  have hact : Moves (γ := μ) (R apdu.cdata)
      (Fw.modifyShared (Shared.act (.handler apdu.ins apdu.p1 apdu.p2 apdu.data))) :=
    .modifyShared fun s => Dispatches.handler s _ _ _ _
  have hhandler (b : Bool) := h.handler apdu b
  unfold ConcordiumLedger.dispatch
  refine @Ends.bind _ _ _ _ _ _ _ _ _ _ _ _ fun _ => ?_
  refine @Ends.bind _ _ _ _ _ _ _ _ _ _ _ _ fun s => ?_
  cases s.currentInstruction <;> dsimp only <;> infer_instance

theorem Frame.caught [f : Frame R] (e : Error) (s : Shared) : R s (catchOther e s) := by
  unfold catchOther
  split
  · dsimp only
    split
    · exact f.endSession s
    · exact f.trans (f.endSession s) (f.reply _ [] e.code)
  · exact f.exit s

/-- A relation that ignores the flags of the loop holds of each step. -/
theorem Framed.step {app : App μ} [f : Frame R] [Waits R R R] [Dispatches R]
    (h : Framed app (fun _ => R) (fun _ => R) R)
    (hflags : ∀ (s : Shared) a o, R s { s with asynchReply := a, replyOwed := o }) {d d' : Device μ}
    {ev : Event} (hs : step app d ev = some d') : R d.shared d'.shared := by
  have hfinish {x : Fw μ PUnit} {t : Device μ} (ht : R d.shared t.shared)
      (hx : wp x (fun _ t' => R t.shared t'.shared) (fun _ t' => R t.shared t'.shared) t) :
      R d.shared (finish (x t)).shared :=
    finish_of_wp (P := fun t' => R d.shared t'.shared) (wp_mono hx (fun _ _ h => f.trans ht h)
      fun e t' h => f.trans (f.trans ht h) (Frame.caught e t'.shared))
  unfold ConcordiumLedger.step at hs
  split at hs
  · cases ev with
    | command c =>
      cases hs
      exact hfinish (t := receivedCommand d) (hflags d.shared false true)
        ((h.dispatch c).holds (receivedCommand d))
    | noApdu =>
      cases hs
      exact hfinish (x := Prog.throw .noApduReceived) (t := received d)
        (hflags d.shared false d.shared.replyOwed) (f.refl _)
    | press i =>
      cases hs
      exact hfinish (f.refl _) ((h.callback _).holds d)
  · cases hs

end ConcordiumLedger
