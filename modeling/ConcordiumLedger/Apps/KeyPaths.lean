import ConcordiumLedger.Common.NumberFacts
import ConcordiumLedger.Governance.Frames
import ConcordiumLedger.Main.Frames
import Mathlib.Data.List.Induction

/-!
# Apps.KeyPaths

The key path over whole runs of either application. `parseKeyDerivationPath` stores the length
before it checks it, and `handleGetPublicKey` rejects a path that is stored already, so a path that
is rejected leaves something behind; the path in memory is one that a command of the run has loaded
as long as that does not happen.

* `readPath`     — what `parseKeyDerivationPath` leaves in the path, also when it throws.
* `PathReading`  — all that a handler does to the path.
* `PathRejected` — a command whose path is answered with `ERROR_INVALID_PATH`.
* `IntactPaths`  — the path is valid in every state of a run, and rejected paths do not change it.
* `intactPaths_of_always`, `sparesPath_of_intactPaths` — when it is.
-/

namespace ConcordiumLedger

open CMem CProg CProg.Prog Transition

variable {μ ν γ : Type}

/-! ## What a handler does to the path -/

/-- How often `parseKeyDerivationPath` was called. -/
def pathReads (s : Shared) : Nat := s.log.count .parseKeyDerivationPath

def readPath (cdata : Ptr) (p : KeyDerivationPath) : KeyDerivationPath :=
  let nodes := (List.range (cdata 0).toNat).map fun i => cdata.u4be (1 + i * 4)
  if cdata 0 > 8 then { p with pathLength := cdata 0 }
  else
    { p with
      pathLength := cdata 0
      rawKeyDerivationPath := setNodes nodes p.rawKeyDerivationPath
      keyDerivationPath := setNodes (nodes.map (· ||| hardenedOffset)) p.keyDerivationPath }

theorem setNodes_setNodes {nodes nodes' old : List UInt32} (h : nodes.length = nodes'.length) :
    setNodes nodes (setNodes nodes' old) = setNodes nodes old := by
  rw [setNodes, setNodes, setNodes, h, List.drop_left]

theorem readPath_readPath (cdata : Ptr) (p : KeyDerivationPath) :
    readPath cdata (readPath cdata p) = readPath cdata p := by
  unfold readPath
  by_cases h : cdata 0 > 8
  · simp only [h, if_true]
  · simp only [h, if_false, setNodes_setNodes]

theorem readPath_pathLength (cdata : Ptr) (p : KeyDerivationPath) :
    (readPath cdata p).pathLength = cdata 0 := by
  unfold readPath
  by_cases h : cdata 0 > 8
  · simp only [h, if_true]
  · simp only [h, if_false]

/-- The path is kept, or it is read from `cdata`. -/
def PathReading (cdata : Ptr) (s s' : Shared) : Prop :=
  (pathReads s' = pathReads s ∧ s'.path = s.path) ∨
    (pathReads s < pathReads s' ∧ s'.path = readPath cdata s.path)

theorem PathReading.of_log {cdata : Ptr} {s s' : Shared} (as : List Action)
    (hlog : s'.log = s.log ++ as) (has : Action.parseKeyDerivationPath ∉ as)
    (hpath : s'.path = s.path) : PathReading cdata s s' := by
  refine .inl ⟨?_, hpath⟩
  rw [pathReads, hlog, List.count_append, List.count_eq_zero.mpr has, Nat.add_zero, pathReads]

instance (cdata : Ptr) : Frame (PathReading cdata) where
  refl _ := .inl ⟨rfl, rfl⟩
  trans := by
    rintro s s' s'' (⟨hn, hp⟩ | ⟨hn, hp⟩) (⟨hn', hp'⟩ | ⟨hn', hp'⟩)
    · exact .inl ⟨hn'.trans hn, hp'.trans hp⟩
    · exact .inr ⟨by omega, by rw [hp', hp]⟩
    · exact .inr ⟨by omega, hp'.trans hp⟩
    · exact .inr ⟨by omega, by rw [hp', hp, readPath_readPath]⟩
  sha256Init _ := .of_log _ rfl (by simp) rfl
  updateHash _ _ := .of_log _ rfl (by simp) rfl
  uxFlowInit _ _ := .of_log _ rfl (by simp) rfl
  reply _ _ _ := .of_log _ rfl (by simp) rfl
  endSession _ := .of_log _ rfl (by simp) rfl
  sender _ _ := .inl ⟨rfl, rfl⟩
  signed _ _ _ := .of_log _ rfl (by simp) rfl
  exit _ := .inl ⟨rfl, rfl⟩

instance (cdata : Ptr) : Dispatches (PathReading cdata) where
  openSession _ _ := .of_log _ rfl (by simp) rfl
  handler _ _ _ _ _ := .of_log _ rfl (by simp) rfl

instance (cdata : Ptr) : Waits (PathReading cdata) (PathReading cdata) (PathReading cdata) :=
  .of_frame fun _ => .inl ⟨rfl, rfl⟩

instance (cdata : Ptr) : Loads (PathReading cdata) cdata := by
  refine ⟨fun γ => ⟨fun t => ?_⟩⟩
  have hreads (s : Shared) : pathReads s < pathReads (s.act .parseKeyDerivationPath) := by
    simp [pathReads]
  rw [wp_parseKeyDerivationPath]
  refine ⟨fun h => .inr ⟨hreads _, ?_⟩, fun h => .inr ⟨hreads _, ?_⟩⟩
  · simp only [readPath, h, if_true]
    rfl
  · simp only [readPath, h, if_false]
    rfl

/-- The path is left alone. -/
def PathKept (s s' : Shared) : Prop := s'.path = s.path

instance : Frame PathKept where
  refl _ := rfl
  trans h h' := Eq.trans h' h
  sha256Init _ := rfl
  updateHash _ _ := rfl
  uxFlowInit _ _ := rfl
  reply _ _ _ := rfl
  endSession _ := rfl
  sender _ _ := rfl
  signed _ _ _ := rfl
  exit _ := rfl

abbrev PathFramed (app : App μ) : Prop := Framed app PathReading PathReading PathKept

theorem mainApp_pathFramed (sdk : Sdk) (u : InstructionContext μ) : PathFramed (mainApp sdk u) :=
  mainApp_framed sdk u

theorem governanceApp_pathFramed (sdk : Sdk) (v : GovernanceContext μ ν) :
    PathFramed (governanceApp sdk v) :=
  governanceApp_framed sdk v

/-! ## Rejected paths -/

/-- The command gets as far as `parseKeyDerivationPath`. -/
def ReadsPath (app : App μ) (d : Device μ) (c : Apdu) : Prop :=
  pathReads d.shared < pathReads (dispatch app c (receivedCommand d)).state.shared

/-- The command asks to show a path of 5 nodes that is not in the governance subtree. -/
structure OutsideGovernance (c : Apdu) : Prop where
  ins : c.ins = insGetPublicKey
  shown : c.p1 ≠ 0x01
  length : c.cdata 0 = 5
  nodes : c.cdata.u4be 9 = 1 → 2 < c.cdata.u4be 13

/-- The command reads a path and is answered with `ERROR_INVALID_PATH`. Two functions throw that:
`parseKeyDerivationPath`, for the length, and `handleGetPublicKey`, which has stored the path by
then. -/
def PathRejected (app : App μ) (d : Device μ) (ev : Event) : Prop :=
  ∃ c, ev = .command c ∧ ReadsPath app d c ∧ (c.cdata 0 > 8 ∨ OutsideGovernance c)

theorem governanceText_eq_ok {purpose : UInt32} (h : purpose ≤ 2) :
    ∃ text, GetPublicKey.governanceText purpose = .ok text := by
  unfold GetPublicKey.governanceText
  have hcases : purpose = 0 ∨ purpose = 1 ∨ purpose = 2 := by grind
  rcases hcases with rfl | rfl | rfl
  · exact ⟨_, rfl⟩
  · exact ⟨_, rfl⟩
  · exact ⟨_, rfl⟩

theorem governanceText_eq_error {purpose : UInt32} (h : 2 < purpose) :
    GetPublicKey.governanceText purpose = .error .invalidPath := by
  unfold GetPublicKey.governanceText
  have h0 : purpose ≠ 0 := by grind
  have h1 : purpose ≠ 1 := by grind
  have h2 : purpose ≠ 2 := by grind
  rw [if_neg h0, if_neg h1, if_neg h2]

/-- The formatting functions throw one error. -/
theorem numberToText_error {dstLength : Nat} {number : UInt64} {e : Error}
    (h : numberToText dstLength number = .error e) : e = .bufferOverflow := by
  simp only [numberToText] at h
  split at h <;> cases h
  rfl

theorem bin2dec_error {dstLength : Nat} {number : UInt64} {e : Error}
    (h : bin2dec dstLength number = .error e) : e = .bufferOverflow := by
  rcases except_bind_error h with h | ⟨text, -, h⟩
  · exact numberToText_error h
  · split at h <;> cases h
    rfl

theorem getIdentityAccountDisplay_error {dstLength : Nat} {identity account : UInt32} {e : Error}
    (h : getIdentityAccountDisplay dstLength identity account = .error e) : e = .bufferOverflow := by
  rcases except_bind_error h with h | ⟨first, -, h⟩
  · exact numberToText_error h
  · rcases except_bind_error h with h | ⟨second, -, h⟩
    · exact bin2dec_error h
    · cases h

theorem displayText_thrown_iff {cdata : Ptr} {p : KeyDerivationPath} (h : ¬ cdata 0 > 8) :
    GetPublicKey.displayText (readPath cdata p) = .error .invalidPath ↔
      cdata 0 = 5 ∧ (cdata.u4be 9 = 1 → 2 < cdata.u4be 13) := by
  have hraw (i : Nat) (hi : i < (cdata 0).toNat) :
      (readPath cdata p).rawKeyDerivationPath.getD i 0 = cdata.u4be (1 + i * 4) := by
    simp only [readPath, h, if_false, setNodes]
    rw [List.getD_eq_getElem?_getD, List.getElem?_append_left (by simpa using hi)]
    simp [hi]
  simp only [GetPublicKey.displayText]
  rw [readPath_pathLength]
  by_cases h5 : cdata 0 = 5
  · rw [if_pos h5, hraw 2 (by rw [h5]; decide), hraw 3 (by rw [h5]; decide)]
    by_cases h1 : cdata.u4be 9 = 1
    · rw [if_neg (by simpa using h1)]
      by_cases h2 : cdata.u4be 13 ≤ 2
      · obtain ⟨text, htext⟩ := governanceText_eq_ok h2
        rw [htext]
        simp [h1, h2]
      · have hgt : 2 < cdata.u4be 13 := UInt32.not_le.mp h2
        rw [governanceText_eq_error hgt]
        simp [h5, hgt]
    · rw [if_pos (by simpa using h1)]
      simp [h5, h1]
  · rw [if_neg h5]
    simp only [h5, false_and, iff_false]
    intro h
    cases getIdentityAccountDisplay_error h

/-- The paths that `handleGetPublicKey` rejects. -/
theorem wp_handleGetPublicKey_thrown (sdk : Sdk) {c : Apdu} (hins : c.ins = insGetPublicKey)
    (d : Device GetPublicKey.Context) :
    wp (handleGetPublicKey sdk c.cdata c.p1 c.p2)
      (fun _ _ => ¬ (c.cdata 0 > 8 ∨ OutsideGovernance c))
      (fun e _ => e = .invalidPath ↔ c.cdata 0 > 8 ∨ OutsideGovernance c) d := by
  have hpath : (d.shared.loadPath c.cdata).path = readPath c.cdata d.shared.path ∨ c.cdata 0 > 8 := by
    by_cases h : c.cdata 0 > 8
    · exact .inr h
    · exact .inl (by simp only [readPath, h, if_false]; rfl)
  unfold handleGetPublicKey
  rw [wp_bind, wp_parseKeyDerivationPath]
  refine ⟨fun h => by simp [h], fun h => ?_⟩
  replace hpath := hpath.resolve_right h
  rw [wp_bind, Fw.wp_modifyCtx]
  by_cases hp1 : c.p1 = 0x01
  · have hno : ¬ (c.cdata 0 > 8 ∨ OutsideGovernance c) := by
      rintro (hgt | hout)
      · exact h hgt
      · exact hout.shown hp1
    rw [if_pos hp1]
    simp only [sendPublicKey, publicKeyResponse, wp_bind, Fw.wp_getShared, Fw.wp_ensureNoError,
      Fw.wp_getCtx, wp_ite, wp_pure, hno, iff_false, reduceCtorEq, Bool.false_eq_true]
    simp [sendSuccess, uiIdle]
  · have hiff : GetPublicKey.displayText (readPath c.cdata d.shared.path) = .error .invalidPath ↔
        c.cdata 0 > 8 ∨ OutsideGovernance c := by
      rw [displayText_thrown_iff h]
      constructor
      · rintro ⟨h5, hnodes⟩
        exact .inr ⟨hins, hp1, h5, hnodes⟩
      · rintro (hgt | hout)
        · exact absurd hgt h
        · exact ⟨hout.length, hout.nodes⟩
    rw [if_neg hp1, wp_bind, Fw.wp_getShared, wp_bind, Fw.wp_eval]
    refine ⟨fun text htext => ?_, fun e he => ?_⟩
    · rw [wp_bind, Fw.wp_modifyCtx, wp_bind, wp_uxFlowInit, wp_waitForButton, ← hiff, ← hpath]
      intro herr
      cases htext.symm.trans herr
    · rw [← hiff, ← hpath]
      exact ⟨fun hinv => hinv ▸ he, fun herr => Except.error.inj (he.symm.trans herr)⟩

/-! ## Runs -/

/-- Everything that the command does is done without an error. -/
def AcceptedWhole (app : App μ) (d : Device μ) (c : Apdu) : Prop :=
  (accepted (dispatch app c (receivedCommand d))).isSome

/-- The path consists of the nodes of the command. -/
structure LoadedFrom (c : Apdu) (p : KeyDerivationPath) : Prop where
  accepted : c.cdata 0 ≤ 8
  pathLength : p.pathLength = c.cdata 0
  raw : ∀ i < p.pathLength.toNat, p.rawKeyDerivationPath[i]? = some (c.cdata.u4be (1 + i * 4))
  hardened : ∀ i < p.pathLength.toNat,
    p.keyDerivationPath[i]? = some (c.cdata.u4be (1 + i * 4) ||| hardenedOffset)

/-- The memory of a path that no command has loaded yet. -/
structure NoPath (p : KeyDerivationPath) : Prop where
  pathLength : p.pathLength = 0
  raw : p.rawKeyDerivationPath.length = 8
  hardened : p.keyDerivationPath.length = 8

/-- The path in memory after the events `es`. It is taken from one of their commands, whose path was
not rejected and for which `From` holds; `sign` and `getPublicKey` read stored components only. -/
structure ValidPath (app : App μ) (From : Device μ → Apdu → Prop) (d₀ : Device μ) (es : List Event)
    (p : KeyDerivationPath) : Prop where
  pathLength : p.pathLength ≤ 8
  raw : p.rawKeyDerivationPath.length = 8
  hardened : p.keyDerivationPath.length = 8
  nodes : ∀ i < p.pathLength.toNat,
    p.keyDerivationPath[i]? = p.rawKeyDerivationPath[i]?.map (· ||| hardenedOffset)
  reads : p.nodes = p.keyDerivationPath.take p.pathLength.toNat
  source : p = d₀.shared.path ∨ ∃ pre c d, pre ++ [.command c] <+: es ∧
    exec (step app) d₀ pre = some d ∧ ReadsPath app d c ∧ ¬ PathRejected app d (.command c) ∧
    From d c ∧ LoadedFrom c p

/-- In every state that the events lead through the path is valid, and each event whose path is
rejected leaves it as it was. -/
def IntactPaths (app : App μ) (From : Device μ → Apdu → Prop) (d₀ : Device μ) (es : List Event) :
    Prop :=
  ∀ pre ev d d', pre ++ [ev] <+: es → exec (step app) d₀ pre = some d → step app d ev = some d' →
    ValidPath app From d₀ (pre ++ [ev]) d'.shared.path ∧
      (PathRejected app d ev → d'.shared.path = d.shared.path)

/-- A command that reads a path does not have one of more than 8 nodes, and where
`handleGetPublicKey` rejects it, it is the path in memory. -/
def SparesPath (app : App μ) (d : Device μ) (ev : Event) : Prop :=
  ∀ c, ev = .command c → ReadsPath app d c →
    c.cdata 0 ≤ 8 ∧ (OutsideGovernance c → readPath c.cdata d.shared.path = d.shared.path)

theorem finish_path {α : Type} (o : Outcome Error (Device μ) α) :
    (finish o).shared.path = o.state.shared.path := by
  cases o with
  | ok a d => rfl
  | thrown e d =>
    show (catchOther e d.shared).path = d.shared.path
    unfold catchOther
    split
    · dsimp only
      split <;> rfl
    · rfl

/-- What one event does to the path. -/
theorem step_path {app : App μ} (ha : PathFramed app) {d d' : Device μ} {ev : Event}
    (h : step app d ev = some d') :
    (d'.shared.path = d.shared.path ∧ ∀ c, ev = .command c → ¬ ReadsPath app d c) ∨
      ∃ c, ev = .command c ∧ ReadsPath app d c ∧
        d'.shared.path = readPath c.cdata d.shared.path := by
  unfold step at h
  split at h
  case isFalse => cases h
  cases ev with
  | command c =>
    cases h
    have hr : PathReading c.cdata (receivedCommand d).shared
        (dispatch app c (receivedCommand d)).state.shared :=
      of_wp_state (P := fun t : Device μ => PathReading c.cdata (receivedCommand d).shared t.shared)
        ((ha.dispatch c).holds (receivedCommand d))
    rw [finish_path]
    rcases hr with ⟨hn, hp⟩ | ⟨hn, hp⟩
    · refine .inl ⟨hp, ?_⟩
      intro c' hc hreads
      cases hc
      exact absurd hn (Nat.ne_of_gt hreads)
    · exact .inr ⟨c, rfl, hn, hp⟩
  | noApdu =>
    cases h
    rw [finish_path]
    exact .inl ⟨rfl, fun _ hc => (by cases hc)⟩
  | press i =>
    cases h
    refine .inl ⟨?_, fun _ hc => (by cases hc)⟩
    rw [finish_path]
    exact of_wp_state (P := fun t : Device μ => PathKept d.shared t.shared)
      ((ha.callback (d.shared.pressed i)).holds d)

theorem loadedFrom_readPath {c : Apdu} (p : KeyDerivationPath) (h : c.cdata 0 ≤ 8) :
    LoadedFrom c (readPath c.cdata p) := by
  have hn : ¬ c.cdata 0 > 8 := UInt8.not_lt.mpr h
  refine ⟨h, readPath_pathLength _ _, ?_, ?_⟩
  · intro i hi
    rw [readPath_pathLength] at hi
    simp only [readPath, hn, if_false, setNodes]
    rw [List.getElem?_append_left (by simpa using hi)]
    simp [hi]
  · intro i hi
    rw [readPath_pathLength] at hi
    simp only [readPath, hn, if_false, setNodes]
    rw [List.getElem?_append_left (by simpa using hi)]
    simp [hi]

theorem setNodes_length {nodes old : List UInt32} (h : nodes.length ≤ old.length) :
    (setNodes nodes old).length = old.length := by
  rw [setNodes, List.length_append, List.length_drop]
  omega

theorem readPath_length {cdata : Ptr} {p : KeyDerivationPath} (h : cdata 0 ≤ 8)
    (hr : p.rawKeyDerivationPath.length = 8) (hk : p.keyDerivationPath.length = 8) :
    (readPath cdata p).rawKeyDerivationPath.length = 8 ∧
      (readPath cdata p).keyDerivationPath.length = 8 := by
  have hn : ¬ cdata 0 > 8 := UInt8.not_lt.mpr h
  have hle : (cdata 0).toNat ≤ 8 := h
  simp only [readPath, hn, if_false]
  constructor
  · rw [setNodes_length (by simpa [hr] using hle), hr]
  · rw [setNodes_length (by simpa [hk] using hle), hk]

/-- A path that is loaded is valid. -/
theorem LoadedFrom.nodes {c : Apdu} {p : KeyDerivationPath} (h : LoadedFrom c p) :
    ∀ i < p.pathLength.toNat,
      p.keyDerivationPath[i]? = p.rawKeyDerivationPath[i]?.map (· ||| hardenedOffset) := by
  intro i hi
  rw [h.raw i hi, h.hardened i hi, Option.map_some]

/-- A length of at most 8 keeps what is read inside the array. -/
theorem nodes_eq_take {p : KeyDerivationPath} (hlength : p.pathLength ≤ 8)
    (hk : p.keyDerivationPath.length = 8) :
    p.nodes = p.keyDerivationPath.take p.pathLength.toNat := by
  have hle : p.pathLength.toNat ≤ 8 := hlength
  rw [KeyDerivationPath.nodes, List.append_assoc, List.take_append_of_le_length (by omega)]

variable {app : App μ} {From : Device μ → Apdu → Prop} {d₀ d d' : Device μ} {es : List Event}

theorem ValidPath.initial (h : NoPath d₀.shared.path) :
    ValidPath app From d₀ es d₀.shared.path where
  pathLength := by rw [h.pathLength]; decide
  raw := h.raw
  hardened := h.hardened
  nodes i hi := by
    rw [h.pathLength] at hi
    cases hi
  reads := nodes_eq_take (by rw [h.pathLength]; decide) h.hardened
  source := .inl rfl

theorem ValidPath.append {p : KeyDerivationPath} (h : ValidPath app From d₀ es p) (ev : Event) :
    ValidPath app From d₀ (es ++ [ev]) p where
  pathLength := h.pathLength
  raw := h.raw
  hardened := h.hardened
  nodes := h.nodes
  reads := h.reads
  source := h.source.imp_right fun ⟨pre, c, d, hpre, hrest⟩ =>
    ⟨pre, c, d, hpre.trans (List.prefix_append _ _), hrest⟩

theorem ValidPath.step (ha : PathFramed app) {ev : Event}
    (h : ValidPath app From d₀ es d.shared.path) (hd : exec (step app) d₀ es = some d)
    (hs : step app d ev = some d') (hspares : SparesPath app d ev)
    (hfrom : ∀ c, ev = .command c → ReadsPath app d c → ¬ OutsideGovernance c → From d c) :
    ValidPath app From d₀ (es ++ [ev]) d'.shared.path := by
  rcases step_path ha hs with ⟨hkept, -⟩ | ⟨c, rfl, hreads, hpath⟩
  · rw [hkept]
    exact h.append ev
  · obtain ⟨hle, hsame⟩ := hspares c rfl hreads
    rw [hpath]
    by_cases hout : OutsideGovernance c
    · rw [hsame hout]
      exact h.append _
    · have hloaded := loadedFrom_readPath d.shared.path hle
      have hlength := readPath_length hle h.raw h.hardened
      have hno : ¬ PathRejected app d (.command c) := by
        rintro ⟨c', hc, -, hgt | hout'⟩
        · cases hc
          exact UInt8.not_lt.mpr hle hgt
        · cases hc
          exact hout hout'
      exact {
        pathLength := by rw [readPath_pathLength]; exact hle
        raw := hlength.1
        hardened := hlength.2
        nodes := hloaded.nodes
        reads := nodes_eq_take (by rw [readPath_pathLength]; exact hle) hlength.2
        source := .inr ⟨es, c, d, List.prefix_rfl, hd, hreads, hno, hfrom c rfl hreads hout,
          hloaded⟩ }

/-- As long as every command spares the path, it is valid in every state. -/
theorem intactPaths_of_always (ha : PathFramed app) (h0 : NoPath d₀.shared.path)
    (hall : Always (step app) (fun d ev _ => SparesPath app d ev) d₀ es)
    (hfrom : Always (step app)
      (fun d ev _ => ∀ c, ev = .command c → ReadsPath app d c → ¬ OutsideGovernance c → From d c)
      d₀ es) :
    IntactPaths app From d₀ es := by
  rw [always_iff] at hall hfrom
  have hvalid : ∀ pre, pre <+: es → ∀ d, exec (step app) d₀ pre = some d →
      ValidPath app From d₀ pre d.shared.path := by
    intro pre
    induction pre using List.reverseRecOn with
    | nil =>
      intro _ d hd
      cases hd
      exact .initial h0
    | append_singleton pre ev ih =>
      intro hpre d' hd'
      obtain ⟨d, hd, hs⟩ := exec_concat.mp hd'
      have h := ih ((List.prefix_append _ _).trans hpre) d hd
      exact h.step ha hd hs (hall pre ev d d' hpre hd hs) (hfrom pre ev d d' hpre hd hs)
  intro pre ev d d' hpre hd hs
  refine ⟨hvalid _ hpre d' (exec_concat.mpr ⟨d, hd, hs⟩), ?_⟩
  rintro ⟨c, rfl, hreads, hrejected⟩
  obtain ⟨hle, hsame⟩ := hall pre _ d d' hpre hd hs c rfl hreads
  rcases step_path ha hs with ⟨hkept, -⟩ | ⟨c', hc, -, hpath⟩
  · exact hkept
  · cases hc
    rw [hpath]
    rcases hrejected with hgt | hout
    · exact absurd hgt (UInt8.not_lt.mpr hle)
    · exact hsame hout

/-- A path that is rejected has been stored, or its length has. -/
theorem sparesPath_of_intactPaths (ha : PathFramed app) (h : IntactPaths app From d₀ es) :
    Always (step app) (fun d ev _ => SparesPath app d ev) d₀ es := by
  rw [always_iff]
  intro pre ev d d' hpre hd hs c hc hreads
  obtain ⟨hvalid, hrejected⟩ := h pre ev d d' hpre hd hs
  have hpath : d'.shared.path = readPath c.cdata d.shared.path := by
    rcases step_path ha hs with ⟨-, hno⟩ | ⟨c', hc', -, hpath⟩
    · exact absurd hreads (hno c hc)
    · rw [hc] at hc'
      cases hc'
      exact hpath
  refine ⟨?_, fun hout => ?_⟩
  · have hle := hvalid.pathLength
    rwa [hpath, readPath_pathLength] at hle
  · rw [← hpath]
    exact hrejected ⟨c, hc, hreads, .inr hout⟩

/-! ## Both applications -/

/-- The commands of the run that read a path have at most 8 nodes in it, and a path that
`handleGetPublicKey` rejects is the one in memory. -/
def PathsSpared (app : App μ) (d₀ : Device μ) (es : List Event) : Prop :=
  Always (step app) (fun d ev _ => SparesPath app d ev) d₀ es

/-- The commands of the run that read a path are accepted. -/
def ReadersAccepted (app : App μ) (d₀ : Device μ) (es : List Event) : Prop :=
  Always (step app)
    (fun d ev _ => ∀ c, ev = .command c → ReadsPath app d c → AcceptedWhole app d c) d₀ es

theorem intactPaths_iff (ha : PathFramed app) (h0 : NoPath d₀.shared.path) :
    (IntactPaths app (fun _ _ => True) d₀ es ↔ PathsSpared app d₀ es) ∧
      (PathsSpared app d₀ es → ReadersAccepted app d₀ es →
        IntactPaths app (AcceptedWhole app) d₀ es) := by
  refine ⟨⟨sparesPath_of_intactPaths ha, fun hall => ?_⟩, fun hall hacc => ?_⟩
  · refine intactPaths_of_always ha h0 hall (always_iff.mpr ?_)
    intro _ _ _ _ _ _ _ _ _ _ _
    trivial
  · refine intactPaths_of_always ha h0 hall (always_iff.mpr ?_)
    intro pre ev d d' hpre hd hs c hc hreads _
    exact always_iff.mp hacc pre ev d d' hpre hd hs c hc hreads

/-- In a run of either application, of whatever commands and presses, the key path is intact if and
only if no command reads a path of more than 8 nodes, and every path that `handleGetPublicKey`
rejects is in memory already. It is then taken from a command that was accepted as a whole, if all
commands that read a path were. -/
theorem key_path_intact_iff (sdk : Sdk) (u : InstructionContext μ) (v : GovernanceContext γ ν) :
    (∀ d₀ es, NoPath d₀.shared.path →
      (IntactPaths (mainApp sdk u) (fun _ _ => True) d₀ es ↔ PathsSpared (mainApp sdk u) d₀ es) ∧
      (PathsSpared (mainApp sdk u) d₀ es → ReadersAccepted (mainApp sdk u) d₀ es →
        IntactPaths (mainApp sdk u) (AcceptedWhole (mainApp sdk u)) d₀ es)) ∧
    ∀ d₀ es, NoPath d₀.shared.path →
      (IntactPaths (governanceApp sdk v) (fun _ _ => True) d₀ es ↔
        PathsSpared (governanceApp sdk v) d₀ es) ∧
      (PathsSpared (governanceApp sdk v) d₀ es → ReadersAccepted (governanceApp sdk v) d₀ es →
        IntactPaths (governanceApp sdk v) (AcceptedWhole (governanceApp sdk v)) d₀ es) :=
  ⟨fun _ _ h0 => intactPaths_iff (mainApp_pathFramed sdk u) h0,
    fun _ _ h0 => intactPaths_iff (governanceApp_pathFramed sdk v) h0⟩

theorem bootedDevice_noPath : NoPath bootedDevice.shared.path := ⟨rfl, rfl, rfl⟩

/-- A command that asks for the public key of the path `data`. -/
def publicKeyCommand (data : List UInt8) : Apdu := sent insGetPublicKey 0 0 data

theorem key_path_intact_two_nodes :
    IntactPaths (mainApp zeroAddressSdk Contexts.layout) (fun _ _ => True) bootedDevice
      [.command (publicKeyCommand [2, 0, 0, 0, 44, 0, 0, 2, 203])] := by
  refine ((key_path_intact_iff zeroAddressSdk Contexts.layout GovernanceContexts.layout).1
    bootedDevice _ bootedDevice_noPath).1.mpr fun d' _ => ⟨?_, trivial⟩
  intro c hc _
  cases hc
  refine ⟨by decide, fun hout => ?_⟩
  have hlength := hout.length
  revert hlength
  decide

/-- The length of a path that was rejected is in memory afterwards. -/
theorem nine_nodes_stored :
    ¬ IntactPaths (mainApp zeroAddressSdk Contexts.layout) (fun _ _ => True) bootedDevice
      [.command (publicKeyCommand [9])] := by
  intro h
  have hstep : ((step (mainApp zeroAddressSdk Contexts.layout) bootedDevice
      (.command (publicKeyCommand [9]))).any fun d => d.shared.path.pathLength == 9) = true := by
    decide
  obtain ⟨d, hd, hlength⟩ := (Option.any_eq_true _ _).mp hstep
  have hvalid := (h [] _ bootedDevice d List.prefix_rfl rfl hd).1.pathLength
  rw [beq_iff_eq.mp hlength] at hvalid
  revert hvalid
  decide

end ConcordiumLedger
