import ConcordiumLedger.Common.Commands
import ConcordiumLedger.Common.NumberFacts
import ConcordiumLedger.Common.PaginatedHex
import ConcordiumLedger.Common.Presses
import ConcordiumLedger.Governance.Rules

/-!
# Governance.HigherLevelKeys

The root and level 1 key updates are what the screens say, and apart from the level 2 updates.

* `keyUpdateText`  — the three pairs of types and their names.
* `SignedAsNamed`  — what holds when the Sign step is displayed.
* `Received`       — the keys received so far.
-/

namespace ConcordiumLedger

open CMem CProg CProg.Prog Transition

namespace SignHigherLevelKeyUpdate

/-! ## What the property says -/

/-- The update type and the key update type of a first command. -/
def keyUpdatePair (first : Apdu) : UInt8 × UInt8 :=
  (updateTypeOf first.cdata, updatePayload first.cdata 0)

/-- The name of an update, for the pairs that are not of level 2. -/
def keyUpdateText : UInt8 × UInt8 → Option String
  | (10, 0) => some "Root w. root keys"
  | (10, 1) => some "Level 1 w. root keys"
  | (11, 0) => some "Level 1 w. level 1 keys"
  | _ => none

/-- How many keys the first command announces. -/
def numberOf (first : Apdu) : UInt16 := updatePayload first.cdata |>.u2be 1

/-- The hash input before the keys. -/
def initialBytes (first : Apdu) : List UInt8 :=
  headerBefore first.cdata ++ [(keyUpdatePair first).1, (keyUpdatePair first).2] ++
    beBytes 2 (numberOf first).toNat

/-- The review screen. -/
def reviewSteps (text : String) : List (String × Option (List UInt8)) :=
  [("Review", some (ascii "transaction")), ("Update", some (ascii text))]

/-- The screen of a key: its bytes after the scheme. -/
def keyStep (key : List UInt8) : String × Option (List UInt8) :=
  ("Update key", some (paginate (hexText (key.drop 1))))

/-- The last screen. -/
def thresholdSteps (threshold : Nat) : List (String × Option (List UInt8)) :=
  [ ("Threshold", some (decimal threshold)),
    ("Sign", some (ascii "transaction")),
    ("Decline to", some (ascii "sign transaction")) ]

/-- The pair has a name, which was shown in this session, the hash input is one complete update,
and its keys were shown, in order. -/
def SignedAsNamed (first : Apdu) (s : Shared) : Prop :=
  ∃ (text : String) (keys : List (List UInt8)) (threshold : UInt16),
    keyUpdateText (keyUpdatePair first) = some text ∧
      keys.length = (numberOf first).toNat ∧ 1 ≤ keys.length ∧ (∀ key ∈ keys, key.length = 33) ∧
      s.hash = initialBytes first ++ keys.flatten ++ beBytes 2 threshold.toNat ∧
      shownSteps s = reviewSteps text ++ keys.map keyStep ++ thresholdSteps threshold.toNat

/-- A level 2 session starts with the given pair. -/
def StartsLevel2 {μ : Type} (app : App μ) (pair : UInt8 × UInt8) : Prop :=
  ∃ ins d first d', (ins = insUpdateLevel2KeysRoot ∨ ins = insUpdateLevel2KeysLevel1) ∧
    begins app ins d first d' ∧ keyUpdatePair first = pair

/-! ## Sessions -/

/-- The application as this instruction sees it. -/
def keysApp (sdk : Sdk) (updateType : UInt8) : App Context where
  handler := fun apdu b => handleSignHigherLevelKeys apdu.cdata apdu.p1 updateType b
  callback := sharedCallback sdk fun _ => Pure.pure ⟨⟩

/-- The keys received so far are hashed and were shown. -/
structure Received (first : Apdu) (text : String) (keys : List (List UInt8)) (s : Shared) :
    Prop where
  hash : s.hash = initialBytes first ++ keys.flatten
  shown : shownSteps s = reviewSteps text ++ keys.map keyStep
  length : ∀ key ∈ keys, key.length = 33

/-- Where the session is. -/
inductive Phase (first : Apdu) (text : String) (t : Device Context) : Prop
  | key (keys : List (List UInt8)) (received : Received first text keys t.shared)
      (state : t.ctx.state = .key)
      (left : keys.length + t.ctx.numberOfUpdateKeys.toNat = (numberOf first).toNat)
      (display : Only [.none, .sendSuccessNoIdle] t.shared.display)
  | threshold (keys : List (List UInt8)) (received : Received first text keys t.shared)
      (state : t.ctx.state = .threshold) (all : keys.length = (numberOf first).toNat)
      (some_key : 1 ≤ keys.length) (display : Only [.none, .sendSuccessNoIdle] t.shared.display)
  | signing (signing : Signing t)

/-- The invariant of a session. -/
structure Inv (ins : UInt8) (first : Apdu) (text : String) (t : Device Context) : Prop where
  instruction : ∀ i, t.shared.currentInstruction = some i → i = ins
  own : ∀ st ∈ t.shared.display, st.callback.isShared = true
  active : t.shared.running = true → t.shared.currentInstruction ≠ none → Phase first text t
  signed : offersSign t.shared.display = true → SignedAsNamed first t.shared

section Session

variable {sdk : Sdk} {ins : UInt8} {first : Apdu} {text : String} {t t' : Device Context}

theorem Only.shared {flow : List Step} (h : Only [.none, .sendSuccessNoIdle] flow) :
    ∀ st ∈ flow, st.callback.isShared = true := by
  intro st hst
  have hcb := h st hst
  simp only [List.mem_cons, List.not_mem_nil, or_false] at hcb
  rcases hcb with hcb | hcb <;> rw [hcb] <;> rfl

/-- A phase in which no Sign step is displayed. -/
theorem Inv.of_phase (hi : t.shared.currentInstruction = some ins)
    (hp : Phase first text t) (hd : Only [.none, .sendSuccessNoIdle] t.shared.display) :
    Inv ins first text t where
  instruction := by
    intro i hi'
    rw [hi] at hi'
    exact (Option.some.inj hi').symm
  own := Only.shared hd
  active := fun _ _ => hp
  signed := by
    intro hs
    rw [hd.not_offersSign (by decide)] at hs
    cases hs

/-! ### The first command -/

/-- Each pair that is accepted with a text is one with a name. -/
theorem wp_readKeyUpdateType {Q : PUnit → Device Context → Prop} {updateType k : UInt8}
    (hut : updateType = UpdateType.updateRootKeys ∨ updateType = UpdateType.updateLevel1Keys)
    (hstale : (updateType, k) ≠ (11, 1))
    (h : ∀ text, keyUpdateText (updateType, k) = some text → 0 ∉ ascii text →
      (ascii text).length < 25 →
      Q ⟨⟩ ⟨{ t.ctx with type := t.ctx.type.memmove 0 (literal text) }, t.shared⟩) :
    wp (readKeyUpdateType k updateType) Q (fun _ _ => True) t := by
  rcases hut with rfl | rfl
  · rw [readKeyUpdateType, if_pos rfl]
    refine (wp_ite _ _ _).mpr ⟨?_, fun _ => (wp_ite _ _ _).mpr ⟨?_, fun _ => trivial⟩⟩
    · rintro rfl
      exact h _ rfl (by decide) (by decide)
    · rintro rfl
      exact h _ rfl (by decide) (by decide)
  · rw [readKeyUpdateType, if_neg (by decide), if_pos rfl]
    refine (wp_ite _ _ _).mpr ⟨?_, fun _ => (wp_ite _ _ _).mpr ⟨?_, fun _ => trivial⟩⟩
    · rintro rfl
      exact absurd rfl hstale
    · rintro rfl
      exact h _ rfl (by decide) (by decide)

theorem handleInitial_inv {updateType : UInt8} {a : Apdu}
    (hut : updateType = UpdateType.updateRootKeys ∨ updateType = UpdateType.updateLevel1Keys)
    (ha : a.ins = ins) (hstale : keyUpdatePair a ≠ (11, 1)) :
    wp ((keysApp sdk updateType).handler a true)
      (fun _ t' => ∃ text, keyUpdateText (keyUpdatePair a) = some text ∧ Inv ins a text t')
      (fun _ _ => True) (opened t a) := by
  show wp (handleSignHigherLevelKeys a.cdata a.p1 updateType true) _ _ _
  unfold handleSignHigherLevelKeys
  rw [wp_bind, Fw.wp_when]
  refine ⟨fun _ => ?_, fun h => absurd rfl h⟩
  rw [setState, Fw.wp_modifyCtx, wp_bind, Fw.wp_getCtx]
  refine (wp_ite _ _ _).mpr ⟨fun _ => ?_, fun _ => ?_⟩
  · rw [handleInitial, wp_bind]
    refine wp_readUpdateHeader_type (fun s' hs htype => ?_) fun _ _ _ => trivial
    have hpair : keyUpdatePair a = (updateType, updatePayload a.cdata 0) := by
      rw [keyUpdatePair, htype]
    rw [wp_bind]
    refine wp_readKeyUpdateType hut (hpair ▸ hstale) fun text htext hz hlen => ?_
    simp only [wp_bind, wp_updateHash, Fw.wp_modifyCtx, setState, wp_uxFlowInit,
      wp_waitForButton]
    have hname : keyUpdateText (keyUpdatePair a) = some text := by
      rw [hpair]
      exact htext
    refine ⟨text, hname, .of_phase (hs.instruction.trans (congrArg some ha)) (.key [] ?_ rfl ?_ ?_) ?_⟩
    · have hp : a.cdata.advance (1 + 4 * (a.cdata 0).toNat + 29) = updatePayload a.cdata := rfl
      refine ⟨?_, ?_, by simp⟩
      · show s'.hash ++ _ ++ _ = _
        rw [hs.hash, hp, updateHeaderOf_eq, initialBytes, Ptr.slice_two, slice_one]
        simp [keyUpdatePair, numberOf, Ptr.u2be]
      · show shownSteps (Shared.uxFlowInit _ _) = _
        have hnone : shownSteps s' = [] := by
          rw [shownSteps_congr hs.screens]
          simp [shownSteps]
        rw [shownSteps_uxFlowInit, shownSteps_congr (s := s') (by simp), hnone]
        have hreview : cString (literal "transaction") = some (ascii "transaction") := by decide
        have htype : cString ((opened t a).ctx.type.memmove 0 (literal text)).bytes =
            some (ascii text) :=
          cString_memmove _ _ hz hlen
        simp [uxSignRootKeysReview, uxSignFlowSharedReview, Step.shown, reviewSteps, hreview, htype]
    · simp [numberOf]
      rfl
    · simp [Only, uxSignRootKeysReview, uxSignFlowSharedReview]
    · simp [Only, uxSignRootKeysReview, uxSignFlowSharedReview]
  · -- every other packet needs another state
    refine (wp_ite _ _ _).mpr ⟨fun h => (by cases h.2), fun _ => ?_⟩
    exact (wp_ite _ _ _).mpr ⟨fun h => (by cases h.2), fun _ => trivial⟩

/-! ### Keys and the threshold -/

/-- One key further. -/
theorem Received.key {keys : List (List UInt8)} {s s' : Shared} {key : List UInt8}
    (h : Received first text keys s) (hlen : key.length = 33) (hhash : s'.hash = s.hash ++ key)
    (hshown : shownSteps s' = shownSteps s ++ [keyStep key]) :
    Received first text (keys ++ [key]) s' where
  hash := by
    rw [hhash, h.hash, List.flatten_append, List.flatten_singleton, List.append_assoc]
  shown := by
    rw [hshown, h.shown, List.map_append, List.map_singleton, List.append_assoc]
  length := by
    intro k hk
    rcases List.mem_append.mp hk with hk | hk
    · exact h.length k hk
    · rw [List.mem_singleton.mp hk]
      exact hlen

theorem uint16_pred {n : UInt16} (h : ¬ n ≤ 0) : (n - 1).toNat = n.toNat - 1 ∧ 0 < n.toNat := by
  have hpos : 0 < n.toNat := UInt16.lt_iff_toNat_lt.mp (UInt16.not_le.mp h)
  refine ⟨UInt16.toNat_sub_of_le _ _ (UInt16.le_iff_toNat_le.mpr ?_), hpos⟩
  exact hpos

theorem handleUpdateKeys_inv {a : Apdu} {keys : List (List UInt8)}
    (hi : t.shared.currentInstruction = some ins)
    (received : Received first text keys t.shared) (state : t.ctx.state = .key)
    (left : keys.length + t.ctx.numberOfUpdateKeys.toNat = (numberOf first).toNat) :
    wp (handleUpdateKeys a.cdata) (fun _ t' => Inv ins first text t') (fun _ _ => True) t := by
  simp only [handleUpdateKeys, setState, wp_bind, Fw.wp_getCtx, Fw.wp_throwIf, wp_updateHash,
    Fw.wp_eval, Fw.wp_modifyCtx, Fw.wp_when, wp_uxFlowInit, wp_waitForButton, implies_true,
    and_true, true_and]
  intro hpos hex hhex
  obtain ⟨hpred, hn⟩ := uint16_pred hpos
  have hkey : ((a.cdata.advance 1).slice 32).length = 32 := Ptr.slice_length _ _
  have htext : cString hex.bytes = some (paginate (hexText ((a.cdata.advance 1).slice 32))) := by
    rw [toPaginatedHex_eq _ _ (by omega) (by omega)] at hhex
    cases hhex
    exact cString_hex _ _ (by omega)
  have hall (s : Shared) (hs : s.hash = t.shared.hash ++ a.cdata.slice 1 ++
        (a.cdata.advance 1).slice 32) (hscr : shownSteps s = shownSteps t.shared ++
          [("Update key", some (paginate (hexText ((a.cdata.advance 1).slice 32))))]) :
      Received first text (keys ++ [a.cdata.slice 33]) s := by
    refine received.key (Ptr.slice_length _ _) ?_ ?_
    · rw [hs, List.append_assoc, ← Ptr.slice_add]
    · rw [hscr, keyStep, show a.cdata.slice 33 = a.cdata 0 :: (a.cdata.advance 1).slice 32 from
        Ptr.slice_succ _ _, List.drop_one, List.tail_cons]
  have hshown (flow : List Step)
      (hflow : flow.map (fun st => (st.title, st.shown)) = [("Update key", cString hex.bytes)])
      (s : Shared) (hs : screens s = screens t.shared) :
      shownSteps (s.uxFlowInit flow) = shownSteps t.shared ++
        [("Update key", some (paginate (hexText ((a.cdata.advance 1).slice 32))))] := by
    rw [shownSteps_uxFlowInit, shownSteps_congr hs, hflow, htext]
  have hdisplay (c : Context) : Only [.none, .sendSuccessNoIdle] (uxSignRootKeysUpdateKey c) := by
    simp [Only, uxSignRootKeysUpdateKey]
  constructor
  · intro hlast
    have hone : t.ctx.numberOfUpdateKeys.toNat = 1 := by
      have hz := congrArg UInt16.toNat hlast
      rw [hpred] at hz
      have : (0 : UInt16).toNat = 0 := rfl
      omega
    refine .of_phase hi (.threshold (keys ++ [a.cdata.slice 33]) ?_ rfl ?_ ?_ (hdisplay _))
      (hdisplay _)
    · exact hall _ rfl (hshown _ rfl _ (by simp))
    · rw [List.length_append, List.length_singleton]
      omega
    · rw [List.length_append, List.length_singleton]
      omega
  · intro _
    refine .of_phase hi (.key (keys ++ [a.cdata.slice 33]) ?_ state ?_ (hdisplay _))
      (hdisplay _)
    · exact hall _ rfl (hshown _ rfl _ (by simp))
    · show (keys ++ [_]).length + (t.ctx.numberOfUpdateKeys - 1).toNat = _
      rw [List.length_append, List.length_singleton, hpred]
      omega

theorem handleThreshold_inv {a : Apdu} {keys : List (List UInt8)}
    (hi : t.shared.currentInstruction = some ins) (ho : t.shared.replyOwed = true)
    (hname : keyUpdateText (keyUpdatePair first) = some text)
    (received : Received first text keys t.shared) (all : keys.length = (numberOf first).toNat)
    (some_key : 1 ≤ keys.length) :
    wp (handleThreshold a.cdata) (fun _ t' => Inv ins first text t') (fun _ _ => True) t := by
  simp only [handleThreshold, wp_bind, wp_updateHash, Fw.wp_eval, Fw.wp_modifyCtx, wp_uxFlowInit,
    wp_waitForButton, implies_true, and_true]
  intro dec hdec
  have hlen := (bin2dec_length hdec).2.1
  have hdec := bin2dec_eq hdec
  rw [UInt16.toNat_toUInt64] at hdec
  subst hdec
  have htext : cString (t.ctx.threshold.memmove 0 (decimal (a.cdata.u2be 0).toNat ++ [0])).bytes =
      some (decimal (a.cdata.u2be 0).toNat) := by
    refine cString_memmove _ _ (zero_not_mem_decimal _) ?_
    rw [List.length_append, List.length_singleton] at hlen
    omega
  exact {
    instruction := by
      intro i hi'
      exact (Option.some.inj (hi.symm.trans hi')).symm
    own := by
      simp [uxSignRootKeysUpdateThreshold, uxSignAndDecline, uxSignFlowSharedSign,
        uxSignFlowSharedDecline, Callback.isShared]
    active := fun _ _ => .signing ⟨ho, by
      simp [Only, uxSignRootKeysUpdateThreshold, uxSignAndDecline, uxSignFlowSharedSign,
        uxSignFlowSharedDecline]⟩
    signed := by
      intro _
      refine ⟨text, keys, a.cdata.u2be 0, hname, all, some_key, received.length, ?_, ?_⟩
      · show t.shared.hash ++ a.cdata.slice 2 = _
        rw [received.hash, Ptr.slice_two]
      · show shownSteps (Shared.uxFlowInit _ _) = _
        rw [shownSteps_uxFlowInit, shownSteps_congr (s := t.shared) (by simp), received.shown]
        have hsign : cString (literal "transaction") = some (ascii "transaction") := by decide
        have hdecline : cString (literal "sign transaction") =
            some (ascii "sign transaction") := by decide
        simp [uxSignRootKeysUpdateThreshold, uxSignAndDecline, uxSignFlowSharedSign,
          uxSignFlowSharedDecline, Step.shown, thresholdSteps, htext, hsign, hdecline] }

/-- A command of the session. -/
theorem command_inv {updateType : UInt8} {a : Apdu} (h : Inv ins first text t)
    (hname : keyUpdateText (keyUpdatePair first) = some text)
    (hs : SessionStep (keysApp sdk updateType) t (.command a) t') : Inv ins first text t' := by
  obtain ⟨hc, hr, ho, hh⟩ := hs
  have hi : (entered t a).shared.currentInstruction = some ins :=
    hc.trans (congrArg some (h.instruction _ hc))
  have hscr : shownSteps (entered t a).shared = shownSteps t.shared :=
    shownSteps_congr (screens_entered t a)
  have hw : wp ((keysApp sdk updateType).handler a false) (fun _ t' => Inv ins first text t')
      (fun _ _ => True) (entered t a) := by
    show wp (handleSignHigherLevelKeys a.cdata a.p1 updateType false) _ _ _
    unfold handleSignHigherLevelKeys
    rw [wp_bind, Fw.wp_when]
    refine ⟨fun h => absurd h (by decide), fun _ => ?_⟩
    rw [wp_bind, Fw.wp_getCtx]
    have hphase := h.active hr (by rw [hc]; simp)
    cases hphase with
    | key keys received state left display =>
      have hst : (entered t a).ctx.state = .key := state
      rw [hst, if_neg (by simp)]
      refine (wp_ite _ _ _).mpr ⟨fun _ => ?_, fun _ => ?_⟩
      · exact handleUpdateKeys_inv hi ⟨received.hash, hscr.trans received.shown, received.length⟩
          state left
      · rw [if_neg (by simp)]
        trivial
    | threshold keys received state all some_key display =>
      have hst : (entered t a).ctx.state = .threshold := state
      rw [hst, if_neg (by simp), if_neg (by simp)]
      refine (wp_ite _ _ _).mpr ⟨fun _ => ?_, fun _ => trivial⟩
      exact handleThreshold_inv hi rfl hname
        ⟨received.hash, hscr.trans received.shown, received.length⟩ all some_key
    | signing hsign =>
      -- no command comes while the Sign screen is up
      rw [hsign.owed] at ho
      cases ho
  have hq := of_wp_ok hw hh
  exact hq

theorem Received.passed {keys : List (List UInt8)} (h : Received first text keys t.shared)
    (hp : Passed t t') (hscr : screens t'.shared = screens t.shared) :
    Received first text keys t'.shared :=
  ⟨hp.hash.trans h.hash, (shownSteps_congr hscr).trans h.shown, h.length⟩

theorem press_inv {updateType : UInt8} {i : Nat} (h : Inv ins first text t)
    (hr : t.shared.running = true) (hne : t.shared.currentInstruction ≠ none) :
    Inv ins first text (finish ((keysApp sdk updateType).callback (t.shared.pressed i) t)) := by
  have hshared : (t.shared.pressed i).isShared = true := by
    unfold Shared.pressed
    cases hi : t.shared.display[i]? with
    | none => rfl
    | some st => exact h.own st (List.mem_of_getElem? hi)
  have hp : Passed t (finish ((keysApp sdk updateType).callback (t.shared.pressed i) t)) :=
    sharedCallback_passed t sdk hshared
  refine ⟨fun i hi => h.instruction i (hp.instruction i hi), ?_, fun hr' hne' => ?_, fun hs => ?_⟩
  · rcases hp.display with ⟨_, hd⟩ | hd
    · rw [hd]
      exact h.own
    · rw [hd]
      exact uxMenuIdleFlow_shared
  · obtain ⟨hd, _, _, hscr⟩ := hp.goes_on hr' hne'
    cases h.active hr hne with
    | key keys received state left display =>
      exact .key keys (received.passed hp hscr) (by rw [hp.ctx]; exact state)
        (by rw [hp.ctx]; exact left) (by rw [hd]; exact display)
    | threshold keys received state all some_key display =>
      exact .threshold keys (received.passed hp hscr) (by rw [hp.ctx]; exact state) all some_key
        (by rw [hd]; exact display)
    | signing hsign =>
      rcases hsign.press sdk (fun _ => Pure.pure ⟨⟩) i with hsame | hend
      · have hstay : finish ((keysApp sdk updateType).callback (t.shared.pressed i) t) = t := hsame
        rw [hstay]
        exact .signing hsign
      · exact absurd (hend hr') hne'
  · obtain ⟨hd, hscr⟩ := hp.of_offersSign hs
    rw [hd] at hs
    obtain ⟨text', keys, threshold, hname, hn, h1, hkey, hhash, hshown⟩ := h.signed hs
    exact ⟨text', keys, threshold, hname, hn, h1, hkey, hp.hash.trans hhash,
      (shownSteps_congr hscr).trans hshown⟩

end Session

/-! ## The device -/

section Device

variable {μ ν : Type} {sdk : Sdk} {u : GovernanceContext μ ν} {ins : UInt8}
  {d₀ d₁ d : Device μ} {first : Apdu} {text : String}

/-- The update type that an instruction is for. -/
def updateTypeFor (ins : UInt8) : UInt8 :=
  if ins = insUpdateRootKeys then UpdateType.updateRootKeys else UpdateType.updateLevel1Keys

theorem updateTypeFor_cases (ins : UInt8) : updateTypeFor ins = UpdateType.updateRootKeys ∨
    updateTypeFor ins = UpdateType.updateLevel1Keys := by
  unfold updateTypeFor
  split
  · exact .inl rfl
  · exact .inr rfl

theorem embeds (sdk : Sdk) (u : GovernanceContext μ ν)
    (hins : ins = insUpdateRootKeys ∨ ins = insUpdateLevel1Keys) :
    Embeds (governanceApp sdk u) u.signUpdateKeysWithRootKeysContext
      (keysApp sdk (updateTypeFor ins)) ins fun cb => cb.isShared = true where
  handler := by
    intro a b ha
    have hh : (governanceApp sdk u).handler a b = Fw.on u.signUpdateKeysWithRootKeysContext
        (handleSignHigherLevelKeys a.cdata a.p1 (updateTypeFor ins) b) := by
      show governanceHandler sdk u a b = _
      unfold governanceHandler
      rcases hins with rfl | rfl <;> rw [ha] <;> rfl
    rw [hh]
    exact Views.on _ _
  callback := by
    intro cb hcb
    exact Views.sharedCallback _ sdk hcb

/-- Unless the pair is the one without a text, a session keeps the invariant. -/
theorem run_inv (hins : ins = insUpdateRootKeys ∨ ins = insUpdateLevel1Keys)
    (hb : begins (governanceApp sdk u) ins d₀ first d₁) (hstale : keyUpdatePair first ≠ (11, 1)) :
    ∃ text, keyUpdateText (keyUpdatePair first) = some text ∧ ∀ d, Run (lockStep (governanceApp sdk u)) (fun _ _ => True) d₁ d →
      Inv ins first text (d.view u.signUpdateKeysWithRootKeysContext) := by
  obtain ⟨_, ha, hh⟩ := begins_handler hb
  have hok : (keysApp sdk (updateTypeFor ins)).handler first true
      (opened (d₀.view u.signUpdateKeysWithRootKeysContext) first) =
        .ok ⟨⟩ (d₁.view u.signUpdateKeysWithRootKeysContext) :=
    (embeds sdk u hins).handler_ok ha hh
  have hfirst := of_wp_ok (handleInitial_inv (updateTypeFor_cases ins) ha hstale) hok
  obtain ⟨text, hname, hinv⟩ := hfirst
  refine ⟨text, hname, fun d hrun => ?_⟩
  refine (embeds sdk u hins).invariant (P := Inv ins first text) (C := fun _ _ => True) hb hrun
    ?_ ?_ ?_ ?_
  · intro t ht
    rw [hok] at ht
    cases ht
    exact hinv
  · intro t hP
    exact hP.instruction
  · intro t i hP _
    unfold Shared.pressed
    cases hi : t.shared.display[i]? with
    | none => rfl
    | some st => exact hP.own st (List.mem_of_getElem? hi)
  · intro t e t' hP _ hs
    cases e with
    | command a => exact command_inv hP hname hs
    | press i =>
      obtain ⟨hne, hr, rfl⟩ := hs
      exact press_inv hP hr hne
    | noApdu => exact hs.elim

variable (sdk u) in
theorem governanceHandler_level2 {a : Apdu} {b : Bool}
    (h : a.ins = insUpdateLevel2KeysRoot ∨ a.ins = insUpdateLevel2KeysLevel1) :
    ∃ updateType, (a.ins = insUpdateLevel2KeysLevel1 → updateType = UpdateType.updateLevel1Keys) ∧
      (governanceApp sdk u).handler a b = Fw.on u.signUpdateAuthorizations
        (handleSignUpdateAuthorizations a.cdata a.p1 a.p2 updateType a.lc b) := by
  rcases h with h | h
  · refine ⟨UpdateType.updateRootKeys, fun h' => ?_, ?_⟩
    · rw [h] at h'
      cases h'
    · show governanceHandler sdk u a b = _
      unfold governanceHandler
      rw [h]
      rfl
  · refine ⟨UpdateType.updateLevel1Keys, fun _ => rfl, ?_⟩
    show governanceHandler sdk u a b = _
    unfold governanceHandler
    rw [h]
    rfl

open SignUpdateAuthorizations in
theorem readAuthsVersion_unnamed {updateType k : UInt8} {v : AuthsVersion}
    (h : readAuthsVersion updateType k = .ok v) : keyUpdateText (updateType, k) = none := by
  unfold readAuthsVersion at h
  split_ifs at h <;> cases h <;> subst_vars <;> rfl

/-- The first command of a level 2 session announces a pair without a name. -/
theorem level2_pair {ins' : UInt8}
    (hins : ins' = insUpdateLevel2KeysRoot ∨ ins' = insUpdateLevel2KeysLevel1)
    (hb : begins (governanceApp sdk u) ins' d₀ first d₁) :
    keyUpdateText (keyUpdatePair first) = none := by
  obtain ⟨_, ha, hh⟩ := begins_handler hb
  obtain ⟨updateType, _, happ⟩ := governanceHandler_level2 sdk u (b := true)
    (ha.symm ▸ hins)
  rw [happ] at hh
  have hw : wp (handleSignUpdateAuthorizations first.cdata first.p1 first.p2 updateType first.lc
      true) (fun _ _ => keyUpdateText (keyUpdatePair first) = none) (fun _ _ => True)
      ((opened d₀ first).view u.signUpdateAuthorizations) := by
    unfold handleSignUpdateAuthorizations
    rw [wp_bind, Fw.wp_throwIf]
    refine ⟨fun _ => trivial, fun _ => ?_⟩
    rw [wp_bind, Fw.wp_when]
    refine ⟨fun _ => ?_, fun h => absurd rfl h⟩
    rw [SignUpdateAuthorizations.setState, Fw.wp_modifyCtx, wp_bind, Fw.wp_getCtx]
    refine (wp_ite _ _ _).mpr ⟨fun _ => ?_, fun _ => ?_⟩
    · rw [SignUpdateAuthorizations.handleInitial, wp_bind]
      refine wp_readUpdateHeader_type (fun s' hs htype => ?_) fun _ _ _ => trivial
      rw [wp_bind, wp_updateHash, wp_bind, Fw.wp_eval]
      refine ⟨fun v hv => ?_, fun _ _ => trivial⟩
      have hnone : keyUpdateText (keyUpdatePair first) = none := by
        rw [keyUpdatePair, htype]
        exact readAuthsVersion_unnamed hv
      exact wp_of_run (fun _ _ _ => hnone) fun _ _ _ => trivial
    · -- every other packet needs another state
      refine (wp_ite _ _ _).mpr ⟨fun h => (by cases h.2.1), fun _ => ?_⟩
      refine (wp_ite _ _ _).mpr ⟨fun h => (by cases h.2), fun _ => ?_⟩
      refine (wp_ite _ _ _).mpr ⟨fun h => (by cases h.2), fun _ => ?_⟩
      exact (wp_ite _ _ _).mpr ⟨fun h => (by cases h.2), fun _ => trivial⟩
  have hnone := of_wp_ok hw (Fw.view_of_on hh)
  exact hnone

/-- The pair without a text is the one of a level 2 update too. -/
theorem stale_starts_level2 (hins : ins = insUpdateRootKeys ∨ ins = insUpdateLevel1Keys)
    (hb : begins (governanceApp sdk u) ins d₀ first d₁) (h : keyUpdatePair first = (11, 1)) :
    StartsLevel2 (governanceApp sdk u) (11, 1) := by
  obtain ⟨hidle, ha, hh⟩ := begins_handler hb
  have hok : (keysApp sdk (updateTypeFor ins)).handler first true
      (opened (d₀.view u.signUpdateKeysWithRootKeysContext) first) =
        .ok ⟨⟩ (d₁.view u.signUpdateKeysWithRootKeysContext) :=
    (embeds sdk u hins).handler_ok ha hh
  obtain ⟨htype, hk⟩ := Prod.mk.inj h
  have hpath : ¬ first.cdata 0 > 8 := by
    have hw : wp ((keysApp sdk (updateTypeFor ins)).handler first true)
        (fun _ _ => ¬ first.cdata 0 > 8) (fun _ _ => True)
        (opened (d₀.view u.signUpdateKeysWithRootKeysContext) first) := by
      show wp (handleSignHigherLevelKeys _ _ _ true) _ _ _
      unfold handleSignHigherLevelKeys
      rw [wp_bind, Fw.wp_when]
      refine ⟨fun _ => ?_, fun h => absurd rfl h⟩
      rw [setState, Fw.wp_modifyCtx, wp_bind, Fw.wp_getCtx]
      refine (wp_ite _ _ _).mpr ⟨fun _ => ?_, fun _ => ?_⟩
      · rw [handleInitial, wp_bind]
        refine wp_readUpdateHeader_iff (fun hpath _ _ _ => ?_) fun _ _ _ _ => trivial
        exact wp_of_run (fun _ _ _ => hpath) fun _ _ _ => trivial
      · refine (wp_ite _ _ _).mpr ⟨fun h => (by cases h.2), fun _ => ?_⟩
        exact (wp_ite _ _ _).mpr ⟨fun h => (by cases h.2), fun _ => trivial⟩
    have hno := of_wp_ok hw hok
    exact hno
  let again : Apdu := { first with cla := 0xE0, ins := insUpdateLevel2KeysLevel1, p1 := 0, p2 := 0 }
  obtain ⟨updateType, hut, happ⟩ := governanceHandler_level2 sdk u (a := again)
    (b := true) (.inr rfl)
  have hw : wp (handleSignUpdateAuthorizations first.cdata 0 0 updateType first.lc true)
      (fun _ _ => True) (fun _ _ => False) ((opened d₀ again).view u.signUpdateAuthorizations) := by
    rw [hut rfl]
    unfold handleSignUpdateAuthorizations
    rw [wp_bind, Fw.wp_throwIf]
    refine ⟨fun hno => hno.1 rfl, fun _ => ?_⟩
    rw [wp_bind, Fw.wp_when]
    refine ⟨fun _ => ?_, fun h => absurd rfl h⟩
    rw [SignUpdateAuthorizations.setState, Fw.wp_modifyCtx, wp_bind, Fw.wp_getCtx, if_pos ⟨rfl, rfl⟩,
      SignUpdateAuthorizations.handleInitial, wp_bind]
    refine wp_readUpdateHeader_iff (fun _ _ s' _ => ?_)
      fun hno => absurd ⟨UInt8.not_lt.mp hpath, htype⟩ hno
    have hk' : first.cdata.advance (1 + 4 * (first.cdata 0).toNat + 29) 0 = 1 := hk
    simp only [wp_bind, wp_updateHash, Fw.wp_eval, hk']
    refine ⟨fun v hv => ?_, fun e he => (by cases he)⟩
    obtain rfl : SignUpdateAuthorizations.AuthsVersion.v0 = v := Except.ok.inj hv
    trivial
  obtain ⟨d', hb', _⟩ := begins_of_wp (P := fun _ => True) (c := again) hidle rfl happ hw
  exact ⟨_, d₀, again, d', .inr rfl, hb', h⟩

/-- A root or level 1 key update is signed as named, and starts with a pair that no level 2 update
starts with, exactly unless it is the pair of level 1 keys with the prefix of the root update. -/
theorem signed_as_named_iff (hins : ins = insUpdateRootKeys ∨ ins = insUpdateLevel1Keys)
    (hb : begins (governanceApp sdk u) ins d₀ first d₁) :
    ((∀ d, Run (lockStep (governanceApp sdk u)) (fun _ _ => True) d₁ d →
          offersSign d.shared.display = true → SignedAsNamed first d.shared) ∧
        ¬ StartsLevel2 (governanceApp sdk u) (keyUpdatePair first)) ↔
      keyUpdatePair first ≠ (11, 1) := by
  constructor
  · rintro ⟨_, hno⟩ hstale
    rw [hstale] at hno
    exact hno (stale_starts_level2 hins hb hstale)
  · intro hstale
    obtain ⟨text, hname, hinv⟩ := run_inv hins hb hstale
    refine ⟨fun d hrun hs => (hinv d hrun).signed hs, ?_⟩
    rintro ⟨ins', d, first', d', hins', hb', hpair⟩
    have hnone := level2_pair hins' hb'
    rw [hpair, hname] at hnone
    cases hnone

end Device

/-! ## Two sessions -/

/-- The first command of an update that announces one key. -/
def oneKey (ins updateType keyUpdateType : UInt8) : Apdu :=
  sent ins p1Initial 0 ([0] ++ List.replicate 28 0 ++ [updateType, keyUpdateType, 0, 1])

/-- The rest of the session, up to the Sign screen. -/
def keyAndThreshold (ins : UInt8) : List Event :=
  [ .press 1,
    .command (sent ins p1UpdateKeys 0 (List.replicate 33 7)),
    .press 0,
    .command (sent ins p1Threshold 0 [0, 1]) ]

theorem level1_with_root_keys : ∃ d₁ d,
    begins (governanceApp zeroAddressSdk GovernanceContexts.layout) insUpdateRootKeys
      bootedGovernance (oneKey insUpdateRootKeys 10 1) d₁ ∧
    Run (lockStep (governanceApp zeroAddressSdk GovernanceContexts.layout)) (fun _ _ => True) d₁ d ∧
    offersSign d.shared.display = true ∧
    SignedAsNamed (oneKey insUpdateRootKeys 10 1) d.shared := by
  have hex : ((accepted (dispatch (governanceApp zeroAddressSdk GovernanceContexts.layout)
      (oneKey insUpdateRootKeys 10 1) (receivedCommand bootedGovernance))).any fun d₁ =>
        (exec (guarded (lockStep (governanceApp zeroAddressSdk GovernanceContexts.layout))
          fun _ _ => True) d₁ (keyAndThreshold insUpdateRootKeys)).any fun d =>
          offersSign d.shared.display) = true := by
    decide
  obtain ⟨d₁, hd₁, hex⟩ := (Option.any_eq_true _ _).mp hex
  obtain ⟨d, hd, hs⟩ := (Option.any_eq_true _ _).mp hex
  have hb : begins (governanceApp zeroAddressSdk GovernanceContexts.layout) insUpdateRootKeys
      bootedGovernance (oneKey insUpdateRootKeys 10 1) d₁ := ⟨⟨rfl, rfl, rfl⟩, rfl, hd₁⟩
  have hrun := exec_run hd
  exact ⟨d₁, d, hb, hrun, hs,
    ((signed_as_named_iff (.inl rfl) hb).mpr (by decide)).1 d hrun hs⟩

/-- With the level 1 keys, the prefix of the root update leads to the Sign screen. -/
theorem level1_with_root_prefix : ∃ d₁,
    begins (governanceApp zeroAddressSdk GovernanceContexts.layout) insUpdateLevel1Keys
      bootedGovernance (oneKey insUpdateLevel1Keys 11 1) d₁ ∧
    ¬ ∀ d, Run (lockStep (governanceApp zeroAddressSdk GovernanceContexts.layout))
        (fun _ _ => True) d₁ d →
      offersSign d.shared.display = true →
      SignedAsNamed (oneKey insUpdateLevel1Keys 11 1) d.shared := by
  have hex : ((accepted (dispatch (governanceApp zeroAddressSdk GovernanceContexts.layout)
      (oneKey insUpdateLevel1Keys 11 1) (receivedCommand bootedGovernance))).any fun d₁ =>
        (exec (guarded (lockStep (governanceApp zeroAddressSdk GovernanceContexts.layout))
          fun _ _ => True) d₁ (keyAndThreshold insUpdateLevel1Keys)).any fun d =>
          offersSign d.shared.display) = true := by
    decide
  obtain ⟨d₁, hd₁, hex⟩ := (Option.any_eq_true _ _).mp hex
  obtain ⟨d, hd, hs⟩ := (Option.any_eq_true _ _).mp hex
  refine ⟨d₁, ⟨⟨rfl, rfl, rfl⟩, rfl, hd₁⟩, fun h => ?_⟩
  obtain ⟨text, _, _, hname, _⟩ := h d (exec_run hd) hs
  have hnone : keyUpdateText (keyUpdatePair (oneKey insUpdateLevel1Keys 11 1)) = none := by decide
  rw [hnone] at hname
  cases hname

end SignHigherLevelKeyUpdate
end ConcordiumLedger
