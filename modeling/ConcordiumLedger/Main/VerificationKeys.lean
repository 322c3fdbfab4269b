import ConcordiumLedger.Common.NumberFacts
import ConcordiumLedger.Common.PaginatedHex
import ConcordiumLedger.Common.Presses
import ConcordiumLedger.Main.App

/-!
# Main.VerificationKeys

The verification keys that a session has hashed, and those that it has shown. The last key of a
list is not shown before the final screen.

* `Taken`, `taken` — what each command of the session has hashed, found in the log.
* `KeySeen`, `AllSeen` — the key, or the thresholds, of a command were on a screen.
* `SignPublicInformationForIp.InfoKeys` — the invariant of the public information for an identity
  provider, the shortest of the three instructions.
-/

namespace ConcordiumLedger

open CMem CProg CProg.Prog

variable {μ γ : Type}

/-! ## What was hashed -/

/-- What a command has hashed. -/
structure Taken where
  ins : UInt8
  p1 : UInt8
  p2 : UInt8
  bytes : List UInt8
deriving DecidableEq

def takenStep : List Taken → Action → List Taken
  | cs, .handler ins p1 p2 _ => ⟨ins, p1, p2, []⟩ :: cs
  | c :: cs, .updateHash bytes => { c with bytes := c.bytes ++ bytes } :: cs
  | cs, _ => cs

/-- What the commands of the session have hashed, the last command first. -/
def taken (s : Shared) : List Taken := (sessionLog s.log).foldl takenStep []

namespace Taken

/-- A packet of a credential: the update of credentials selects those by P2. -/
def ofCredential (c : Taken) : Bool :=
  c.ins = insCredentialDeployment ∨ c.ins = insSignUpdateCredential ∧
    c.p2 = SignCredentialDeployment.p2CredentialCredential

/-- The packet brings a verification key: its index, its scheme and 32 bytes. -/
def bringsKey (c : Taken) : Bool :=
  c.ins = insPublicInfoForIp ∧ c.p1 = SignPublicInformationForIp.p1VerificationKey ∨
    c.ofCredential ∧ c.p1 = SignCredentialDeployment.p1VerificationKey

/-- The packet brings the thresholds of a credential: that of the signatures first and that of the
anonymity revokers, before their number, at 53. -/
def bringsThresholds (c : Taken) : Bool :=
  c.ofCredential ∧ c.p1 = SignCredentialDeployment.p1SignatureThreshold

def key (c : Taken) : List UInt8 := c.bytes.drop 2

end Taken

/-! ## What was shown -/

def keyText (key : List UInt8) : Option (List UInt8) := some (paginate (hexText key))

/-- A screen of the session had the step with the key. -/
def KeySeen (s : Shared) (key : List UInt8) : Prop :=
  key.length = 32 ∧ ∃ flow ∈ screens s, ∃ st ∈ flow, st.title = "Public key" ∧
    st.shown = keyText key

/-- The text of the threshold of the anonymity revokers. -/
def arText (p : Ptr) : List UInt8 :=
  decimal (p 53).toNat ++ ascii " out of " ++ decimal (p.u2be 54).toNat

/-- A screen of the session had the steps with the two thresholds. -/
def ThresholdsSeen (s : Shared) (bytes : List UInt8) : Prop :=
  ∃ flow ∈ screens s,
    (∃ st ∈ flow, st.title = "Signature threshold" ∧
      st.shown = some (decimal (Ptr.ofBytes bytes 0).toNat)) ∧
    ∃ st ∈ flow, st.title = "AR threshold" ∧ st.shown = some (arText (Ptr.ofBytes bytes))

/-- Every verification key and all thresholds of credentials that the session has hashed were on its
screens. -/
structure AllSeen (s : Shared) : Prop where
  keys : ∀ c ∈ taken s, c.bringsKey = true → KeySeen s c.key
  thresholds : ∀ c ∈ taken s, c.bringsThresholds = true → ThresholdsSeen s c.bytes

/-! ## The log -/

section Log

variable (s : Shared)

@[simp] theorem taken_updateHash (bytes : List UInt8) :
    taken (s.updateHash bytes) = takenStep (taken s) (.updateHash bytes) := by
  simp [taken, sessionStep]

@[simp] theorem taken_sha256Init : taken s.sha256Init = taken s := by
  simp [taken, sessionStep, takenStep]

@[simp] theorem taken_reply (data : List UInt8) (sw : UInt16) :
    taken (s.reply data sw) = taken s := by
  simp [taken, sessionStep, takenStep]

@[simp] theorem taken_uxFlowInit (flow : List Step) : taken (s.uxFlowInit flow) = taken s := by
  simp [taken, sessionStep, takenStep]

@[simp] theorem taken_loadPath (cdata : Ptr) : taken (s.loadPath cdata) = taken s := by
  simp [taken, sessionStep, takenStep]

end Log

theorem taken_entered (d : Device γ) (c : Apdu) :
    taken (entered d c).shared = ⟨c.ins, c.p1, c.p2, []⟩ :: taken d.shared := by
  simp [taken, entered, sessionStep, takenStep]

theorem taken_opened (d : Device γ) (c : Apdu) :
    taken (opened d c).shared = [⟨c.ins, c.p1, c.p2, []⟩] := by
  simp [taken, opened, sessionStep, takenStep]

theorem taken_quiet {s s' : Shared} {as : List Action} (h : s'.log = s.log ++ as)
    (hq : ∀ a ∈ as, a.quiet = true) : taken s' = taken s := by
  have hfold : ∀ (as : List Action) (cs : List Taken), (∀ a ∈ as, a.quiet = true) →
      as.foldl takenStep cs = cs := by
    intro as
    induction as with
    | nil => intro cs _; rfl
    | cons a as ih =>
      intro cs hq
      have ha : takenStep cs a = cs := by
        have hqa := hq a List.mem_cons_self
        cases a with
        | handler ins p1 p2 data => cases hqa
        | updateHash bytes => cases hqa
        | _ => cases cs <;> rfl
      rw [List.foldl_cons, ha]
      exact ih cs fun b hb => hq b (List.mem_cons_of_mem _ hb)
  rw [taken, h, sessionLog_append_quiet hq, List.foldl_append]
  exact hfold as _ hq

theorem taken_passed {t t' : Device γ} (h : Passed t t') : taken t'.shared = taken t.shared := by
  obtain ⟨as, hl, hq⟩ := h.log
  exact taken_quiet hl hq

theorem KeySeen.mono {s s' : Shared} {key : List UInt8} (h : KeySeen s key)
    (hs : screens s ⊆ screens s') : KeySeen s' key := by
  obtain ⟨hlen, flow, hflow, hst⟩ := h
  exact ⟨hlen, flow, hs hflow, hst⟩

theorem AllSeen.congr {s s' : Shared} (h : AllSeen s) (ht : taken s' = taken s)
    (hs : screens s' = screens s) : AllSeen s' where
  keys := by
    intro c hc hk
    rw [ht] at hc
    exact (h.keys c hc hk).mono (by rw [hs]; exact List.Subset.refl _)
  thresholds := by
    intro c hc hk
    rw [ht] at hc
    obtain ⟨flow, hflow, hst⟩ := h.thresholds c hc hk
    exact ⟨flow, by rw [hs]; exact hflow, hst⟩

/-- A Sign step that is left after a press was there before. -/
theorem AllSeen.passed {t t' : Device γ} (hp : Passed t t')
    (h : offersSign t.shared.display = true → AllSeen t.shared)
    (hs : offersSign t'.shared.display = true) : AllSeen t'.shared := by
  obtain ⟨hd, hscr⟩ := hp.of_offersSign hs
  rw [hd] at hs
  exact (h hs).congr (taken_passed hp) hscr

/-- A key in the array of a screen. -/
theorem cString_key {buf hex : Buffer 68} {key : List UInt8} (hlen : key.length = 32)
    (h : toPaginatedHex key buf = .ok hex) : cString hex.bytes = keyText key := by
  rw [toPaginatedHex_eq _ _ (by omega) (by omega)] at h
  cases h
  exact cString_hex _ _ (by omega)

/-- The keys that were hashed were shown, except one that `text` is the text of. -/
def KeysSeenBut (s : Shared) (text : Option (List UInt8)) : Prop :=
  ∀ c ∈ taken s, c.bringsKey = true → KeySeen s c.key ∨ c.key.length = 32 ∧ text = keyText c.key

def KeysSeen (s : Shared) : Prop := ∀ c ∈ taken s, c.bringsKey = true → KeySeen s c.key

theorem KeysSeen.but {s : Shared} (h : KeysSeen s) (text : Option (List UInt8)) :
    KeysSeenBut s text := fun c hc hk => .inl (h c hc hk)

/-- A screen with the text shows the last key too. -/
theorem KeysSeenBut.seen {s : Shared} {text : Option (List UInt8)} {flow : List Step}
    (h : KeysSeenBut s text) (hscr : flow ∈ screens s)
    (hflow : ∃ st ∈ flow, st.title = "Public key" ∧ st.shown = text) : KeysSeen s := by
  intro c hc hk
  rcases h c hc hk with hseen | ⟨hlen, htext⟩
  · exact hseen
  · refine ⟨hlen, flow, hscr, ?_⟩
    rw [← htext]
    exact hflow

/-- A command that brings a key: its text is at hand. -/
theorem KeysSeenBut.cons {s s' : Shared} {c : Taken} {cs : List Taken}
    (h : ∀ b ∈ cs, b.bringsKey = true → KeySeen s b.key) (hc : taken s' = c :: cs)
    (hs : screens s ⊆ screens s') (hlen : c.key.length = 32) : KeysSeenBut s' (keyText c.key) := by
  intro b hb hk
  rw [hc] at hb
  rcases List.mem_cons.mp hb with rfl | hb
  · exact .inr ⟨hlen, rfl⟩
  · exact .inl ((h b hb hk).mono hs)

/-- A command that brings none. -/
theorem KeysSeenBut.other {s s' : Shared} {text : Option (List UInt8)} {c : Taken}
    {cs : List Taken} (h : KeysSeenBut s text) (hc : taken s' = c :: cs) (hcs : taken s = cs)
    (hs : screens s' = screens s) (hno : c.bringsKey = false) : KeysSeenBut s' text := by
  intro b hb hk
  rw [hc] at hb
  rcases List.mem_cons.mp hb with rfl | hb
  · rw [hno] at hk
    cases hk
  · exact (h b (hcs ▸ hb) hk).imp_left fun hseen =>
      hseen.mono (by rw [hs]; exact List.Subset.refl _)

theorem KeysSeen.congr {s s' : Shared} (h : KeysSeen s) (ht : taken s' = taken s)
    (hs : screens s' = screens s) : KeysSeen s' := by
  intro c hc hk
  rw [ht] at hc
  exact (h c hc hk).mono (by rw [hs]; exact List.Subset.refl _)

theorem KeysSeenBut.mono {s s' : Shared} {text : Option (List UInt8)} (h : KeysSeenBut s text)
    (ht : taken s' = taken s) (hs : screens s ⊆ screens s') : KeysSeenBut s' text := by
  intro c hc hk
  rw [ht] at hc
  exact (h c hc hk).imp_left fun hseen => hseen.mono hs

theorem KeysSeenBut.congr {s s' : Shared} {text : Option (List UInt8)} (h : KeysSeenBut s text)
    (ht : taken s' = taken s) (hs : screens s' = screens s) : KeysSeenBut s' text :=
  h.mono ht (by rw [hs]; exact List.Subset.refl _)

/-- A flow with the text is put up. -/
theorem KeysSeenBut.shown {s : Shared} {text : Option (List UInt8)} {flow : List Step}
    (h : KeysSeenBut s text)
    (hflow : ∃ st ∈ flow, st.title = "Public key" ∧ st.shown = text) :
    KeysSeen (s.uxFlowInit flow) := by
  have hscr := screens_uxFlowInit s flow
  have hmem : flow ∈ screens (s.uxFlowInit flow) := by simp [hscr]
  refine (h.mono (taken_uxFlowInit _ _) ?_).seen hmem hflow
  rw [hscr]
  exact List.subset_append_left _ _

/-- The key of a packet: its index and its scheme come first. -/
theorem key_slice (ins p1 p2 : UInt8) (buf : Ptr) :
    (⟨ins, p1, p2, buf.slice 1 ++ (buf.advance 1).slice 1 ++
      ((buf.advance 1).advance 1).slice 32⟩ : Taken).key = ((buf.advance 1).advance 1).slice 32 := by
  show List.drop 2 (_ ++ _ ++ _) = _
  rw [List.drop_left' (by rw [List.length_append, Ptr.slice_length, Ptr.slice_length])]

/-! ## The command at hand -/

/-- The command at hand, and what it has hashed so far. -/
def AtHand (c : Taken) (cs : List Taken) (s : Shared) : Prop :=
  ∃ bytes, taken s = { c with bytes } :: cs

theorem AtHand.updateHash {c : Taken} {cs : List Taken} {s : Shared} (h : AtHand c cs s)
    (bytes : List UInt8) : AtHand c cs (s.updateHash bytes) := by
  obtain ⟨before, h⟩ := h
  refine ⟨before ++ bytes, ?_⟩
  rw [taken_updateHash, h]
  rfl

theorem AtHand.congr {c : Taken} {cs : List Taken} {s s' : Shared} (h : AtHand c cs s)
    (ht : taken s' = taken s) : AtHand c cs s' := by
  obtain ⟨bytes, h⟩ := h
  exact ⟨bytes, ht.trans h⟩

theorem AtHand.reply {c : Taken} {cs : List Taken} {s : Shared} (h : AtHand c cs s) :
    AtHand c cs (s.reply [] success) := h.congr (taken_reply _ _ _)

theorem AtHand.brings {c : Taken} {cs : List Taken} {s : Shared} (h : AtHand c cs s)
    {b : Taken} (hb : b ∈ taken s) :
    b.bringsKey = c.bringsKey ∧ b.bringsThresholds = c.bringsThresholds ∨ b ∈ cs := by
  obtain ⟨bytes, h⟩ := h
  rw [h] at hb
  rcases List.mem_cons.mp hb with rfl | hb
  · exact .inl ⟨rfl, rfl⟩
  · exact .inr hb

/-- The packet at hand brings no key, and the screens are those before it. -/
theorem KeysSeen.atHand {c : Taken} {s s' : Shared} (h : KeysSeen s)
    (hc : AtHand c (taken s) s') (hno : c.bringsKey = false) (hs : screens s' = screens s) :
    KeysSeen s' := by
  intro b hb hk
  rcases hc.brings hb with ⟨hsame, _⟩ | hb
  · rw [hsame, hno] at hk
    cases hk
  · exact (h b hb hk).mono (by rw [hs]; exact List.Subset.refl _)

theorem KeysSeenBut.atHand {c : Taken} {s s' : Shared} {text : Option (List UInt8)}
    (h : KeysSeenBut s text) (hc : AtHand c (taken s) s') (hno : c.bringsKey = false)
    (hs : screens s' = screens s) : KeysSeenBut s' text := by
  intro b hb hk
  rcases hc.brings hb with ⟨hsame, _⟩ | hb
  · rw [hsame, hno] at hk
    cases hk
  · exact (h b hb hk).imp_left fun hseen => hseen.mono (by rw [hs]; exact List.Subset.refl _)

theorem AllSeen.atHand {c : Taken} {s s' : Shared} (h : AllSeen s)
    (hc : AtHand c (taken s) s') (hkey : c.bringsKey = false)
    (hthr : c.bringsThresholds = false) (hs : screens s' = screens s) : AllSeen s' where
  keys := KeysSeen.atHand h.keys hc hkey hs
  thresholds := by
    intro b hb hk
    rcases hc.brings hb with ⟨_, hsame⟩ | hb
    · rw [hsame, hthr] at hk
      cases hk
    · obtain ⟨flow, hflow, hst⟩ := h.thresholds b hb hk
      exact ⟨flow, by rw [hs]; exact hflow, hst⟩

/-! ## Public information for an identity provider -/

namespace SignPublicInformationForIp

/-- The application as this instruction sees it. -/
def infoApp (sdk : Sdk) : App Context where
  handler := fun apdu b => handleSignPublicInformationForIp apdu.cdata apdu.p1 b
  callback := sharedCallback sdk fun _ => Pure.pure ⟨⟩

/-- Where a session is: the last key is only shown with the threshold. The review step of the final
screen replies, so that the threshold may come once more while the screen is up. -/
inductive Phase (t : Device Context) : Prop
  | keys (state : t.ctx.state = .verificationKey) (seen : KeysSeen t.shared)
      (unsigned : offersSign t.shared.display = false)
  | threshold (state : t.ctx.state = .threshold)
      (seen : KeysSeenBut t.shared (cString t.ctx.publicKey.bytes))
      (shown : offersSign t.shared.display = true → KeysSeen t.shared)

/-- The invariant of a session. -/
structure InfoKeys (t : Device Context) : Prop where
  instruction : ∀ i, t.shared.currentInstruction = some i → i = insPublicInfoForIp
  commands : ∀ c ∈ taken t.shared, c.ins = insPublicInfoForIp
  own : screens t.shared ≠ [] → ∀ st ∈ t.shared.display, st.callback.isShared = true
  active : t.shared.running = true → t.shared.currentInstruction ≠ none → Phase t
  signed : offersSign t.shared.display = true → AllSeen t.shared

section Session

variable {sdk : Sdk} {t t' : Device Context} {a : Apdu} {cs : List Taken}

/-- The public information has no thresholds of credentials. -/
theorem allSeen_of_keys {s : Shared} (hc : ∀ c ∈ taken s, c.ins = insPublicInfoForIp)
    (h : KeysSeen s) : AllSeen s where
  keys := h
  thresholds := by
    intro c hmem hk
    have hins := hc c hmem
    simp [Taken.bringsThresholds, Taken.ofCredential, hins] at hk
    rcases hk.1 with h | ⟨h, _⟩ <;> exact absurd h (by decide)

theorem commands_cons {s : Shared} {c : Taken} (ht : taken s = c :: cs)
    (hc : c.ins = insPublicInfoForIp) (hcs : ∀ c ∈ cs, c.ins = insPublicInfoForIp) :
    ∀ c ∈ taken s, c.ins = insPublicInfoForIp := by
  intro b hb
  rw [ht] at hb
  rcases List.mem_cons.mp hb with rfl | hb
  · exact hc
  · exact hcs b hb

theorem uxPublicKeyFlow_shared (c : Context) :
    ∀ st ∈ uxPublicKeyFlow c, st.callback.isShared = true := by
  cases hi : c.showIntro <;>
    simp [uxPublicKeyFlow, hi, uxReview, uxDisplayPublicKey, uxContinue, Callback.isShared]

theorem uxPublicKeyFlow_unsigned (c : Context) : offersSign (uxPublicKeyFlow c) = false := by
  cases hi : c.showIntro <;>
    simp [uxPublicKeyFlow, hi, offersSign, Step.signs, uxReview, uxDisplayPublicKey, uxContinue]

theorem handleInitial_keys (ha : a.ins = insPublicInfoForIp)
    (hd : offersSign t.shared.display = false) :
    wp ((infoApp sdk).handler a true) (fun _ t' => InfoKeys t') (fun _ _ => True) (opened t a) := by
  show wp (handleSignPublicInformationForIp a.cdata a.p1 true) _ _ _
  unfold handleSignPublicInformationForIp
  rw [wp_bind, Fw.wp_when]
  refine ⟨fun _ => ?_, fun h => absurd rfl h⟩
  rw [setState, Fw.wp_modifyCtx, wp_bind, Fw.wp_getCtx]
  refine (wp_ite _ _ _).mpr ⟨?_, fun _ => ?_⟩
  · rintro ⟨hp1, _⟩
    simp only [handleInitial, setState, wp_bind, wp_parseKeyDerivationPath, wp_cxSha256Init,
      wp_updateHash, Fw.wp_modifyCtx, wp_sendSuccessNoIdle, implies_true, true_and]
    intro _
    have htaken {s : Shared} {bytes : List UInt8}
        (hs : taken s = [⟨a.ins, a.p1, a.p2, bytes⟩]) :
        (∀ c ∈ taken s, c.ins = insPublicInfoForIp) ∧ KeysSeen s := by
      refine ⟨commands_cons hs ha (by simp), fun c hc hk => ?_⟩
      rw [hs, List.mem_singleton] at hc
      subst hc
      simp only [Taken.bringsKey, Taken.ofCredential, ha, hp1, decide_eq_true_eq] at hk
      rcases hk with ⟨_, h⟩ | ⟨_, h⟩ <;> exact absurd h (by decide)
    have hscr (s : Shared) (hs : screens s = screens (opened t a).shared) : screens s = [] := by
      rw [hs]
      simp [opened]
    refine ⟨fun i hi => ?_, (htaken (by simp [taken_opened, takenStep]; rfl)).1, fun hs => ?_,
      fun _ _ => .keys rfl (htaken (by simp [taken_opened, takenStep]; rfl)).2 hd, fun hs => ?_⟩
    · exact (Option.some.inj ((congrArg some ha).symm.trans hi)).symm
    · exact absurd (hscr _ (by simp)) hs
    · have hno : offersSign t.shared.display = true := hs
      rw [hd] at hno
      cases hno
  · -- every other packet needs another state
    refine (wp_ite _ _ _).mpr ⟨fun h => (by cases h.2), fun _ => ?_⟩
    exact (wp_ite _ _ _).mpr ⟨fun h => (by cases h.2), fun _ => trivial⟩

/-- A key: shown at once when more are to come. -/
theorem handleVerificationKey_keys {cs : List Taken}
    (hi : t.shared.currentInstruction = some insPublicInfoForIp)
    (ht : taken t.shared = ⟨insPublicInfoForIp, p1VerificationKey, a.p2, []⟩ :: cs)
    (hcs : ∀ c ∈ cs, c.ins = insPublicInfoForIp)
    (seen : ∀ c ∈ cs, c.bringsKey = true → KeySeen t.shared c.key)
    (state : t.ctx.state = .verificationKey) (unsigned : offersSign t.shared.display = false)
    (own : screens t.shared ≠ [] → ∀ st ∈ t.shared.display, st.callback.isShared = true) :
    wp (handleVerificationKey a.cdata) (fun _ t' => InfoKeys t') (fun _ _ => True) t := by
  simp only [handleVerificationKey, setState, wp_bind, Fw.wp_getCtx, Fw.wp_throwIf, wp_updateHash,
    Fw.wp_eval, Fw.wp_modifyCtx, wp_ite, wp_uxFlowInit, wp_waitForButton, wp_sendSuccessNoIdle,
    implies_true, and_true, true_and]
  intro _ hex hhex
  have hlen : (((a.cdata.advance 1).advance 1).slice 32).length = 32 := Ptr.slice_length _ _
  have htext := cString_key hlen hhex
  let c : Taken := ⟨insPublicInfoForIp, p1VerificationKey, a.p2,
    a.cdata.slice 1 ++ (a.cdata.advance 1).slice 1 ++ ((a.cdata.advance 1).advance 1).slice 32⟩
  have hkey : c.key = ((a.cdata.advance 1).advance 1).slice 32 := key_slice _ _ _ _
  have hbut {s : Shared} (hs : taken s = c :: cs) (hscr : screens s = screens t.shared) :
      KeysSeenBut s (cString hex.bytes) := by
    rw [htext, ← hkey]
    exact .cons seen hs (by rw [hscr]; exact List.Subset.refl _) (by rw [hkey]; exact hlen)
  have hins : ∀ i, t.shared.currentInstruction = some i → i = insPublicInfoForIp := fun i hi' =>
    (Option.some.inj (hi.symm.trans hi')).symm
  let s := ((t.shared.updateHash (a.cdata.slice 1)).updateHash
    ((a.cdata.advance 1).slice 1)).updateHash (((a.cdata.advance 1).advance 1).slice 32)
  have hs : taken s = c :: cs := by simp [s, ht, takenStep, c]
  have hscr : screens s = screens t.shared := by simp [s]
  constructor
  · intro _
    let flow := uxPublicKeyFlow { t.ctx with
      publicKey := hex
      publicKeysLength := t.ctx.publicKeysLength - 1 }
    have hall : KeysSeen (s.uxFlowInit flow) := by
      refine (hbut hs hscr).shown
        ⟨{ title := "Public key", text := hex.bytes }, ?_, rfl, rfl⟩
      simp [flow, uxPublicKeyFlow, uxDisplayPublicKey]
    have hunsigned := uxPublicKeyFlow_unsigned { t.ctx with
      publicKey := hex
      publicKeysLength := t.ctx.publicKeysLength - 1 }
    refine ⟨hins, commands_cons ((taken_uxFlowInit s flow).trans hs) rfl hcs,
      fun _ => uxPublicKeyFlow_shared _, fun _ _ => .keys state hall hunsigned, fun hsign => ?_⟩
    have hno : offersSign flow = true := hsign
    rw [hunsigned] at hno
    cases hno
  · intro _
    have hs' : taken (s.reply [] success) = c :: cs := (taken_reply s _ _).trans hs
    have hno {P : Prop} (hsign : offersSign (s.reply [] success).display = true) : P := by
      have hsign : offersSign t.shared.display = true := hsign
      rw [unsigned] at hsign
      cases hsign
    refine ⟨hins, commands_cons hs' rfl hcs, fun h => own ?_, fun _ _ =>
      .threshold rfl (hbut hs' ((screens_reply s _ _).trans hscr)) hno, hno⟩
    rw [← hscr, ← screens_reply s [] success]
    exact h

theorem handleThreshold_keys {cs : List Taken}
    (hi : t.shared.currentInstruction = some insPublicInfoForIp)
    (ht : taken t.shared = ⟨insPublicInfoForIp, p1Threshold, a.p2, []⟩ :: cs)
    (hcs : ∀ c ∈ cs, c.ins = insPublicInfoForIp)
    (seen : KeysSeenBut t.shared (cString t.ctx.publicKey.bytes))
    (state : t.ctx.state = .threshold) :
    wp (handleThreshold a.cdata) (fun _ t' => InfoKeys t') (fun _ _ => True) t := by
  simp only [handleThreshold, wp_bind, wp_updateHash, Fw.wp_eval, Fw.wp_modifyCtx, wp_uxFlowInit,
    wp_waitForButton, implies_true, and_true]
  intro text _
  let c : Taken := ⟨insPublicInfoForIp, p1Threshold, a.p2, a.cdata.slice 1⟩
  let s := t.shared.updateHash (a.cdata.slice 1)
  let flow := uxFinalFlow { t.ctx with threshold := t.ctx.threshold.memmove 0 text }
  have hs : taken s = c :: cs := by simp [s, ht, takenStep, c]
  have hbut : KeysSeenBut s (cString t.ctx.publicKey.bytes) := by
    have hno : c.bringsKey = false := by
      simp [Taken.bringsKey, Taken.ofCredential, c, p1Threshold, p1VerificationKey,
        SignCredentialDeployment.p1VerificationKey]
    intro b hb hk
    rw [hs] at hb
    rcases List.mem_cons.mp hb with rfl | hb
    · rw [hno] at hk
      cases hk
    · refine (seen b ?_ hk).imp_left fun h => h.mono (by simp [s])
      rw [ht]
      exact List.mem_cons_of_mem _ hb
  have hcommands := commands_cons ((taken_uxFlowInit s flow).trans hs) rfl hcs
  have hall : KeysSeen (s.uxFlowInit flow) := by
    refine hbut.shown
      ⟨{ title := "Public key", text := t.ctx.publicKey.bytes }, ?_, rfl, rfl⟩
    simp [flow, uxFinalFlow, uxDisplayPublicKey]
  refine ⟨fun i hi' => (Option.some.inj (hi.symm.trans hi')).symm, hcommands, fun _ => ?_,
    fun _ _ => .threshold state (hall.but _) fun _ => hall, fun _ => allSeen_of_keys hcommands hall⟩
  show ∀ st ∈ flow, st.callback.isShared = true
  cases hintro : t.ctx.showIntro <;>
    simp [flow, uxFinalFlow, hintro, uxReview, uxDisplayPublicKey, Callback.isShared]

/-- A command of the session. -/
theorem command_keys (h : InfoKeys t) (hs : SessionStep (infoApp sdk) t (.command a) t') :
    InfoKeys t' := by
  obtain ⟨hcur, hr, _, hh⟩ := hs
  have ha : a.ins = insPublicInfoForIp := h.instruction _ hcur
  have hi : (entered t a).shared.currentInstruction = some insPublicInfoForIp :=
    hcur.trans (congrArg some ha)
  have hscr : screens (entered t a).shared = screens t.shared := screens_entered t a
  have hsub : screens t.shared ⊆ screens (entered t a).shared := by
    rw [hscr]
    exact List.Subset.refl _
  have ht : taken (entered t a).shared = ⟨insPublicInfoForIp, a.p1, a.p2, []⟩ :: taken t.shared := by
    rw [taken_entered, ha]
  have hown : screens (entered t a).shared ≠ [] →
      ∀ st ∈ t.shared.display, st.callback.isShared = true := by
    rw [hscr]
    exact h.own
  have hw : wp ((infoApp sdk).handler a false) (fun _ t' => InfoKeys t') (fun _ _ => True)
      (entered t a) := by
    show wp (handleSignPublicInformationForIp a.cdata a.p1 false) _ _ _
    unfold handleSignPublicInformationForIp
    rw [wp_bind, Fw.wp_when]
    refine ⟨fun h => absurd h (by decide), fun _ => ?_⟩
    rw [wp_bind, Fw.wp_getCtx]
    have hctx : (entered t a).ctx = t.ctx := rfl
    cases h.active hr (by rw [hcur]; simp) with
    | keys state seen unsigned =>
      simp only [hctx, state, reduceCtorEq, and_false, and_true, if_false]
      refine (wp_ite _ _ _).mpr ⟨fun hp1 => ?_, fun _ => trivial⟩
      rw [hp1] at ht
      exact handleVerificationKey_keys hi ht h.commands
        (fun c hc hk => (seen c hc hk).mono hsub) state unsigned hown
    | threshold state seen shown =>
      simp only [hctx, state, reduceCtorEq, and_false, and_true, if_false]
      refine (wp_ite _ _ _).mpr ⟨fun hp1 => ?_, fun _ => trivial⟩
      rw [hp1] at ht
      refine handleThreshold_keys hi ht h.commands (seen.other ht rfl hscr ?_) state
      simp [Taken.bringsKey, Taken.ofCredential, p1Threshold, p1VerificationKey,
        SignCredentialDeployment.p1VerificationKey]
  have hq := of_wp_ok hw hh
  exact hq

/-- All steps of this instruction are shared ones. -/
theorem press_keys {i : Nat} (h : InfoKeys t) (hc : OwnScreens t (.press i)) :
    InfoKeys (finish ((infoApp sdk).callback (t.shared.pressed i) t)) := by
  have hp : Passed t (finish ((infoApp sdk).callback (t.shared.pressed i) t)) :=
    sharedCallback_passed t sdk (hc.own (fun _ h => h) h.own)
  refine ⟨fun i hi => h.instruction i (hp.instruction i hi), ?_,
    hp.own_screen (fun _ h => h) h.own, fun hr hne => ?_, AllSeen.passed hp h.signed⟩
  · rw [taken_passed hp]
    exact h.commands
  · obtain ⟨hd, hins, hrun, hscr⟩ := hp.goes_on hr hne
    cases h.active hrun (hins ▸ hne) with
    | keys state seen unsigned =>
      exact .keys (by rw [hp.ctx]; exact state) (seen.congr (taken_passed hp) hscr)
        (by rw [hd]; exact unsigned)
    | threshold state seen shown =>
      refine .threshold (by rw [hp.ctx]; exact state) ?_ fun hs => ?_
      · rw [hp.ctx]
        exact seen.congr (taken_passed hp) hscr
      · rw [hd] at hs
        exact (shown hs).congr (taken_passed hp) hscr

end Session

section Device

variable {u : InstructionContext μ} {d₀ d₁ d : Device μ} {first : Apdu}

theorem embeds (sdk : Sdk) (u : InstructionContext μ) :
    Embeds (mainApp sdk u) u.signPublicInformationForIp (infoApp sdk) insPublicInfoForIp
      fun cb => cb.isShared = true where
  handler := by
    intro a b ha
    have hh : (mainApp sdk u).handler a b = Fw.on u.signPublicInformationForIp
        (handleSignPublicInformationForIp a.cdata a.p1 b) := by
      show mainHandler sdk u a b = _
      unfold mainHandler
      rw [ha]
      rfl
    rw [hh]
    exact Views.on _ _
  callback := by
    intro cb hcb
    exact Views.sharedCallback _ sdk hcb

theorem run_keys {sdk : Sdk} (hb : begins (mainApp sdk u) insPublicInfoForIp d₀ first d₁)
    (hd : offersSign d₀.shared.display = false)
    (hrun : Transition.Run (lockStep (mainApp sdk u)) (fun d e => OwnScreens d e) d₁ d) :
    InfoKeys (d.view u.signPublicInformationForIp) := by
  obtain ⟨_, ha, _⟩ := begins_handler hb
  have hrun' : Transition.Run (lockStep (mainApp sdk u))
      (fun d e => OwnScreens (d.view u.signPublicInformationForIp) e) d₁ d :=
    hrun.mono fun d e h => by
      cases e <;> exact h
  refine (embeds sdk u).invariant (C := OwnScreens) hb hrun' ?_ ?_ ?_ ?_
  · intro t ht
    have hfirst := of_wp_ok
      (handleInitial_keys (t := d₀.view u.signPublicInformationForIp) ha hd) ht
    exact hfirst
  · intro t hP
    exact hP.instruction
  · intro t i hP hC
    exact hC.own (fun _ h => h) hP.own
  · intro t e t' hP hC hstep
    cases e with
    | command a => exact command_keys hP hstep
    | press i =>
      obtain ⟨_, _, rfl⟩ := hstep
      exact press_keys hP hC
    | noApdu => exact hstep.elim

end Device

end SignPublicInformationForIp

end ConcordiumLedger
