import ConcordiumLedger.Common.CalendarTime
import ConcordiumLedger.Common.SignScreens
import ConcordiumLedger.Common.ZeroAddress
import ConcordiumLedger.Main.Frames
import ConcordiumLedger.Main.ShownIndices

/-!
# Main.ExportedSecrets

The secrets that leave the device when the Accept step of the export screen is pressed, in runs of
any commands and presses. The path and the flag for the second secret are read from the context at
that time, so they are the ones on the screen as long as no other handler has run under it.

* `secretsOf`   — the secrets that a screen stands for.
* `Approved`    — what the Accept step sends is what the screen stands for.
* `Undisturbed` — the number on the screen is an index, and no other handler has run under it.
-/

namespace ConcordiumLedger

open CMem CProg CProg.Prog Transition

variable {μ : Type}

namespace ExportPrivateKey

/-- The seed at a path, or the key that is derived from it. -/
def secretAt (sdk : Sdk) (seed : Bool) (path : List UInt32) : Option (List UInt8) :=
  if seed then sdk.privateKey path
  else (sdk.privateKey path).bind fun bytes => (sdk.blsKey bytes).toOption

/-- The key that is exported without `seed` is the one of the draft, from the seed at the path. -/
theorem secretAt_key_iff {sdk : Sdk} (hsdk : sdk.bls.Computes) (path : List UInt32)
    (key : List UInt8) :
    secretAt sdk false path = some key ↔
      ∃ seed, sdk.privateKey path = some seed ∧ seed.length = 32 ∧
        ∃ k ≤ sdk.keygenRounds, IsLeast {k | 1 ≤ k ∧ keyGenValue sdk.bls seed k ≠ 0} k ∧
          key = beBytes 32 (keyGenValue sdk.bls seed k) := by
  rw [secretAt, if_neg (by decide), Option.bind_eq_some_iff]
  refine exists_congr fun seed => and_congr_right fun _ => ?_
  rw [← Sdk.blsKey_iff hsdk]
  cases sdk.blsKey seed with
  | error e => simp [Except.toOption]
  | ok key' => simp [Except.toOption]

/-- `m/i'/j'/…`. A number from `2 ^ 31` on is no index that can be hardened. -/
def hardenedPath (indices : List Nat) : Option (List UInt32) :=
  if ∀ i ∈ indices, i < 2 ^ 31 then some (indices.map fun i => .ofNat (i + 2 ^ 31)) else none

/-- The secrets of an identity: the one for the PRF key and, with `both`, the one for `IdCredSec`. -/
def secretsOf (sdk : Sdk) (seed both : Bool) (identity : Nat) : Option (List UInt8) := do
  let prf ← secretAt sdk seed (← hardenedPath [1105, 0, 0, 0, identity, 1])
  if both then do
    let cred ← secretAt sdk seed (← hardenedPath [1105, 0, 0, 0, identity, 0])
    return prf ++ cred
  else return prf

theorem hardened_eq {i : UInt32} (h : i.toNat < 2 ^ 31) :
    i ||| hardenedOffset = .ofNat (i.toNat + 2 ^ 31) := by
  apply UInt32.toNat_inj.mp
  have hoffset : hardenedOffset.toNat = 2 ^ 31 := by decide
  have hadd := Nat.two_pow_add_eq_or_of_lt h 1
  rw [Nat.mul_one] at hadd
  rw [UInt32.toNat_or, UInt32.toNat_ofNat', hoffset, Nat.or_comm, ← hadd]
  omega

theorem hardenedPath_eq {identity : UInt32} (hi : identity.toNat < 2 ^ 31) (node : UInt32)
    (hn : node.toNat < 2 ^ 31) :
    hardenedPath [1105, 0, 0, 0, identity.toNat, node.toNat] =
      some (identityPath identity ++ [node ||| hardenedOffset]) := by
  have hall : ∀ i ∈ [1105, 0, 0, 0, identity.toNat, node.toNat], i < 2 ^ 31 := by
    intro i hmem
    simp only [List.mem_cons, List.not_mem_nil, or_false] at hmem
    omega
  rw [hardenedPath, if_pos hall]
  simp only [identityPath, List.map_cons, List.map_nil, List.cons_append, List.nil_append,
    hardened_eq hi, hardened_eq hn]
  rfl

/-- The export screen with the number of the identity; its header says which secrets are sent. -/
def Screen (identity : Nat) (both : Bool) (flow : List Step) : Prop :=
  ∃ c : Context, flow = uxExportPrivateKey c ∧
    cString c.display.bytes = some (ascii "ID #" ++ decimal identity) ∧
    (cString c.displayHeader.bytes = some (ascii "Create credential") ↔ both = true)

/-- What the callback reads of the context. -/
def Context.approvedPart (c : Context) : List UInt32 × Bool := (c.path.toList.take 5, c.exportBoth)

theorem withIdentity_toList (identity : UInt32) (path : Vector UInt32 6) :
    (withIdentity identity path).toList.take 5 = identityPath identity := by
  simp [withIdentity, identityPath]

theorem set_last {path : Vector UInt32 6} {nodes : List UInt32} (h : path.toList.take 5 = nodes)
    (node : UInt32) : (path.set 5 node (by decide)).toList = nodes ++ [node] := by
  obtain ⟨⟨l⟩, hl⟩ := path
  simp only [List.size_toArray] at hl
  match l, hl with
  | [a, b, c, d, e, f], _ =>
    subst h
    rfl

theorem exportedKey_spec {sdk : Sdk} {nodes : List UInt32} {t : Device Context}
    (h : t.ctx.path.toList.take 5 = nodes) (node : UInt32) :
    wp (exportedKey sdk node)
      (fun key t' => secretAt sdk t.ctx.exportSeed (nodes ++ [node ||| hardenedOffset]) = some key ∧
        t'.shared = t.shared ∧ t'.ctx.exportSeed = t.ctx.exportSeed ∧
        t'.ctx.approvedPart = t.ctx.approvedPart)
      (fun _ t' => t'.shared = t.shared ∧ t'.ctx.approvedPart = t.ctx.approvedPart) t := by
  have hset := set_last h (node ||| hardenedOffset)
  have hpart : ({ t.ctx with path := t.ctx.path.set 5 (node ||| hardenedOffset) } :
      Context).approvedPart = t.ctx.approvedPart := by
    have hlen : nodes.length = 5 := by rw [← h]; simp
    refine Prod.ext ?_ rfl
    show ((t.ctx.path.set 5 (node ||| hardenedOffset)).toList).take 5 = t.ctx.path.toList.take 5
    rw [hset, h, List.take_left' hlen]
  unfold exportedKey
  rw [wp_bind, Fw.wp_modifyCtx, wp_bind, Fw.wp_getCtx]
  dsimp only
  rw [hset]
  refine (wp_ite _ _ _).mpr ⟨fun hseed => ?_, fun hseed => ?_⟩
  · rw [Fw.wp_ensureNoError]
    refine ⟨fun key hkey => ⟨?_, rfl, rfl, hpart⟩, fun _ => ⟨rfl, hpart⟩⟩
    rw [secretAt, if_pos hseed, hkey]
  · unfold getBlsPrivateKey
    rw [wp_bind, Fw.wp_ensureNoError]
    refine ⟨fun seed hsd => ?_, fun _ => ⟨rfl, hpart⟩⟩
    rw [Fw.wp_eval]
    refine ⟨fun key hkey => ⟨?_, rfl, rfl, hpart⟩, fun _ _ => ⟨rfl, hpart⟩⟩
    rw [secretAt, if_neg hseed, hsd]
    exact congrArg Except.toOption hkey

/-- The secrets that are derived from the first five nodes of the path in the context. -/
def secretsAt (sdk : Sdk) (seed both : Bool) (nodes : List UInt32) : Option (List UInt8) := do
  let prf ← secretAt sdk seed (nodes ++ [prfKey ||| hardenedOffset])
  if both then do
    let cred ← secretAt sdk seed (nodes ++ [idCredSec ||| hardenedOffset])
    return prf ++ cred
  else return prf

theorem secretsAt_identityPath (sdk : Sdk) (seed both : Bool) {identity : UInt32}
    (h : identity.toNat < 2 ^ 31) :
    secretsAt sdk seed both (identityPath identity) = secretsOf sdk seed both identity.toNat := by
  have hprf : hardenedPath [1105, 0, 0, 0, identity.toNat, 1] =
      some (identityPath identity ++ [prfKey ||| hardenedOffset]) :=
    hardenedPath_eq h prfKey (by decide)
  have hcred : hardenedPath [1105, 0, 0, 0, identity.toNat, 0] =
      some (identityPath identity ++ [idCredSec ||| hardenedOffset]) :=
    hardenedPath_eq h idCredSec (by decide)
  rw [secretsOf, hprf, hcred]
  rfl

/-- The callback sends the secrets of the path in the context and goes back to the menu. -/
theorem exportPrivateKey_spec (sdk : Sdk) (t : Device Context) :
    wp (exportPrivateKey sdk)
      (fun _ t' => ∃ data, secretsAt sdk t.ctx.exportSeed t.ctx.approvedPart.2 t.ctx.approvedPart.1 =
          some data ∧
        t'.shared = ((t.shared.reply data success).setInstruction none).uxFlowInit uxMenuIdleFlow)
      (fun _ t' => t'.shared = t.shared ∧ t'.ctx.approvedPart = t.ctx.approvedPart) t := by
  unfold exportPrivateKey
  rw [wp_bind]
  refine wp_mono (exportedKey_spec rfl prfKey) ?_ fun _ _ ht => ht
  rintro prf t₁ ⟨hprf, hshared₁, hseed₁, hpart₁⟩
  have hboth : t₁.ctx.exportBoth = t.ctx.approvedPart.2 := congrArg Prod.snd hpart₁
  have hpath₁ : t₁.ctx.path.toList.take 5 = t.ctx.approvedPart.1 := congrArg Prod.fst hpart₁
  change secretAt sdk t.ctx.exportSeed (t.ctx.approvedPart.1 ++ _) = _ at hprf
  rw [wp_bind, Fw.wp_getCtx]
  refine (wp_ite _ _ _).mpr ⟨fun hb => ?_, fun hb => ?_⟩
  · rw [wp_bind]
    refine wp_mono (exportedKey_spec hpath₁ idCredSec) ?_ fun _ _ ht =>
      ⟨ht.1.trans hshared₁, ht.2.trans hpart₁⟩
    rintro cred t₂ ⟨hcred, hshared₂, -, -⟩
    rw [hseed₁] at hcred
    refine ⟨prf ++ cred, ?_, ?_⟩
    · rw [hboth] at hb
      rw [secretsAt, hprf, hcred, hb]
      rfl
    · rw [← hshared₁, ← hshared₂]
  · refine ⟨prf, ?_, ?_⟩
    · rw [hboth, Bool.not_eq_true] at hb
      rw [secretsAt, hprf, hb]
      rfl
    · rw [← hshared₁]

theorem decimal_length_of_u32 (n : UInt32) : (decimal n.toNat).length ≤ 10 := by
  have hlen := decimal_length n.toUInt64
  have hle : lengthOfNumber n.toUInt64 ≤ 10 := lengthOfNumber_le n.toUInt64 (by decide)
    (Nat.lt_of_lt_of_le (by rw [UInt32.toNat_toUInt64]; exact n.toNat_lt) (by decide))
  rw [UInt32.toNat_toUInt64] at hlen
  omega

/-- An accepted command puts up the screen of what it has stored, and a rejected one does nothing. -/
theorem handleExportPrivateKey_spec (cdata : Ptr) (p1 p2 : UInt8) (t : Device Context) :
    wp (handleExportPrivateKey cdata p1 p2)
      (fun _ t' => ∃ (identity : UInt32) (both : Bool),
        Screen identity.toNat both t'.shared.display ∧
        t'.ctx.approvedPart = (identityPath identity, both))
      (fun _ t' => t' = t) t := by
  unfold handleExportPrivateKey
  rw [wp_bind, Fw.wp_throwIf]
  refine ⟨fun _ => rfl, fun hp => ?_⟩
  have hdecimal := decimal_length_of_u32 (cdata.u4be 0)
  have htext : bin2dec (15 - 4) (cdata.u4be 0).toUInt64 =
      .ok (decimal (cdata.u4be 0).toNat ++ [0]) := by
    have hlen := decimal_length (cdata.u4be 0).toUInt64
    rw [UInt32.toNat_toUInt64] at hlen
    rw [bin2dec_fits (by omega), UInt32.toNat_toUInt64]
  simp only [wp_bind, Fw.wp_modifyCtx, htext, Fw.wp_eval, wp_uxFlowInit, wp_waitForButton]
  refine ⟨fun text heq => ?_, fun e heq => by cases heq⟩
  cases heq
  refine ⟨cdata.u4be 0, p1 = p1Both, ⟨_, rfl, ?_, ?_⟩, ?_⟩
  · have hid : (ascii "ID #").length = 4 := rfl
    have hmove := Buffer.memmove_memmove t.ctx.display (ascii "ID #")
      (decimal (cdata.u4be 0).toNat ++ [0])
      (by rw [List.length_append, List.length_append, hid, List.length_singleton]; omega)
    rw [hid, ← List.append_assoc] at hmove
    have h0 : 0 ∉ ascii "ID #" ++ decimal (cdata.u4be 0).toNat := by
      have hascii : (0 : UInt8) ∉ ascii "ID #" := by decide
      simp [hascii, zero_not_mem_decimal]
    dsimp only
    rw [hmove, cString_memmove _ _ h0 (by rw [List.length_append, hid]; omega)]
  · have hheader (s : String) (h0 : 0 ∉ ascii s) (hlen : (ascii s).length < 20) :
        cString (t.ctx.displayHeader.memmove 0 (literal s)).bytes = some (ascii s) :=
      cString_memmove _ _ h0 hlen
    by_cases hb : p1 = p1Both
    · have htitle := hheader "Create credential" (by decide) (by decide)
      rw [decide_eq_true_eq]
      refine iff_of_true ?_ hb
      dsimp only
      rw [headerText, if_pos hb]
      exact htitle
    · rw [decide_eq_true_eq]
      refine iff_of_false (fun heq => ?_) hb
      dsimp only at heq
      rw [headerText, if_neg hb] at heq
      split at heq
      · rw [hheader "Recover credentials" (by decide) (by decide)] at heq
        revert heq
        decide
      · rw [hheader "Decrypt" (by decide) (by decide)] at heq
        revert heq
        decide
  · simp only [Context.approvedPart, withIdentity_toList]

end ExportPrivateKey

/-! ## Runs -/

open ExportPrivateKey

/-- The instructions that have a handler. -/
def mainInstructions : List UInt8 :=
  [insVerifyAddress, insGetPublicKey, insSignTransfer, insSignTransferWithSchedule,
    insCredentialDeployment, insExportPrivateKey, insEncryptedAmountTransfer,
    insTransferToEncrypted, insTransferToPublic, insConfigureDelegation, insConfigureBaker,
    insPublicInfoForIp, insSignUpdateCredential, insSignTransferWithMemo,
    insEncryptedAmountTransferWithMemo, insSignTransferWithScheduleAndMemo, insRegisterData]

/-- The Accept step of an export screen is on the display. -/
def OffersExport (flow : List Step) : Prop := ∃ st ∈ flow, st.callback = .exportPrivateKey

instance (flow : List Step) : Decidable (OffersExport flow) :=
  inferInstanceAs (Decidable (∃ st ∈ flow, _))

/-- When Accept is pressed, the secrets of a reply are those that the screen stands for. -/
def Approved (sdk : Sdk) (d : Device μ) (ev : Event) (d' : Device μ) : Prop :=
  ∀ i, ev = .press i → d.shared.pressed i = .exportPrivateKey →
    ∃ identity both, Screen identity both d.shared.display ∧ ∃ seed, ∀ data,
      .reply data success ∈ d'.shared.log.drop d.shared.log.length →
        secretsOf sdk seed both identity = some data

/-- Since the screen has come up, the handler of no other instruction was called. -/
def Alone (s : Shared) : Prop :=
  ∀ ins p1 p2 data, .handler ins p1 p2 data ∈ sinceScreen s.log → ins ∈ mainInstructions →
    ins = insExportPrivateKey

/-- The number on the export screen is that of an identity, and the screen was left alone. -/
structure Undisturbed (d : Device μ) : Prop where
  identity : ∀ identity both, Screen identity both d.shared.display → identity < 2 ^ 31
  alone : Alone d.shared

/-- The screen stands for what is in the context, as long as it is left alone. -/
def Prepared (u : InstructionContext μ) (d : Device μ) : Prop :=
  OffersExport d.shared.display → ∃ (identity : UInt32) (both : Bool),
    Screen identity.toNat both d.shared.display ∧ (Alone d.shared →
      (u.exportPrivateKeyContext.get d.ctx).approvedPart = (identityPath identity, both))

section Runs

variable {sdk : Sdk} {u : InstructionContext μ} {d d' : Device μ} {c : Apdu} {ev : Event}

/-- The flow on the display is the same one. -/
def SameScreen (s s' : Shared) : Prop :=
  s'.display = s.display ∧ ∃ as, s'.log = s.log ++ as ∧ as.any Action.shows = false

theorem SameScreen.trans {s s' s'' : Shared} (h : SameScreen s s') (h' : SameScreen s' s'') :
    SameScreen s s'' := by
  obtain ⟨hd, as, hl, ha⟩ := h
  obtain ⟨hd', as', hl', ha'⟩ := h'
  exact ⟨hd'.trans hd, as ++ as', by rw [hl', hl, List.append_assoc], by rw [List.any_append, ha, ha']; rfl⟩

theorem SameScreen.caught (e : Error) (s : Shared) : SameScreen s (catchOther e s) := by
  refine ⟨catchOther_display e s, ?_⟩
  unfold catchOther
  split
  · dsimp only
    split
    · exact ⟨[.setInstruction none], rfl, rfl⟩
    · exact ⟨[.setInstruction none, .reply [] e.code], by simp, rfl⟩
  · exact ⟨[], by simp, rfl⟩

theorem Handing.sameScreen {t : Device μ} {b : Bool} (h : Handing d c b t) :
    SameScreen d.shared t.shared := by
  refine ⟨h.display, _, by rw [h.log, List.append_assoc], ?_⟩
  split <;> rfl

theorem Alone.of_sameScreen {s s' : Shared} (hs : SameScreen s s') (h : Alone s') : Alone s := by
  obtain ⟨-, as, hlog, hshows⟩ := hs
  intro ins p1 p2 data hmem
  refine h ins p1 p2 data ?_
  rw [hlog, sinceScreen_append hshows]
  exact List.mem_append_left as hmem

/-- A handler that has run under a screen is one of those that are allowed to. -/
theorem Alone.handler {s : Shared} {t : Device μ} {b : Bool} (ht : Handing d c b t)
    (hs : SameScreen t.shared s) (h : Alone s) (hins : c.ins ∈ mainInstructions) :
    c.ins = insExportPrivateKey := by
  refine h.of_sameScreen hs c.ins c.p1 c.p2 c.data ?_ hins
  have hshows : ((if b = true then [.setInstruction (some c.ins)] else []) ++
      [.handler c.ins c.p1 c.p2 c.data] : List Action).any Action.shows = false := by
    split <;> rfl
  rw [ht.log, List.append_assoc, sinceScreen_append hshows]
  simp

/-- The screen stays, and the context does unless another handler has run. -/
theorem Prepared.of_sameScreen (h : Prepared u d) (hs : SameScreen d.shared d'.shared)
    (hpart : Alone d'.shared → (u.exportPrivateKeyContext.get d'.ctx).approvedPart =
      (u.exportPrivateKeyContext.get d.ctx).approvedPart) : Prepared u d' := by
  intro hoffers
  rw [hs.1] at hoffers ⊢
  obtain ⟨identity, both, hscreen, hctx⟩ := h hoffers
  exact ⟨identity, both, hscreen, fun ha => (hpart ha).trans (hctx (ha.of_sameScreen hs))⟩

theorem not_offersExport_menu : ¬ OffersExport uxMenuIdleFlow := by decide

theorem Shown.offersExport {K : ScreenKind → Prop} {s s' : Shared}
    (hK : ¬ K (.own .exportPrivateKey)) (h : Shown K s s') (ho : OffersExport s'.display) :
    SameScreen s s' := by
  have hflow {k : ScreenKind} {flow : List Step} (hk : K k) (honly : Only k.callbacks flow) :
      ¬ OffersExport flow := by
    rintro ⟨st, hst, hcb⟩
    have hmem := honly st hst
    rw [hcb] at hmem
    cases k with
    | shared => simp [ScreenKind.callbacks] at hmem
    | own cb =>
      simp only [ScreenKind.callbacks, List.mem_cons, reduceCtorEq, List.not_mem_nil, or_false,
        false_or] at hmem
      subst hmem
      exact hK hk
  have htouched {m : Shared} (h : Touched s m) : SameScreen s m := by
    obtain ⟨as, hl, ha⟩ := h.log
    exact ⟨h.display, as, hl, not_shows_of_touches ha⟩
  cases h with
  | touched h => exact htouched h
  | replied h data =>
    obtain ⟨hdisplay, as, hl, ha⟩ := htouched h
    exact ⟨hdisplay, as ++ [.reply data success], by simp [hl], by rw [List.any_append, ha]; rfl⟩
  | screen _ hk honly => exact absurd ho (hflow hk honly)
  | finished _ _ hk honly => exact absurd ho (hflow hk honly)
  | loading _ _ honly =>
    obtain ⟨st, hst, hcb⟩ := ho
    have hmem := honly st hst
    rw [hcb] at hmem
    simp at hmem

theorem Ended.offersExport {K : ScreenKind → Prop} {s s' : Shared}
    (hK : ¬ K (.own .exportPrivateKey)) (h : Ended K s s') (ho : OffersExport s'.display) :
    SameScreen s s' := by
  obtain ⟨m, hm, rfl | rfl⟩ := h
  · exact hm.offersExport hK ho
  · have hs : SameScreen s m := hm.offersExport hK ho
    exact hs

theorem mainHandler_export {b : Bool} (hins : c.ins = insExportPrivateKey) :
    (mainApp sdk u).handler c b =
      Fw.on u.exportPrivateKeyContext (handleExportPrivateKey c.cdata c.p1 c.p2) := by
  show mainHandler sdk u c b = _
  unfold mainHandler
  rw [hins]
  rfl

theorem mainHandler_unknown {b : Bool} (hins : c.ins ∉ mainInstructions) :
    (mainApp sdk u).handler c b = Fw.throw .invalidInstruction := by
  simp only [mainInstructions, List.mem_cons, List.not_mem_nil, or_false, not_or] at hins
  show mainHandler sdk u c b = _
  simp only [mainHandler, hins, if_false]

/-- The own handler puts up the screen of what it stores. -/
theorem Prepared.export (h : Prepared u d) {b : Bool} {t : Device μ} (ht : Handing d c b t)
    (hins : c.ins = insExportPrivateKey) : Prepared u (finish ((mainApp sdk u).handler c b t)) := by
  rw [mainHandler_export hins]
  refine finish_of_wp (P := fun t' => Prepared u t') ?_
  rw [Fw.wp_on]
  refine wp_mono (handleExportPrivateKey_spec c.cdata c.p1 c.p2 _) (fun _ t' ht' _ => ?_)
    fun e t' ht' => ?_
  · obtain ⟨identity, both, hscreen, hpart⟩ := ht'
    refine ⟨identity, both, hscreen, fun _ => ?_⟩
    rw [u.exportPrivateKeyContext.get_set]
    exact hpart
  · subst ht'
    refine h.of_sameScreen (ht.sameScreen.trans (.caught e t.shared)) fun _ => ?_
    show (u.exportPrivateKeyContext.get (u.exportPrivateKeyContext.set _ t.ctx)).approvedPart = _
    rw [u.exportPrivateKeyContext.get_set, ← ht.ctx]

/-- Another handler puts up no export screen, and one that is left is not alone any more. -/
theorem Prepared.other (h : Prepared u d) {b : Bool} {t : Device μ} (ht : Handing d c b t)
    (hins : c.ins ≠ insExportPrivateKey) : Prepared u (finish ((mainApp sdk u).handler c b t)) := by
  have hK : ¬ (ScreenKind.own .exportPrivateKey = .own .exportPrivateKey →
      c.ins = insExportPrivateKey) := fun h => hins (h rfl)
  have hkept {t' : Device μ} (hs : SameScreen t.shared t'.shared)
      (hmem : c.ins ∈ mainInstructions) : Prepared u t' := by
    refine h.of_sameScreen (ht.sameScreen.trans hs) fun halone => ?_
    exact absurd (halone.handler ht hs hmem) hins
  by_cases hmem : c.ins ∈ mainInstructions
  · refine finish_of_wp (P := fun t' => Prepared u t') ?_
    refine wp_mono ((mainApp_screened sdk u).handler c b t) (fun _ t' ht' ho => ?_)
      fun e t' ht' ho => ?_
    · exact hkept (ht'.offersExport hK ho) hmem ho
    · have ho' : OffersExport (catchOther e t'.shared).display := ho
      rw [catchOther_display] at ho'
      have hs : SameScreen t.shared (catchOther e t'.shared) :=
        (ht'.offersExport hK ho').trans (.caught e t'.shared)
      have hk : Prepared u ⟨t'.ctx, catchOther e t'.shared⟩ := hkept hs hmem
      exact hk ho
  · rw [mainHandler_unknown hmem]
    exact h.of_sameScreen (ht.sameScreen.trans (.caught _ t.shared)) fun _ => by
      show (u.exportPrivateKeyContext.get t.ctx).approvedPart = _
      rw [ht.ctx]

theorem Prepared.command (h : Prepared u d)
    (hs : step (mainApp sdk u) d (.command c) = some d') : Prepared u d' := by
  cases hhand : handed d c with
  | none =>
    obtain ⟨hctx, e, -, hshared⟩ := step_refused hhand hs
    refine h.of_sameScreen ?_ fun _ => by rw [hctx]
    rw [hshared]
    exact .caught e (receivedCommand d).shared
  | some p =>
    obtain ⟨b, t⟩ := p
    rw [step_handed hhand hs]
    by_cases hins : c.ins = insExportPrivateKey
    · exact h.export (handing hhand) hins
    · exact h.other (handing hhand) hins

/-- On an export screen there are no other steps with a callback of their own. -/
theorem pressed_of_screen {identity : Nat} {both : Bool} (h : Screen identity both d.shared.display)
    (i : Nat) : (d.shared.pressed i).isShared = true ∨ d.shared.pressed i = .exportPrivateKey := by
  obtain ⟨ctx, hflow, -, -⟩ := h
  unfold Shared.pressed
  rw [hflow, uxExportPrivateKey]
  match i with
  | 0 => exact .inl rfl
  | 1 => exact .inr rfl
  | 2 => exact .inl rfl
  | n + 3 => exact .inl rfl

theorem offersExport_of_pressed {i : Nat} (h : d.shared.pressed i = .exportPrivateKey) :
    OffersExport d.shared.display := by
  unfold Shared.pressed at h
  split at h
  · rename_i st hst
    exact ⟨st, List.mem_of_getElem? hst, h⟩
  · cases h

/-- An error is not answered with `success`. -/
theorem success_not_mem_caught (e : Error) (s : Shared) (data : List UInt8) :
    .reply data success ∉ (catchOther e s).log.drop s.log.length := by
  intro hmem
  unfold catchOther at hmem
  split at hmem
  · dsimp only at hmem
    split at hmem
    · simp at hmem
    · simp only [Shared.reply_log, Shared.setInstruction_log, List.append_assoc] at hmem
      rw [List.drop_left] at hmem
      simp only [List.cons_append, List.nil_append, List.mem_cons, reduceCtorEq,
        List.not_mem_nil, or_false, false_or, Action.reply.injEq] at hmem
      cases e <;> exact absurd hmem.2 (by decide)
  · simp at hmem

/-- What a press of Accept sends, and where it leads. -/
inductive Accepting (sdk : Sdk) (u : InstructionContext μ) (d d' : Device μ) : Prop where
  | sent (data : List UInt8)
      (hdata : secretsAt sdk (u.exportPrivateKeyContext.get d.ctx).exportSeed
        (u.exportPrivateKeyContext.get d.ctx).approvedPart.2
        (u.exportPrivateKeyContext.get d.ctx).approvedPart.1 = some data)
      (hshared : d'.shared =
        ((d.shared.reply data success).setInstruction none).uxFlowInit uxMenuIdleFlow)
  | failed (e : Error) (hshared : d'.shared = catchOther e d.shared)
      (hpart : (u.exportPrivateKeyContext.get d'.ctx).approvedPart =
        (u.exportPrivateKeyContext.get d.ctx).approvedPart)

theorem accepting_of_pressed {i : Nat} (hi : d.shared.pressed i = .exportPrivateKey)
    (hs : step (mainApp sdk u) d (.press i) = some d') : Accepting sdk u d d' := by
  have hcb : (mainApp sdk u).callback .exportPrivateKey =
      Fw.on u.exportPrivateKeyContext (exportPrivateKey sdk) := rfl
  obtain ⟨-, hd'⟩ := step_press hs
  rw [hd', hi, hcb]
  refine finish_of_wp (P := fun t => Accepting sdk u d t) ?_
  rw [Fw.wp_on]
  refine wp_mono (exportPrivateKey_spec sdk (d.view u.exportPrivateKeyContext)) ?_ ?_
  · rintro _ t ⟨data, hdata, hshared⟩
    exact .sent data hdata hshared
  · rintro e t ⟨hshared, hpart⟩
    refine .failed e ?_ ?_
    · show catchOther e t.shared = _
      rw [hshared]
      rfl
    · show (u.exportPrivateKeyContext.get (u.exportPrivateKeyContext.set t.ctx _)).approvedPart = _
      rw [u.exportPrivateKeyContext.get_set, hpart]
      rfl

theorem Prepared.accept (h : Prepared u d) {i : Nat} (hi : d.shared.pressed i = .exportPrivateKey)
    (hs : step (mainApp sdk u) d (.press i) = some d') : Prepared u d' := by
  cases accepting_of_pressed hi hs with
  | sent data hdata hshared =>
    intro ho
    rw [hshared] at ho
    exact absurd ho not_offersExport_menu
  | failed e hshared hpart => exact h.of_sameScreen (hshared ▸ .caught e d.shared) fun _ => hpart

theorem Prepared.approved (h : Prepared u d) (hu : Undisturbed d)
    (hs : step (mainApp sdk u) d ev = some d') : Approved sdk d ev d' := by
  rintro i rfl hi
  obtain ⟨identity, both, hscreen, hpart⟩ := h (offersExport_of_pressed hi)
  have hidentity := hu.identity _ _ hscreen
  refine ⟨identity.toNat, both, hscreen, (u.exportPrivateKeyContext.get d.ctx).exportSeed,
    fun data hmem => ?_⟩
  cases accepting_of_pressed hi hs with
  | sent data' hdata hshared =>
    rw [hpart hu.alone, secretsAt_identityPath sdk _ _ hidentity] at hdata
    rw [hshared] at hmem
    simp only [Shared.uxFlowInit_log, Shared.setInstruction_log, Shared.reply_log,
      List.append_assoc] at hmem
    rw [List.drop_left] at hmem
    simp only [List.cons_append, List.nil_append, List.mem_cons, reduceCtorEq,
      List.not_mem_nil, or_false, Action.reply.injEq, and_true] at hmem
    rw [hmem]
    exact hdata
  | failed e hshared =>
    rw [hshared] at hmem
    exact absurd hmem (success_not_mem_caught e d.shared data)

/-- A press of a shared step leaves the screen, or goes back to the menu. -/
theorem Prepared.passed (h : Prepared u d) (hp : Passed d d') : Prepared u d' := by
  rcases hp.display with ⟨hscreens, hdisplay⟩ | hmenu
  · obtain ⟨as, hlog, hquiet⟩ := hp.log
    refine h.of_sameScreen ⟨hdisplay, as, hlog, ?_⟩ fun _ => by rw [hp.ctx]
    -- The screens of the session are the same, so no flow was put up.
    have hflows : flows as = [] := by
      rw [screens, screens, hlog, sessionLog_append_quiet hquiet, flows_append] at hscreens
      exact List.append_right_eq_self.mp hscreens
    rw [List.any_eq_false]
    intro a ha hshows
    have hnone := List.filterMap_eq_nil_iff.mp hflows a ha
    cases a with
    | uxFlowInit flow => exact absurd hnone (by simp)
    | _ => cases hshows
  · intro ho
    rw [hmenu] at ho
    exact absurd ho not_offersExport_menu

theorem Prepared.press (h : Prepared u d) {i : Nat}
    (hs : step (mainApp sdk u) d (.press i) = some d') : Prepared u d' := by
  obtain ⟨-, hd'⟩ := step_press hs
  by_cases hi : d.shared.pressed i = .exportPrivateKey
  · exact h.accept hi hs
  by_cases hshared : (d.shared.pressed i).isShared = true
  · rw [hd']
    exact h.passed ((mainApp_screened sdk u).shared _ hshared d)
  · -- Another own callback: then there is no export screen, and none comes up.
    have hno : ¬ OffersExport d.shared.display := by
      intro ho
      obtain ⟨identity, both, hscreen, -⟩ := h ho
      rcases pressed_of_screen hscreen i with hsh | hex
      · exact hshared hsh
      · exact hi hex
    have hkept : OffersExport d'.shared.display → SameScreen d.shared d'.shared := by
      rw [hd']
      refine finish_of_wp (P := fun t' => OffersExport t'.shared.display →
        SameScreen d.shared t'.shared) ?_
      refine wp_mono ((mainApp_screened sdk u).own _ (Bool.not_eq_true _ ▸ hshared) d)
        (fun _ t' ht' ho => ht'.offersExport (fun hne => hne rfl) ho) fun e t' ht' ho => ?_
      have ho' : OffersExport (catchOther e t'.shared).display := ho
      rw [catchOther_display] at ho'
      exact (ht'.offersExport (fun hne => hne rfl) ho').trans (.caught e t'.shared)
    intro ho
    exact absurd ((hkept ho).1 ▸ ho) hno

theorem Prepared.step (h : Prepared u d) (hs : step (mainApp sdk u) d ev = some d') :
    Prepared u d' := by
  cases ev with
  | command c => exact h.command hs
  | press i => exact h.press hs
  | noApdu =>
    unfold ConcordiumLedger.step at hs
    split at hs
    · cases hs
      exact h.of_sameScreen (.caught .noApduReceived (received d).shared) fun _ => rfl
    · cases hs

/-- In every run, at every press, the secrets sent are those of the screen, if the number on it is
that of an identity and no other handler was called since it came up. -/
theorem exported_secrets_match (sdk : Sdk) (u : InstructionContext μ) (d : Device μ)
    (hno : ¬ OffersExport d.shared.display) (events : List Event) :
    Always (ConcordiumLedger.step (mainApp sdk u))
      (fun d ev d' => Undisturbed d → Approved sdk d ev d') d events :=
  Always.of_invariant (I := Prepared u) (fun _ _ _ hp hs => ⟨fun hu => hp.approved hu hs, hp.step hs⟩)
    (fun ho => absurd ho hno)

end Runs

/-! ## The transfer context under the export screen -/

/-- The members of the export context at their offsets in the first 64 bytes of the union; the nodes
of the path are little-endian words. -/
def exportContextOf (bytes : List UInt8) (h : 35 ≤ bytes.length) : Context where
  displayHeader := ⟨bytes.take 20, by simp; omega⟩
  display := ⟨(bytes.drop 20).take 15, by simp; omega⟩
  exportBoth := bytes.getD 35 0 ≠ 0
  exportSeed := bytes.getD 36 0 ≠ 0
  path := .ofFn fun i => (Ptr.ofBytes ((bytes.drop (40 + 4 * i)).take 4).reverse).u4be 0

/-- The export context lies over the two texts with which the transfer context begins. -/
def Contexts.overlaid : InstructionContext Contexts where
  __ := Contexts.layout
  signTransferContext :=
    ⟨Contexts.signTransferContext, fun a m => { m with
      signTransferContext := a
      exportPrivateKeyContext :=
        exportContextOf (a.inner.displayStr.bytes ++ a.inner.displayAmount.bytes)
          (by simp [a.inner.displayStr.length_eq, a.inner.displayAmount.length_eq]) },
      fun _ _ => rfl⟩

def exportCommand : Event := .command (sent insExportPrivateKey p1PrfKey p2Seed [0, 0, 0, 7])

/-- The initial command of a transfer with memo, which puts up no screen. -/
def transferCommand : Event :=
  .command (sent insSignTransferWithMemo SignTransfer.p1InitialWithMemo 0
    ([1, 0, 0, 0, 44] ++ List.replicate 60 0 ++ [SignTransfer.transferWithMemo] ++
      List.replicate 32 0 ++ [0, 2]))

theorem undisturbed_of_text {d : Device μ} {i : Nat} (hi : i < 2 ^ 31)
    (htext : d.shared.display.head?.map (fun st => cString (st.text.drop 20)) =
      some (some (ascii "ID #" ++ decimal i)))
    (halone : ∀ a ∈ sinceScreen d.shared.log, ∀ ins p1 p2 data, a ≠ .handler ins p1 p2 data) :
    Undisturbed d where
  identity identity both h := by
    obtain ⟨c, hflow, hdisplay, -⟩ := h
    have hdrop : (c.displayHeader.bytes ++ c.display.bytes).drop 20 = c.display.bytes :=
      List.drop_left' c.displayHeader.length_eq
    simp only [hflow, uxExportPrivateKey, List.head?_cons, Option.map_some, hdrop, hdisplay,
      Option.some.injEq, List.append_cancel_left_eq] at htext
    rw [decimal_inj htext]
    exact hi
  alone := fun ins p1 p2 data hmem _ => absurd rfl (halone _ hmem ins p1 p2 data)

/-- The loop refuses the transfer while the export is the current instruction. -/
theorem exported_secrets_match_refused :
    ∃ d d', exec (ConcordiumLedger.step (mainApp zeroAddressSdk Contexts.overlaid)) bootedDevice
        [exportCommand, transferCommand] = some d ∧
      ConcordiumLedger.step (mainApp zeroAddressSdk Contexts.overlaid) d (.press 1) = some d' ∧
      Approved zeroAddressSdk d (.press 1) d' := by
  have hex : ((exec (ConcordiumLedger.step (mainApp zeroAddressSdk Contexts.overlaid)) bootedDevice
      [exportCommand, transferCommand]).bind fun d =>
        (ConcordiumLedger.step (mainApp zeroAddressSdk Contexts.overlaid) d (.press 1)).map fun _ =>
          decide (d.shared.display.head?.map (fun st => cString (st.text.drop 20)) =
            some (some (ascii "ID #" ++ decimal 7))) &&
          decide (sinceScreen d.shared.log = [.setInstruction none, .reply [] Error.invalidState.code]))
      = some true := by
    decide
  obtain ⟨d, hd, hmap⟩ := Option.bind_eq_some_iff.mp hex
  obtain ⟨d', hd', hfacts⟩ := Option.map_eq_some_iff.mp hmap
  simp only [Bool.and_eq_true, decide_eq_true_eq] at hfacts
  obtain ⟨htext, hsince⟩ := hfacts
  refine ⟨d, d', hd, hd', ?_⟩
  refine (exported_secrets_match zeroAddressSdk Contexts.overlaid bootedDevice not_offersExport_menu
    _).last hd hd' (undisturbed_of_text (i := 7) (by decide) htext ?_)
  rw [hsince]
  simp

/-- On a screen with another header than that of both secrets, what is sent is one secret. -/
theorem secret_of_screen {flow : List Step} {text : List UInt8}
    (htext : flow.head?.map (fun st => cString (st.text.take 20)) = some (some text))
    (hne : text ≠ ascii "Create credential") {identity : Nat} {both : Bool}
    (h : ExportPrivateKey.Screen identity both flow) : both = false := by
  obtain ⟨c, rfl, -, hboth⟩ := h
  have htake : (c.displayHeader.bytes ++ c.display.bytes).take 20 = c.displayHeader.bytes :=
    List.take_left' c.displayHeader.length_eq
  simp only [uxExportPrivateKey, List.head?_cons, Option.map_some, htake, Option.some.injEq] at htext
  cases both with
  | false => rfl
  | true =>
    have hcreate := hboth.mpr rfl
    rw [htext] at hcreate
    exact absurd (Option.some.inj hcreate) hne

/-- The refused transfer ends the session; sent again, it is accepted without a screen and its
recipient is the new path and the new flag. Accept then sends two secrets for the header of one. -/
theorem export_screen_overwritten :
    ¬ Always (ConcordiumLedger.step (mainApp zeroAddressSdk Contexts.overlaid))
      (Approved zeroAddressSdk) bootedDevice
      ([exportCommand, transferCommand, transferCommand] ++ [.press 1]) := by
  intro h
  have hex : ((exec (ConcordiumLedger.step (mainApp zeroAddressSdk Contexts.overlaid)) bootedDevice
      [exportCommand, transferCommand, transferCommand]).bind fun d =>
        (ConcordiumLedger.step (mainApp zeroAddressSdk Contexts.overlaid) d (.press 1)).map fun d' =>
          decide (d.shared.pressed 1 = .exportPrivateKey) &&
          decide (d.shared.display.head?.map (fun st => cString (st.text.take 20)) =
            some (some (ascii "Decrypt"))) &&
          decide (.reply (List.replicate 64 0) success ∈
            d'.shared.log.drop d.shared.log.length)) = some true := by
    delta mainApp mainHandler
    simp only [handleSignTransferWithMemo, SignTransfer.header, handleHeaderAndToAddress,
      hashAccountTransactionHeaderAndKind, addressText_zeroAddressSdk]
    decide
  obtain ⟨d, hd, hmap⟩ := Option.bind_eq_some_iff.mp hex
  obtain ⟨d', hd', hfacts⟩ := Option.map_eq_some_iff.mp hmap
  simp only [Bool.and_eq_true, decide_eq_true_eq] at hfacts
  obtain ⟨⟨hpressed, hheader⟩, hreply⟩ := hfacts
  obtain ⟨identity, both, hscreen, seed, hdata⟩ := h.last hd hd' 1 rfl hpressed
  have hone := secret_of_screen hheader (by decide) hscreen
  have hsecret := hdata _ hreply
  rw [hone, secretsOf] at hsecret
  cases hpath : hardenedPath [1105, 0, 0, 0, identity, 1] with
  | none =>
    rw [hpath] at hsecret
    cases hsecret
  | some path =>
    have hsingle : ∃ secret, secretAt zeroAddressSdk seed path = some secret ∧
        secret.length = 32 := by
      have hkey : (zeroAddressSdk.blsKey (List.replicate 32 0)).toOption = some (beBytes 32 1) := by
        decide +kernel
      have hseed : zeroAddressSdk.privateKey path = some (List.replicate 32 0) := rfl
      cases seed with
      | false =>
        refine ⟨beBytes 32 1, ?_, beBytes_length 32 1⟩
        rw [secretAt, if_neg (by decide), hseed, Option.bind_some, hkey]
      | true => exact ⟨_, hseed, rfl⟩
    obtain ⟨secret, hsingle, hlen⟩ := hsingle
    simp only [hpath, Option.bind_eq_bind, Option.bind_some, hsingle, Bool.false_eq_true,
      if_false] at hsecret
    have hlength := congrArg List.length (Option.some.inj hsecret)
    rw [List.length_replicate, hlen] at hlength
    exact absurd hlength (by decide)

end ConcordiumLedger
