import ConcordiumLedger.Common.NumberFacts
import ConcordiumLedger.Common.Rules
import ConcordiumLedger.Lib.DecimalText
import ConcordiumLedger.Main.App

/-!
# Main.ShownIndices

The identity and account numbers on the screens that say which key is used.

* `indexOf`     — the number of a component, without the hardened bit.
* `PublicKeyScreen`, `AddressScreen`, `ExportScreen` — the screen shows the numbers of the path that
  the key is derived from.
* `shown_indices_iff` — when it does. The screens show the components as they were sent, with the
  bit that the key does not depend on, and the one for a public key reads the array of components
  at fixed positions, whatever the length of the path.
-/

namespace ConcordiumLedger

open CMem CProg CProg.Prog

/-! ## Numbers and their texts -/

def indexOf (node : UInt32) : Nat := node.toNat % 2 ^ 31

theorem indexOf_hardened (node : UInt32) : indexOf (node ||| hardenedOffset) = indexOf node := by
  have hbit : hardenedOffset.toNat % 2 ^ 31 = 0 := by decide
  rw [indexOf, UInt32.toNat_or, Nat.or_mod_two_pow, hbit, Nat.or_zero]
  rfl

theorem indexOf_eq_iff (node : UInt32) : indexOf node = node.toNat ↔ node.toNat < 2 ^ 31 := by
  rw [indexOf]
  omega

/-- `identity/account` -/
def indicesText (identity account : Nat) : List UInt8 := decimal identity ++ 47 :: decimal account

theorem indicesText_inj {i a j b : Nat} :
    indicesText i a = indicesText j b ↔ i = j ∧ a = b := by
  have hslash : ∀ n, (47 : UInt8) ∉ decimal n := by
    intro n hmem
    have hdigit := isDigit_of_mem_decimal hmem
    cases hdigit
  constructor
  · intro h
    obtain ⟨hi, _, ha⟩ := (List.append_cons_inj_of_notMem (hslash i) (hslash a)).mp h
    exact ⟨decimal_inj hi, decimal_inj ha⟩
  · rintro ⟨rfl, rfl⟩
    rfl

theorem zero_not_mem_indicesText (i a : Nat) : 0 ∉ indicesText i a := by
  simp [indicesText, zero_not_mem_decimal]

theorem getIdentityAccountDisplay_eq {identity account : UInt32} {text : List UInt8}
    (h : getIdentityAccountDisplay 14 identity account = .ok text) :
    text = indicesText identity.toNat account.toNat ++ [0] ∧ text.length ≤ 14 := by
  obtain ⟨first, hfirst, h⟩ := except_bind_ok h
  obtain ⟨second, hsecond, h⟩ := except_bind_ok h
  cases h
  have hlen := lengthOfNumber_le identity.toUInt64 (j := 10) (by decide)
    (by have := identity.toNat_lt; rw [UInt32.toNat_toUInt64]; omega)
  obtain ⟨hfirstLen, _⟩ := numberToText_length hfirst
  have hsecondLen := bin2dec_length hsecond
  rw [numberToText_eq hfirst, bin2dec_eq hsecond] at *
  rw [UInt32.toNat_toUInt64, UInt32.toNat_toUInt64] at *
  refine ⟨by simp [indicesText], ?_⟩
  simp only [List.length_append, List.length_singleton, subSize] at *
  omega

/-- The title and the text of the first step on the display. -/
def firstShown (s : Shared) : Option (String × Option (List UInt8)) :=
  s.display.head?.map fun step => (step.title, step.shown)

/-! ## The path that a command loads -/

/-- The component `i` of the path that a command carries. -/
def componentOf (cdata : Ptr) (i : Nat) : UInt32 := cdata.u4be (1 + i * 4)

theorem loadPath_nodes (cdata : Ptr) (s : Shared) :
    (s.loadPath cdata).path.nodes =
      (List.range (cdata 0).toNat).map fun i => componentOf cdata i ||| hardenedOffset := by
  have hlen : ((List.range (cdata 0).toNat).map fun i =>
      componentOf cdata i ||| hardenedOffset).length = (cdata 0).toNat := by
    rw [List.length_map, List.length_range]
  simp only [KeyDerivationPath.nodes, Shared.loadPath_path_pathLength,
    Shared.loadPath_path_keyDerivationPath, setNodes, List.map_map, List.append_assoc]
  exact List.take_left' hlen

theorem loadPath_raw (cdata : Ptr) (s : Shared) {i : Nat} (h : i < (cdata 0).toNat) :
    (s.loadPath cdata).path.rawKeyDerivationPath.getD i 0 = componentOf cdata i := by
  simp only [Shared.loadPath_path_rawKeyDerivationPath, setNodes]
  rw [List.getD_eq_getElem?_getD, List.getElem?_append_left (by simpa using h)]
  simp [h, componentOf]

/-! ## Public keys -/

open GetPublicKey in
/-- The numbers on the screen are those of the components 4 and 6 of the path that is loaded. -/
def PublicKeyScreen (d' : Device Context) : Prop :=
  ∃ identity account, d'.shared.path.nodes[4]? = some identity ∧
    d'.shared.path.nodes[6]? = some account ∧
    firstShown d'.shared =
      some ("Public key", some (indicesText (indexOf identity) (indexOf account)))

open GetPublicKey in
/-- One path has one screen. -/
theorem PublicKeyScreen.unique {d' e' : Device Context} (hd : PublicKeyScreen d')
    (he : PublicKeyScreen e') (h : d'.shared.path.nodes = e'.shared.path.nodes) :
    firstShown d'.shared = firstShown e'.shared := by
  obtain ⟨i, a, hi, ha, hshown⟩ := hd
  obtain ⟨j, b, hj, hb, hshown'⟩ := he
  rw [h, hj] at hi
  rw [h, hb] at ha
  cases hi
  cases ha
  rw [hshown, hshown']

open GetPublicKey in
/-- What the screen shows: the components 4 and 6 of the array, as they are stored. -/
theorem handleGetPublicKey_shows {sdk : Sdk} {cdata : Ptr} {p1 p2 : UInt8} {d d' : Device Context}
    (hp1 : p1 ≠ 0x01) (hlen : cdata 0 ≠ 5) (h : handleGetPublicKey sdk cdata p1 p2 d = .ok ⟨⟩ d') :
    d'.shared.path = (d.shared.loadPath cdata).path ∧
      firstShown d'.shared = some ("Public key", some (indicesText
        ((d.shared.loadPath cdata).path.rawKeyDerivationPath.getD 4 0).toNat
        ((d.shared.loadPath cdata).path.rawKeyDerivationPath.getD 6 0).toNat)) := by
  have hwp : wp (handleGetPublicKey sdk cdata p1 p2) (fun _ d' =>
      d'.shared.path = (d.shared.loadPath cdata).path ∧
      firstShown d'.shared = some ("Public key", some (indicesText
        ((d.shared.loadPath cdata).path.rawKeyDerivationPath.getD 4 0).toNat
        ((d.shared.loadPath cdata).path.rawKeyDerivationPath.getD 6 0).toNat)))
      (fun _ _ => True) d := by
    unfold handleGetPublicKey
    rw [wp_bind, wp_parseKeyDerivationPath]
    refine ⟨fun _ => trivial, fun _ => ?_⟩
    rw [wp_bind, Fw.wp_modifyCtx, if_neg hp1, wp_bind, Fw.wp_getShared, wp_bind, Fw.wp_eval]
    refine ⟨?_, fun _ _ => trivial⟩
    intro text htext
    have hpath : ¬ (d.shared.loadPath cdata).path.pathLength = 5 := hlen
    simp only [displayText, if_neg hpath] at htext
    obtain ⟨rfl, hfits⟩ := getIdentityAccountDisplay_eq htext
    rw [wp_bind, Fw.wp_modifyCtx, wp_bind, wp_uxFlowInit, wp_waitForButton]
    refine ⟨rfl, ?_⟩
    show some ("Public key", cString (d.ctx.display.memmove 0 _).bytes) = _
    rw [List.length_append, List.length_singleton] at hfits
    rw [cString_memmove _ _ (zero_not_mem_indicesText _ _) (by omega)]
  have hshows := of_wp_ok hwp h
  exact hshows

open GetPublicKey in
theorem publicKeyScreen_iff {sdk : Sdk} {cdata : Ptr} {p1 p2 : UInt8} {d d' : Device Context}
    (hp1 : p1 ≠ 0x01) (hlen : cdata 0 ≠ 5) (h : handleGetPublicKey sdk cdata p1 p2 d = .ok ⟨⟩ d') :
    PublicKeyScreen d' ↔ 7 ≤ (cdata 0).toNat ∧ (componentOf cdata 4).toNat < 2 ^ 31 ∧
      (componentOf cdata 6).toNat < 2 ^ 31 := by
  obtain ⟨hpath, hshown⟩ := handleGetPublicKey_shows hp1 hlen h
  have hnodes : d'.shared.path.nodes =
      (List.range (cdata 0).toNat).map fun i => componentOf cdata i ||| hardenedOffset := by
    rw [hpath, loadPath_nodes]
  rw [PublicKeyScreen, hnodes, hshown]
  constructor
  · rintro ⟨identity, account, hidentity, haccount, htext⟩
    obtain ⟨h6, haccount⟩ := List.getElem?_eq_some_iff.mp haccount
    obtain ⟨h4, hidentity⟩ := List.getElem?_eq_some_iff.mp hidentity
    rw [List.getElem_map, List.getElem_range] at hidentity haccount
    rw [List.length_map, List.length_range] at h6
    rw [loadPath_raw cdata _ (show 4 < (cdata 0).toNat by omega), loadPath_raw cdata _ h6,
      ← hidentity, ← haccount, indexOf_hardened, indexOf_hardened] at htext
    injection htext with htext
    injection htext with _ htext
    obtain ⟨hi, ha⟩ := indicesText_inj.mp (Option.some.inj htext)
    exact ⟨h6, (indexOf_eq_iff _).mp hi.symm, (indexOf_eq_iff _).mp ha.symm⟩
  · rintro ⟨h7, hidentity, haccount⟩
    refine ⟨componentOf cdata 4 ||| hardenedOffset, componentOf cdata 6 ||| hardenedOffset, ?_, ?_,
      ?_⟩
    · rw [List.getElem?_map, List.getElem?_range (by omega)]
      rfl
    · rw [List.getElem?_map, List.getElem?_range (by omega)]
      rfl
    · rw [loadPath_raw cdata _ (show 4 < (cdata 0).toNat by omega),
        loadPath_raw cdata _ (show 6 < (cdata 0).toNat by omega), indexOf_hardened,
        indexOf_hardened, (indexOf_eq_iff _).mpr hidentity, (indexOf_eq_iff _).mpr haccount]

/-! ## Addresses -/

/-- The path of the PRF key from which `handleVerifyAddress` derives the address. -/
def prfKeyPath (cdata : Ptr) : List UInt32 :=
  identityPath (cdata.u4be 0) ++ [1 ||| hardenedOffset]

open VerifyAddress in
/-- The address on the screen is that of the key at `path` and the credential counter. -/
def ShowsAddressOf (sdk : Sdk) (path : List UInt32) (credCounter : UInt32) (d' : Device Context) :
    Prop :=
  ∃ seed prf credId dst, sdk.privateKey path = some seed ∧ sdk.blsKey seed = .ok prf ∧
    sdk.getCredId prf credCounter = some credId ∧
    addressDisplay sdk (sdk.sha256 credId) dst = .ok d'.ctx.address ∧
    (d'.shared.display.drop 1).head?.map (fun step => (step.title, step.text)) =
      some ("Address", d'.ctx.address.bytes)

open VerifyAddress in
/-- The numbers on the screen are those of the identity component of `path` and of the counter. -/
def AddressScreen (path : List UInt32) (credCounter : UInt32) (d' : Device Context) : Prop :=
  ∃ identity, path[4]? = some identity ∧ firstShown d'.shared =
    some ("Verify Address", some (indicesText (indexOf identity) credCounter.toNat))

open VerifyAddress in
theorem handleVerifyAddress_shows {sdk : Sdk} {cdata : Ptr} {d d' : Device Context}
    (h : handleVerifyAddress sdk cdata d = .ok ⟨⟩ d') :
    ShowsAddressOf sdk (prfKeyPath cdata) (cdata.u4be 4) d' ∧
      firstShown d'.shared = some ("Verify Address",
        some (indicesText (cdata.u4be 0).toNat (cdata.u4be 4).toNat)) := by
  have hwp : wp (handleVerifyAddress sdk cdata) (fun _ d' =>
      ShowsAddressOf sdk (prfKeyPath cdata) (cdata.u4be 4) d' ∧
      firstShown d'.shared = some ("Verify Address",
        some (indicesText (cdata.u4be 0).toNat (cdata.u4be 4).toNat)))
      (fun _ _ => True) d := by
    unfold handleVerifyAddress getBlsPrivateKey
    rw [wp_bind, Fw.wp_eval]
    refine ⟨?_, fun _ _ => trivial⟩
    intro text htext
    obtain ⟨rfl, hfits⟩ := getIdentityAccountDisplay_eq htext
    rw [wp_bind, Fw.wp_modifyCtx, wp_bind, wp_bind, Fw.wp_ensureNoError]
    refine ⟨?_, fun _ => trivial⟩
    intro seed hseed
    rw [Fw.wp_eval]
    refine ⟨?_, fun _ _ => trivial⟩
    intro prf hprf
    cases hcred : sdk.getCredId prf (cdata.u4be 4) with
    | none => trivial
    | some credId =>
      rw [wp_bind, Fw.wp_getCtx, wp_bind, Fw.wp_eval]
      refine ⟨?_, fun _ _ => trivial⟩
      intro address haddress
      rw [wp_bind, Fw.wp_modifyCtx, wp_bind, wp_uxFlowInit, wp_waitForButton]
      refine ⟨⟨seed, prf, credId, _, hseed, hprf, hcred, haddress, rfl⟩, ?_⟩
      show some ("Verify Address", cString (d.ctx.display.memmove 0 _).bytes) = _
      rw [List.length_append, List.length_singleton] at hfits
      rw [cString_memmove _ _ (zero_not_mem_indicesText _ _) (by omega)]
  have hshows := of_wp_ok hwp h
  exact hshows

open VerifyAddress in
theorem addressScreen_iff {sdk : Sdk} {cdata : Ptr} {d d' : Device Context}
    (h : handleVerifyAddress sdk cdata d = .ok ⟨⟩ d') :
    AddressScreen (prfKeyPath cdata) (cdata.u4be 4) d' ↔ (cdata.u4be 0).toNat < 2 ^ 31 := by
  obtain ⟨_, hshown⟩ := handleVerifyAddress_shows h
  have hcomponent : (prfKeyPath cdata)[4]? = some (cdata.u4be 0 ||| hardenedOffset) := rfl
  rw [AddressScreen, hcomponent, hshown]
  constructor
  · rintro ⟨identity, hidentity, htext⟩
    cases hidentity
    injection htext with htext
    injection htext with _ htext
    rw [indexOf_hardened] at htext
    exact (indexOf_eq_iff _).mp (indicesText_inj.mp (Option.some.inj htext)).1.symm
  · intro hlt
    refine ⟨_, rfl, ?_⟩
    rw [indexOf_hardened, (indexOf_eq_iff _).mpr hlt]

/-! ## Private keys -/

open ExportPrivateKey in
/-- The number on the screen is that of the identity component of the path in the context, under
which the keys are derived. The title of the step takes the first 20 bytes of its text. -/
def ExportScreen (d' : Device Context) : Prop :=
  ∃ identity, d'.ctx.path[4]? = some identity ∧
    d'.shared.display.head?.map (fun step => cString (step.text.drop 20)) =
      some (some (ascii "ID #" ++ decimal (indexOf identity)))

open ExportPrivateKey in
theorem handleExportPrivateKey_shows {cdata : Ptr} {p1 p2 : UInt8} {d d' : Device Context}
    (h : handleExportPrivateKey cdata p1 p2 d = .ok ⟨⟩ d') :
    d'.ctx.path[4]? = some (cdata.u4be 0 ||| hardenedOffset) ∧
      d'.shared.display.head?.map (fun step => cString (step.text.drop 20)) =
        some (some (ascii "ID #" ++ decimal (cdata.u4be 0).toNat)) := by
  have hwp : wp (handleExportPrivateKey cdata p1 p2) (fun _ d' =>
      d'.ctx.path[4]? = some (cdata.u4be 0 ||| hardenedOffset) ∧
      d'.shared.display.head?.map (fun step => cString (step.text.drop 20)) =
        some (some (ascii "ID #" ++ decimal (cdata.u4be 0).toNat))) (fun _ _ => True) d := by
    unfold handleExportPrivateKey
    rw [wp_bind, Fw.wp_throwIf]
    refine ⟨fun _ => trivial, fun _ => ?_⟩
    rw [wp_bind, Fw.wp_modifyCtx, wp_bind, Fw.wp_eval]
    refine ⟨?_, fun _ _ => trivial⟩
    intro text htext
    have hlen := bin2dec_length htext
    have htextEq := bin2dec_eq htext
    subst htextEq
    rw [UInt32.toNat_toUInt64] at *
    rw [wp_bind, Fw.wp_modifyCtx, wp_bind, wp_uxFlowInit, wp_waitForButton]
    refine ⟨rfl, ?_⟩
    have hid : (ascii "ID #").length = 4 := rfl
    have hmove := Buffer.memmove_memmove d.ctx.display (ascii "ID #")
      (decimal (cdata.u4be 0).toNat ++ [0]) (by rw [List.length_append, hid]; omega)
    rw [hid, ← List.append_assoc] at hmove
    have h0 : 0 ∉ ascii "ID #" ++ decimal (cdata.u4be 0).toNat := by
      have hascii : (0 : UInt8) ∉ ascii "ID #" := by decide
      simp [hascii, zero_not_mem_decimal]
    show some (cString (List.drop 20 ((d.ctx.displayHeader.memmove 0 (headerText p1)).bytes ++
      ((d.ctx.display.memmove 0 (ascii "ID #")).memmove 4
        (decimal (cdata.u4be 0).toNat ++ [0])).bytes))) = _
    rw [List.drop_left' (Buffer.length_eq _), hmove]
    rw [List.length_append, List.length_singleton] at hlen
    rw [cString_memmove _ _ h0 (by rw [List.length_append, hid]; omega)]
  have hshows := of_wp_ok hwp h
  exact hshows

open ExportPrivateKey in
theorem exportScreen_iff {cdata : Ptr} {p1 p2 : UInt8} {d d' : Device Context}
    (h : handleExportPrivateKey cdata p1 p2 d = .ok ⟨⟩ d') :
    ExportScreen d' ↔ (cdata.u4be 0).toNat < 2 ^ 31 := by
  obtain ⟨hcomponent, hshown⟩ := handleExportPrivateKey_shows h
  rw [ExportScreen, hcomponent, hshown]
  constructor
  · rintro ⟨identity, hidentity, htext⟩
    cases hidentity
    rw [indexOf_hardened] at htext
    have hdecimal := List.append_cancel_left (Option.some.inj (Option.some.inj htext))
    exact (indexOf_eq_iff _).mp (decimal_inj hdecimal).symm
  · intro hlt
    refine ⟨_, rfl, ?_⟩
    rw [indexOf_hardened, (indexOf_eq_iff _).mpr hlt]

/-! ## All screens -/

/-- Whatever the device did before: the screen of an accepted command shows the numbers of the key
exactly if the components it shows are sent without the hardened bit and, for a public key, the
path is long enough to have them. -/
theorem shown_indices_iff (sdk : Sdk) (cdata : Ptr) :
    (∀ (p1 p2 : UInt8) (d d' : Device GetPublicKey.Context), p1 ≠ 0x01 → cdata 0 ≠ 5 →
      handleGetPublicKey sdk cdata p1 p2 d = .ok ⟨⟩ d' →
      (PublicKeyScreen d' ↔ 7 ≤ (cdata 0).toNat ∧ (componentOf cdata 4).toNat < 2 ^ 31 ∧
        (componentOf cdata 6).toNat < 2 ^ 31)) ∧
    (∀ d d' : Device VerifyAddress.Context, handleVerifyAddress sdk cdata d = .ok ⟨⟩ d' →
      ShowsAddressOf sdk (prfKeyPath cdata) (cdata.u4be 4) d' ∧
      (AddressScreen (prfKeyPath cdata) (cdata.u4be 4) d' ↔ (cdata.u4be 0).toNat < 2 ^ 31)) ∧
    (∀ (p1 p2 : UInt8) (d d' : Device ExportPrivateKey.Context),
      handleExportPrivateKey cdata p1 p2 d = .ok ⟨⟩ d' →
      (ExportScreen d' ↔ (cdata.u4be 0).toNat < 2 ^ 31)) := by
  refine ⟨?_, ?_, ?_⟩
  · intro p1 p2 d d' hp1 hlen h
    exact publicKeyScreen_iff hp1 hlen h
  · intro d d' h
    exact ⟨(handleVerifyAddress_shows h).1, addressScreen_iff h⟩
  · intro p1 p2 d d' h
    exact exportScreen_iff h

/-- The path `1105/0/0/0/3/0/7/0` as a command. -/
def accountKeyCommand : Ptr :=
  .ofBytes [8, 0, 0, 4, 81, 0, 0, 0, 0, 0, 0, 0, 0, 0, 0, 0, 0, 0, 0, 0, 3, 0, 0, 0, 0, 0, 0, 0, 7,
    0, 0, 0, 0]

/-- The path `1105/0/0/0` as a command. -/
def subtreeKeyCommand : Ptr := .ofBytes [4, 0, 0, 4, 81, 0, 0, 0, 0, 0, 0, 0, 0, 0, 0, 0, 0]

/-- A device on which the command for the account key was rejected by the user. -/
def afterAccountKey : Device GetPublicKey.Context where
  ctx := default
  shared := bootedDevice.shared.loadPath accountKeyCommand

theorem shown_indices_account_key :
    ∃ d', handleGetPublicKey zeroAddressSdk accountKeyCommand 0 0 afterAccountKey = .ok ⟨⟩ d' ∧
      PublicKeyScreen d' := by
  obtain ⟨d', hd'⟩ : ∃ d', handleGetPublicKey zeroAddressSdk accountKeyCommand 0 0 afterAccountKey =
    .ok ⟨⟩ d' := ⟨_, rfl⟩
  refine ⟨d', hd', ?_⟩
  have hiff := (shown_indices_iff zeroAddressSdk accountKeyCommand).1 0 0 _ d' (by decide)
    (by decide) hd'
  exact hiff.mpr (by decide)

/-- The screen for the path `1105/0/0/0` shows the account of the command before, and the one for
the keys of the identity 1 shows another identity. -/
theorem shown_indices_of_other_key :
    (∃ d', handleGetPublicKey zeroAddressSdk subtreeKeyCommand 0 0 afterAccountKey = .ok ⟨⟩ d' ∧
      firstShown d'.shared = some ("Public key", some (ascii "3/7")) ∧ ¬ PublicKeyScreen d') ∧
    (∃ d', handleExportPrivateKey (.ofBytes [0x80, 0, 0, 1]) 0 2 ⟨default, bootedDevice.shared⟩ =
      .ok ⟨⟩ d' ∧ ¬ ExportScreen d') := by
  refine ⟨?_, ?_⟩
  · obtain ⟨d', hd'⟩ : ∃ d', handleGetPublicKey zeroAddressSdk subtreeKeyCommand 0 0
      afterAccountKey = .ok ⟨⟩ d' := ⟨_, rfl⟩
    refine ⟨d', hd', ?_, ?_⟩
    · have hshown := (handleGetPublicKey_shows (by decide) (by decide) hd').2
      rw [hshown]
      decide
    · rw [publicKeyScreen_iff (by decide) (by decide) hd']
      decide
  · obtain ⟨d', hd'⟩ : ∃ d', handleExportPrivateKey (.ofBytes [0x80, 0, 0, 1]) 0 2
      ⟨default, bootedDevice.shared⟩ = .ok ⟨⟩ d' := ⟨_, rfl⟩
    refine ⟨d', hd', ?_⟩
    rw [exportScreen_iff hd']
    decide

end ConcordiumLedger
