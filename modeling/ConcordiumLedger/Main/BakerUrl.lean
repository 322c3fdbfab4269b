import ConcordiumLedger.Common.Rules
import ConcordiumLedger.Common.ZeroAddress
import ConcordiumLedger.Main.ConfigureBaker

/-!
# Main.BakerUrl

The pages of the URL of a baker configuration. Only the last page is terminated; behind each other
page stands what was in the array before, so the screens spell the URL exactly when a NUL happens
to be there.

* `urlPackets`   — the packets of the URL in a run, with the states before and after each.
* `UrlDisplayed` — the strings of the URL screens spell the bytes that were hashed.
* `PageEnds`     — a NUL stands behind the page that a packet is about to write.
-/

namespace ConcordiumLedger

open CMem CProg CProg.Prog Transition

namespace SignConfigureBaker

variable {μ : Type}

/-- A packet of the URL. -/
def IsUrlPacket (ev : Event) : Prop := ∃ c, ev = .command c ∧ c.ins = insConfigureBaker ∧ c.p1 = p1Url

instance (ev : Event) : Decidable (IsUrlPacket ev) :=
  match ev with
  | .command c =>
    decidable_of_iff (c.ins = insConfigureBaker ∧ c.p1 = p1Url)
      ⟨fun h => ⟨c, rfl, h⟩, fun ⟨_, hc, h⟩ => by cases hc; exact h⟩
  | .press _ => .isFalse fun ⟨_, hc, _⟩ => by cases hc
  | .noApdu => .isFalse fun ⟨_, hc, _⟩ => by cases hc

def urlPackets (app : App μ) : Device μ → List Event → List (Shared × Shared)
  | _, [] => []
  | d, ev :: es =>
    match lockStep app d ev with
    | none => []
    | some d' => if IsUrlPacket ev then (d.shared, d'.shared) :: urlPackets app d' es
        else urlPackets app d' es

/-- The bytes that were hashed between two states. -/
def hashedBetween (s s' : Shared) : List UInt8 := s'.hash.drop s.hash.length

/-- The bytes of the URL that were hashed. -/
def urlHashed (packets : List (Shared × Shared)) : List UInt8 :=
  packets.flatMap fun p => hashedBetween p.1 p.2

def UrlDisplayed (packets : List (Shared × Shared)) : Prop :=
  ((packets.flatMap fun p => urlTexts (putUp p.1 p.2)).mapM cString).map List.flatten =
    some (urlHashed packets)

/-- A packet that is not the last one finds a NUL where its page ends. -/
def PageEnds (m : Member μ Context) (d : Device μ) (ev : Event) : Prop :=
  ∀ c, ev = .command c → IsUrlPacket ev →
    c.lc.toUInt16 < (m.get d.ctx).url.urlLength →
      (m.get d.ctx).url.urlDisplay.bytes[c.lc.toNat]? = some 0

instance (m : Member μ Context) (d : Device μ) (ev : Event) : Decidable (PageEnds m d ev) :=
  match ev with
  | .command c =>
    decidable_of_iff (IsUrlPacket (.command c) → c.lc.toUInt16 < (m.get d.ctx).url.urlLength →
        (m.get d.ctx).url.urlDisplay.bytes[c.lc.toNat]? = some 0)
      ⟨fun h _ hc => by cases hc; exact h, fun h => h c rfl⟩
  | .press _ => .isTrue fun _ hc => by cases hc
  | .noApdu => .isTrue fun _ hc => by cases hc

instance (packets : List (Shared × Shared)) : Decidable (UrlDisplayed packets) :=
  inferInstanceAs (Decidable (_ = _))

/-! ## One packet -/

/-- A packet hashes a page and puts up at most one screen for it, whose array begins with the page.
`ends` says that a NUL follows. -/
inductive Page (s s' : Shared) (ends : Prop) : Prop where
  | shown (text : List UInt8) (htexts : urlTexts (putUp s s') = [text])
      (hpage : hashedBetween s s' <+: text)
      (hends : text[(hashedBetween s s').length]? = some 0 ↔ ends)
  | empty (htexts : urlTexts (putUp s s') = []) (hpage : hashedBetween s s' = []) (hends : ends)

theorem hashedBetween_append {s s' : Shared} {bytes : List UInt8} (h : s'.hash = s.hash ++ bytes) :
    hashedBetween s s' = bytes := by
  rw [hashedBetween, h, List.drop_left]

/-- A page in front of the rest of the URL. -/
theorem page_more (c : Context) (n : UInt16) {bs : List UInt8} (h : bs.length ≤ 255) :
    bs <+: (((c.setUrlLength n).write offUrlDisplay bs).url.urlDisplay).bytes ∧
      (((c.setUrlLength n).write offUrlDisplay bs).url.urlDisplay).bytes[bs.length]? =
        c.url.urlDisplay.bytes[bs.length]? := by
  rw [Context.write_urlDisplay, Context.setUrlLength_urlDisplay, Buffer.memmove_bytes _ _ (by omega)]
  refine ⟨List.prefix_append _ _, ?_⟩
  rw [List.getElem?_append_right (Nat.le_refl _), Nat.sub_self, List.getElem?_drop, Nat.add_zero]

section OneScreen

variable {s s' : Shared} {bytes : List UInt8} {ends : Prop} {last : Bool}

theorem putUp_page {flow : List Step}
    (hl : s'.log = s.log ++ [.updateHash bytes] ++ [.uxFlowInit flow]) : putUp s s' = flow := by
  have hf : flows s'.log = flows s.log ++ [flow] := by
    rw [hl, flows_append, flows_append]
    simp [flows]
  rw [putUp_of_flows hf, List.flatten_singleton]

/-- A packet that hashes `bytes` and puts up one screen, for the context `c`. -/
theorem Page.of_screen (c : Context) (r : Shared) (hh : s'.hash = s.hash ++ bytes)
    (hl : s'.log = s.log ++ [.updateHash bytes] ++
      [.uxFlowInit (uxSignConfigureBakerUrl last ⟨c, r⟩)])
    (hp : bytes <+: c.url.urlDisplay.bytes) (hlast : last = true → c.url.urlLength ≠ 0)
    (he : c.url.urlDisplay.bytes[bytes.length]? = some 0 ↔ ends) : Page s s' ends := by
  have hbytes := hashedBetween_append hh
  refine .shown c.url.urlDisplay.bytes ?_ (by rw [hbytes]; exact hp) (by rw [hbytes]; exact he)
  rw [putUp_page hl]
  exact urlTexts_page ⟨c, r⟩ last hlast

theorem Page.of_empty (c : Context) (r : Shared) (hh : s'.hash = s.hash ++ bytes)
    (hl : s'.log = s.log ++ [.updateHash bytes] ++
      [.uxFlowInit (uxSignConfigureBakerUrl true ⟨c, r⟩)])
    (hbytes : bytes = []) (hzero : c.url.urlLength = 0) (he : ends) : Page s s' ends := by
  refine .empty ?_ (by rw [hashedBetween_append hh, hbytes]) he
  rw [putUp_page hl]
  exact urlTexts_empty ⟨c, r⟩ hzero

end OneScreen

theorem handleUrl_spec (cdata : Ptr) (lc : UInt8) (t : Device Context) :
    wp (handleUrl cdata lc)
      (fun _ t' => Page t.shared t'.shared (lc.toUInt16 < t.ctx.url.urlLength →
        t.ctx.url.urlDisplay.bytes[lc.toNat]? = some 0)) (fun _ _ => True) t := by
  have hlc : lc.toNat ≤ 255 := Nat.le_of_lt_succ lc.toNat_lt
  have hslice := Ptr.slice_length cdata lc.toNat
  simp only [handleUrl, wp_bind, Fw.wp_getCtx, wp_ite, wp_updateHash, Fw.wp_modifyCtx,
    startConfigureBakerUrlDisplay, clearFirstDisplay, setState, wp_uxFlowInit, wp_waitForButton,
    Fw.wp_throw, implies_true, and_true]
  refine ⟨fun hmore => ?_, fun hmore hlast => ?_⟩
  · obtain ⟨hpre, hnext⟩ := page_more t.ctx (t.ctx.url.urlLength - lc.toUInt16)
      (show (cdata.slice lc.toNat).length ≤ 255 by omega)
    rw [hslice] at hnext
    refine Page.of_screen _ _ rfl rfl hpre (fun h => (by cases h)) ?_
    rw [hslice, hnext]
    exact ⟨fun h _ => h, fun h => h hmore⟩
  · have hnat : t.ctx.url.urlLength.toNat = lc.toNat := by rw [hlast, UInt8.toNat_toUInt16]
    have hpre := t.ctx.prefix_lastPage (cdata.slice lc.toNat) (by omega)
    rw [hslice] at hpre
    rw [hnat]
    have hlength : ((t.ctx.write offUrlDisplay (cdata.slice lc.toNat)).write
        (offUrlDisplay + lc.toNat) [0]).url.urlLength = t.ctx.url.urlLength := by
      rw [Context.write_urlLength _ _ _ (by rw [offUrlDisplay]; omega),
        Context.write_urlLength _ _ _ (by decide)]
    by_cases hzero : t.ctx.url.urlLength = 0
    · -- only a stale state leads here: no screen is titled as the URL
      have hlc0 : lc.toNat = 0 := by rw [← hnat, hzero]; rfl
      exact Page.of_empty _ _ rfl rfl (by rw [hlc0]; rfl) (hlength.trans hzero) fun h =>
        absurd h hmore
    · have hend : ((t.ctx.write offUrlDisplay (cdata.slice lc.toNat)).write
          (offUrlDisplay + lc.toNat) [0]).url.urlDisplay.bytes[(cdata.slice lc.toNat).length]? =
            some 0 := by
        obtain ⟨rest, hrest⟩ := hpre
        rw [← hrest, List.append_assoc, List.getElem?_append_right (Nat.le_refl _), Nat.sub_self]
        rfl
      exact Page.of_screen _ _ rfl rfl ((List.prefix_append _ [0]).trans hpre)
        (fun _ h => hzero (hlength.symm.trans h)) (iff_of_true hend fun h => absurd h hmore)

/-! ## Runs -/

section Run

variable {sdk : Sdk} {u : InstructionContext μ} {d d' : Device μ} {ev : Event}

theorem Page.of_entered {c : Apdu} {s' : Shared} {ends : Prop}
    (h : Page (entered d c).shared s' ends) : Page d.shared s' ends := by
  have hput : putUp (entered d c).shared s' = putUp d.shared s' := by
    simp [putUp, entered, flows]
  have hhash : hashedBetween (entered d c).shared s' = hashedBetween d.shared s' := rfl
  cases h with
  | shown text htexts hpage hends =>
    rw [hput] at htexts
    rw [hhash] at hpage hends
    exact .shown text htexts hpage hends
  | empty htexts hpage hends =>
    rw [hput] at htexts
    rw [hhash] at hpage
    exact .empty htexts hpage hends

theorem urlPacket_page (hu : IsUrlPacket ev) (h : lockStep (mainApp sdk u) d ev = some d') :
    Page d.shared d'.shared (PageEnds u.signConfigureBaker d ev) := by
  have hu' := hu
  obtain ⟨c, rfl, hins, hp1⟩ := hu
  obtain ⟨-, -, -, hh⟩ := lockStep_command h
  have happ : (mainApp sdk u).handler c false = Fw.on u.signConfigureBaker
      (handleSignConfigureBaker sdk c.cdata c.p1 c.lc false) := by
    show mainHandler sdk u c false = _
    unfold mainHandler
    rw [hins]
    rfl
  have hends : (c.lc.toUInt16 < (u.signConfigureBaker.get d.ctx).url.urlLength →
      (u.signConfigureBaker.get d.ctx).url.urlDisplay.bytes[c.lc.toNat]? = some 0) ↔
        PageEnds u.signConfigureBaker d (.command c) := by
    refine ⟨fun h c' hc _ => ?_, fun h => h c rfl hu'⟩
    cases hc
    exact h
  have hw : wp (handleSignConfigureBaker sdk c.cdata c.p1 c.lc false)
      (fun _ t => Page (entered d c).shared t.shared (PageEnds u.signConfigureBaker d (.command c)))
      (fun _ _ => True) ((entered d c).view u.signConfigureBaker) := by
    rw [← hends]
    unfold handleSignConfigureBaker
    rw [hp1, wp_bind, Fw.wp_getCtx]
    refine (wp_ite _ _ _).mpr ⟨fun h => absurd h.1 (by decide), fun _ => ?_⟩
    refine (wp_ite _ _ _).mpr ⟨fun h => absurd h.1 (by decide), fun _ => ?_⟩
    refine (wp_ite _ _ _).mpr ⟨fun h => absurd h.1 (by decide), fun _ => ?_⟩
    refine (wp_ite _ _ _).mpr ⟨fun h => absurd h.1 (by decide), fun _ => ?_⟩
    refine (wp_ite _ _ _).mpr ⟨fun _ => handleUrl_spec _ _ _, fun _ => ?_⟩
    exact (wp_ite _ _ _).mpr ⟨fun h => absurd h.1 (by decide), fun _ => trivial⟩
  rw [happ] at hh
  have hon : wp (Fw.on u.signConfigureBaker
      (handleSignConfigureBaker sdk c.cdata c.p1 c.lc false))
      (fun _ t => Page (entered d c).shared t.shared (PageEnds u.signConfigureBaker d (.command c)))
      (fun _ _ => True) (entered d c) := (Fw.wp_on _ _).mpr hw
  have hpage := of_wp_ok hon hh
  exact Page.of_entered hpage

/-- The pages of a packet: what was hashed, and the array that shows it. -/
def pagesOf (p : Shared × Shared) : List (List UInt8 × List UInt8) :=
  (urlTexts (putUp p.1 p.2)).map fun text => (hashedBetween p.1 p.2, text)

/-- The packets of a run, as pages. -/
theorem pages_of_packets (sdk : Sdk) (u : InstructionContext μ) (d : Device μ) (es : List Event) :
    (((urlPackets (mainApp sdk u) d es).flatMap pagesOf).map Prod.fst).flatten =
        urlHashed (urlPackets (mainApp sdk u) d es) ∧
      (∀ p ∈ (urlPackets (mainApp sdk u) d es).flatMap pagesOf, p.1 <+: p.2) ∧
      ((∀ p ∈ (urlPackets (mainApp sdk u) d es).flatMap pagesOf, p.2[p.1.length]? = some 0) ↔
        Always (lockStep (mainApp sdk u)) (fun d ev _ => PageEnds u.signConfigureBaker d ev) d es) := by
  induction es generalizing d with
  | nil => exact ⟨rfl, fun _ h => (by cases h), iff_of_true (fun _ h => (by cases h)) trivial⟩
  | cons ev es ih =>
    unfold urlPackets Always
    cases hs : lockStep (mainApp sdk u) d ev with
    | none => exact ⟨rfl, fun _ h => (by cases h),
        iff_of_true (fun _ h => (by cases h)) fun _ h => (by cases h)⟩
    | some d' =>
      obtain ⟨hhashed, hpre, hends⟩ := ih d'
      simp only [Option.some.injEq, forall_eq']
      by_cases hu : IsUrlPacket ev
      · simp only [hu, if_true, List.flatMap_cons, List.map_append, List.flatten_append,
          List.forall_mem_append, hhashed, urlHashed, hends]
        cases urlPacket_page hu hs with
        | shown text htexts hpage hend =>
          have hone : pagesOf (d.shared, d'.shared) = [(hashedBetween d.shared d'.shared, text)] := by
            rw [pagesOf, htexts, List.map_singleton]
          rw [hone, List.map_singleton, List.flatten_singleton, List.forall_mem_singleton,
            List.forall_mem_singleton, hend]
          exact ⟨rfl, ⟨hpage, hpre⟩, Iff.rfl⟩
        | empty htexts hpage hend =>
          have hnone : pagesOf (d.shared, d'.shared) = [] := by rw [pagesOf, htexts, List.map_nil]
          rw [hnone, hpage]
          exact ⟨rfl, ⟨fun _ h => (by cases h), hpre⟩,
            and_congr_left' (iff_of_true (fun _ h => (by cases h)) hend)⟩
      · have hskip : PageEnds u.signConfigureBaker d ev := fun _ _ h => absurd h hu
        simp only [hu, if_false, hskip, true_and]
        exact ⟨hhashed, hpre, hends⟩

end Run

/-- From any state on, the screens of a run spell the bytes of the URL that are hashed if and only if
each packet but the last finds a NUL where its page ends. -/
theorem baker_url_displayed_iff (sdk : Sdk) (u : InstructionContext μ) (d : Device μ)
    (es : List Event) (h0 : 0 ∉ urlHashed (urlPackets (mainApp sdk u) d es)) :
    UrlDisplayed (urlPackets (mainApp sdk u) d es) ↔
      Always (lockStep (mainApp sdk u)) (fun d ev _ => PageEnds u.signConfigureBaker d ev) d es := by
  obtain ⟨hhashed, hpre, hends⟩ := pages_of_packets sdk u d es
  have htexts : (urlPackets (mainApp sdk u) d es).flatMap (fun p => urlTexts (putUp p.1 p.2)) =
      ((urlPackets (mainApp sdk u) d es).flatMap pagesOf).map Prod.snd := by
    rw [List.map_flatMap]
    simp [pagesOf, Function.comp_def]
  rw [← hhashed] at h0
  rw [UrlDisplayed, htexts, ← hhashed, strings_flatten_iff hpre h0, hends]

/-- The initial packet of a configuration that has only a URL. -/
def urlInitial : Apdu := initialPacket 0 0x10

def urlPacket (data : List UInt8) : Event := .command (sent insConfigureBaker p1Url 0 data)

def urlLengthPacket (n : UInt8) : Event :=
  .command (sent insConfigureBaker p1UrlLength 0 [0, n])

/-- A URL of two pages, the second one longer than the first. -/
def longerPages : List Event :=
  [urlLengthPacket 5, urlPacket (ascii "ab"), .press 2, urlPacket (ascii "cde")]

theorem baker_url_displayed_longer :
    ∃ d₁ d : Device Contexts,
      begins (mainApp zeroAddressSdk Contexts.layout) insConfigureBaker bootedDevice urlInitial d₁ ∧
      exec (lockStep (mainApp zeroAddressSdk Contexts.layout)) d₁ longerPages = some d ∧
      UrlDisplayed (urlPackets (mainApp zeroAddressSdk Contexts.layout) d₁ longerPages) := by
  have hex : ((accepted (dispatch (mainApp zeroAddressSdk Contexts.layout) urlInitial
      (receivedCommand bootedDevice))).any fun d₁ =>
        (exec (guarded (lockStep (mainApp zeroAddressSdk Contexts.layout))
          (PageEnds Contexts.layout.signConfigureBaker)) d₁ longerPages).isSome &&
        decide (0 ∉ urlHashed
          (urlPackets (mainApp zeroAddressSdk Contexts.layout) d₁ longerPages))) = true := by
    delta mainApp mainHandler
    simp only [handleSignConfigureBaker, SignConfigureBaker.handleInitial,
      hashAccountTransactionHeaderAndKind, addressText_zeroAddressSdk]
    decide
  obtain ⟨d₁, hd₁, hc⟩ := (Option.any_eq_true _ _).mp hex
  simp only [Bool.and_eq_true, decide_eq_true_eq] at hc
  obtain ⟨d, hd⟩ := Option.isSome_iff_exists.mp hc.1
  obtain ⟨hexec, hall⟩ := exec_guarded hd
  exact ⟨d₁, d, ⟨⟨rfl, rfl, rfl⟩, rfl, hd₁⟩, hexec,
    (baker_url_displayed_iff zeroAddressSdk Contexts.layout d₁ longerPages hc.2).mpr hall⟩

/-- A URL of three pages, the second one shorter than the first. -/
def shorterPages : List Event :=
  [urlLengthPacket 6, urlPacket (ascii "abc"), .press 2, urlPacket (ascii "d"), .press 0,
    urlPacket (ascii "ef")]

/-- What the second screen shows ends with the first page. -/
theorem shorter_page_not_displayed :
    ∃ d₁ d : Device Contexts,
      begins (mainApp zeroAddressSdk Contexts.layout) insConfigureBaker bootedDevice urlInitial d₁ ∧
      exec (lockStep (mainApp zeroAddressSdk Contexts.layout)) d₁ shorterPages = some d ∧
      0 ∉ urlHashed (urlPackets (mainApp zeroAddressSdk Contexts.layout) d₁ shorterPages) ∧
      ¬ UrlDisplayed (urlPackets (mainApp zeroAddressSdk Contexts.layout) d₁ shorterPages) := by
  have hex : ((accepted (dispatch (mainApp zeroAddressSdk Contexts.layout) urlInitial
      (receivedCommand bootedDevice))).any fun d₁ =>
        (exec (lockStep (mainApp zeroAddressSdk Contexts.layout)) d₁ shorterPages).isSome &&
        decide (0 ∉ urlHashed
          (urlPackets (mainApp zeroAddressSdk Contexts.layout) d₁ shorterPages)) &&
        !decide (UrlDisplayed
          (urlPackets (mainApp zeroAddressSdk Contexts.layout) d₁ shorterPages))) = true := by
    delta mainApp mainHandler
    simp only [handleSignConfigureBaker, SignConfigureBaker.handleInitial,
      hashAccountTransactionHeaderAndKind, addressText_zeroAddressSdk]
    decide
  obtain ⟨d₁, hd₁, hc⟩ := (Option.any_eq_true _ _).mp hex
  simp only [Bool.and_eq_true, decide_eq_true_eq, Bool.not_eq_true', decide_eq_false_iff_not] at hc
  obtain ⟨⟨hsome, h0⟩, hno⟩ := hc
  obtain ⟨d, hd⟩ := Option.isSome_iff_exists.mp hsome
  exact ⟨d₁, d, ⟨⟨rfl, rfl, rfl⟩, rfl, hd₁⟩, hd, h0, hno⟩

end SignConfigureBaker
end ConcordiumLedger
