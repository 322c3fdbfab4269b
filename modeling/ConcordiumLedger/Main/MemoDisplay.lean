import ConcordiumLedger.Common.ZeroAddress
import ConcordiumLedger.Main.MemoFraming

/-!
# Main.MemoDisplay

Which memos are accepted, and what is displayed of them.

* `Documented`      — the memo commands as the host is told to send them.
* `accepted_iff`    — a memo that is sent so is accepted iff it is exactly one item.
* `displayed_exactly_iff` — the string on the display is its text iff the text is terminated: by the
  NUL of an integer, or by the byte that an earlier session has left behind it.
-/

namespace ConcordiumLedger

open CMem CProg CProg.Prog Transition

namespace Memo

/-! ## The memo phases of an instruction -/

/-- The commands of the memo phases run `memoInitial` and `memoContent`. -/
structure MemoPhases {γ : Type} (loc : App (WithDataBlob γ)) (phase : γ → Option Phase)
    (p1Memo : UInt8) (finish more : Fw (WithDataBlob γ) PUnit) : Prop where
  initial : ∀ t apdu, phase t.ctx.inner = some .start → apdu.p1 = p1Memo →
    loc.handler apdu false t = memoInitial apdu.cdata apdu.lc finish more t
  content : ∀ t apdu, phase t.ctx.inner = some .more → apdu.p1 = p1Memo →
    loc.handler apdu false t = memoContent apdu.cdata apdu.lc finish t
  finish_ok : ∀ t, wp finish (fun _ t' => phase t'.ctx.inner = some .done ∧
    t'.ctx.cborContext = t.ctx.cborContext) (fun _ _ => False) t
  more_ok : ∀ t, wp more (fun _ t' => phase t'.ctx.inner = some .more ∧
    t'.ctx.cborContext = t.ctx.cborContext ∧ t'.shared.running = t.shared.running ∧
    t'.shared.currentInstruction = t.shared.currentInstruction ∧ t'.shared.replyOwed = false)
    (fun _ _ => False) t

/-- The memo is awaited: the initial command of the session has been accepted. -/
structure Awaiting {γ : Type} (ins : UInt8) (phase : γ → Option Phase) (ph : Phase)
    (t : Device (WithDataBlob γ)) : Prop where
  phase : phase t.ctx.inner = some ph
  instruction : t.shared.currentInstruction = some ins
  running : t.shared.running = true
  replied : t.shared.replyOwed = false

/-- A memo command of the host. -/
structure MemoCommand (ins p1Memo : UInt8) (apdu : Apdu) : Prop where
  cla : apdu.cla = 0xE0
  ins : apdu.ins = ins
  p1 : apdu.p1 = p1Memo

section Local

variable {γ : Type} {loc : App (WithDataBlob γ)} {phase : γ → Option Phase} {ins p1Memo : UInt8}
  {finish more : Fw (WithDataBlob γ) PUnit} {t : Device (WithDataBlob γ)} {a b : Apdu}

/-- The first memo command. -/
theorem start_outcome (hm : MemoPhases loc phase p1Memo finish more)
    (ht : Awaiting ins phase .start t) (ha : MemoCommand ins p1Memo a) :
    wp (loc.handler a false)
      (fun _ t' => (∃ s n, ItemRead a.cdata a.lc s n t.ctx.cborContext t'.ctx.cborContext) ∧
        (t'.ctx.cborContext.cborLength = 0 → phase t'.ctx.inner = some .done) ∧
        (t'.ctx.cborContext.cborLength ≠ 0 → Awaiting ins phase .more t'))
      (fun _ _ => ¬ Readable a.cdata t.ctx.cborContext) (entered t a) := by
  have hrun : wp (memoInitial a.cdata a.lc finish more)
      (fun _ t' => (∃ s n, ItemRead a.cdata a.lc s n t.ctx.cborContext t'.ctx.cborContext) ∧
        (t'.ctx.cborContext.cborLength = 0 → phase t'.ctx.inner = some .done) ∧
        (t'.ctx.cborContext.cborLength ≠ 0 → Awaiting ins phase .more t'))
      (fun _ _ => ¬ Readable a.cdata t.ctx.cborContext) (entered t a) := by
    simp only [memoInitial, Fw.onCbor, wp_bind, wp_updateHash, wp_zoom, Fw.wp_getCtx, wp_ite]
    refine wp_mono (readCborInitial_outcome _ _) ?_ (fun _ _ h => h)
    rintro _ ⟨c, s⟩ ⟨rfl, sz, n, hread⟩
    refine ⟨fun hz => ?_, fun hne => ?_⟩
    · refine wp_mono (hm.finish_ok _) ?_ (fun _ _ h => h.elim)
      rintro _ t' ⟨hph, hc⟩
      rw [hc]
      exact ⟨⟨sz, n, hread⟩, fun _ => hph, fun hne => absurd hz hne⟩
    · refine wp_mono (hm.more_ok _) ?_ (fun _ _ h => h.elim)
      rintro _ t' ⟨hph, hc, hr, hi, ho⟩
      rw [hc]
      exact ⟨⟨sz, n, hread⟩, fun hz => absurd hz hne,
        fun _ => ⟨hph, hi.trans ht.instruction, hr.trans ht.running, ho⟩⟩
  have heq := hm.initial (entered t a) a ht.phase ha.p1
  unfold wp at hrun ⊢
  rwa [heq]

/-- The second memo command. -/
theorem more_outcome (hm : MemoPhases loc phase p1Memo finish more)
    (ht : Awaiting ins phase .more t) (hb : MemoCommand ins p1Memo b)
    {disp : Buffer 255} {f : List UInt8} {left : Nat}
    (hr : Reading disp f [] left t.ctx.cborContext) (hne : left ≠ 0) (hlc : b.lc.toNat = left) :
    wp (loc.handler b false)
      (fun _ t' => ItemDisplayed disp (f ++ b.data) t'.ctx.cborContext ∧
        phase t'.ctx.inner = some .done)
      (fun _ _ => ¬ (t.ctx.cborContext.majorType = 3 ∧ (Cbor.head f).isSome = true))
      (entered t b) := by
  have hrun : wp (memoContent b.cdata b.lc finish)
      (fun _ t' => ItemDisplayed disp (f ++ b.data) t'.ctx.cborContext ∧
        phase t'.ctx.inner = some .done)
      (fun _ _ => ¬ (t.ctx.cborContext.majorType = 3 ∧ (Cbor.head f).isSome = true))
      (entered t b) := by
    simp only [memoContent, Fw.onCbor, wp_bind, wp_updateHash, wp_zoom, Fw.wp_getCtx,
      Fw.wp_throwIf, not_not]
    refine wp_mono (hr.content hne hlc fun c hc => ?_) (fun _ _ h => h) (fun _ _ h h' => h h'.1)
    obtain ⟨hiff, hitem⟩ := hc.complete_iff
    refine ⟨fun hz h' => hz (hiff.mpr h'.2), fun hz => ?_⟩
    refine wp_mono (hm.finish_ok _) ?_ (fun _ _ h => h.elim)
    rintro _ t' ⟨hph, hcb⟩
    rw [hcb]
    exact ⟨hitem hz, hph⟩
  have heq := hm.content (entered t b) b ht.phase hb.p1
  unfold wp at hrun ⊢
  rwa [heq]

/-- The memo as the host is told to send it: up to 255 bytes in the first command, and the last of
256 bytes in a second one. -/
inductive Documented (ins p1Memo : UInt8) (memo : List UInt8) : List Apdu → Prop where
  | one {a : Apdu} (ha : MemoCommand ins p1Memo a) (hle : memo.length ≤ 255)
      (hdata : a.data = memo) : Documented ins p1Memo memo [a]
  | two {a b : Apdu} (ha : MemoCommand ins p1Memo a) (hb : MemoCommand ins p1Memo b)
      (hlen : memo.length = 256) (hfirst : a.data = memo.take 255)
      (hlast : b.data = memo.drop 255) : Documented ins p1Memo memo [a, b]

theorem exec_one {app : App (WithDataBlob γ)} {t t' : Device (WithDataBlob γ)} {ev : Event} :
    exec (lockStep app) t [ev] = some t' ↔ lockStep app t ev = some t' := by
  simp [exec]

/-- The first 255 bytes of a memo of 256 bytes do not complete it. -/
theorem ItemRead.incomplete {apdu : Apdu} {s : UInt8} {n : UInt64} {c c' : CborContext}
    (h : ItemRead apdu.cdata apdu.lc s n c c') (hl : c.cborLength.toNat = 256)
    (hlc : apdu.lc.toNat = 255) : c'.cborLength ≠ 0 := by
  have hsize := h.size.size_le
  have hleft := left_toNat c.cborLength s
  have hcontent := contentOf_toNat apdu.lc s
  rcases h.content with ⟨-, hz, -⟩ | ⟨-, -, hc, -⟩
  · rw [hz, UInt32.toNat_zero] at hleft
    omega
  · intro hz
    have hnat := congrArg UInt32.toNat (hc.symm.trans hz)
    rw [UInt32.toNat_sub, UInt8.toNat_toUInt32, UInt32.toNat_zero] at hnat
    omega

/-- A memo whose phase is left has been displayed as one item. -/
theorem done_displayed (hm : MemoPhases loc phase p1Memo finish more)
    (ht : Awaiting ins phase .start t) {memo : List UInt8}
    (hl : t.ctx.cborContext.cborLength.toNat = memo.length) {cs : List Apdu}
    (hcs : Documented ins p1Memo memo cs) {t' : Device (WithDataBlob γ)}
    (hex : exec (lockStep loc) t (cs.map .command) = some t')
    (hdone : phase t'.ctx.inner = some .done) :
    ItemDisplayed t.ctx.cborContext.display memo t'.ctx.cborContext := by
  cases hcs with
  | @one a ha hle hdata =>
    have hlc : a.lc.toNat = memo.length := by rw [← hdata, Apdu.data, Ptr.slice_length]
    have hok := (lockStep_command (exec_one.mp hex)).2.2.2
    obtain ⟨⟨s, n, hread⟩, -, hmore⟩ := of_wp_ok (start_outcome hm ht ha) hok
    have hr := reading_first hread hl (by omega) (by omega)
    rw [hlc, Nat.sub_self] at hr
    have hz : t'.ctx.cborContext.cborLength = 0 := by
      by_contra hne
      have := (hmore hne).phase
      rw [hdone] at this
      cases this
    have hitem := hr.complete_iff.2 hz
    rwa [List.append_nil, hdata] at hitem
  | @two a b ha hb hlen hfirst hlast =>
    have hlca : a.lc.toNat = 255 := by
      have := congrArg List.length hfirst
      rw [Apdu.data, Ptr.slice_length, List.length_take] at this
      omega
    have hlcb : b.lc.toNat = 1 := by
      have := congrArg List.length hlast
      rw [Apdu.data, Ptr.slice_length, List.length_drop] at this
      omega
    simp only [List.map_cons, List.map_nil, exec, Option.bind_eq_some_iff] at hex
    obtain ⟨t₁, h₁, t₂, h₂, he⟩ := hex
    cases he
    have hok₁ := (lockStep_command h₁).2.2.2
    obtain ⟨⟨s, n, hread⟩, -, hmore⟩ := of_wp_ok (start_outcome hm ht ha) hok₁
    have ht₁ := hmore (hread.incomplete (hl.trans hlen) hlca)
    have hr := reading_first hread hl (by omega) (by omega)
    have hok₂ := (lockStep_command h₂).2.2.2
    obtain ⟨hitem, -⟩ := of_wp_ok (more_outcome hm ht₁ hb hr (by omega) (by omega)) hok₂
    rwa [hfirst, hlast, List.take_append_drop] at hitem

/-- What an item says about the command that begins with it. -/
theorem readable_of_item {memo after : List UInt8} {c : CborContext}
    (hitem : memo = a.data ++ after) {h : Cbor.Head} {rest : List UInt8}
    (hhead : Cbor.head memo = some (h, rest)) (hcl : h.Closes rest)
    (hl : c.cborLength.toNat = memo.length) (hle : memo.length ≤ 256)
    (hlc : 9 ≤ a.lc.toNat ∨ after = []) :
    Readable a.cdata c ∧ a.cdata 0 >>> 5 = h.major ∧ (Cbor.head a.data).isSome = true := by
  obtain ⟨s, n, hok, rfl, hlen⟩ := head_arrives hitem hhead hlc
  have hleft := left_toNat c.cborLength s
  have hs := (cborSize_ok hok).size_le
  have hdata : a.data.length = a.lc.toNat := Ptr.slice_length _ _
  refine ⟨⟨s, n, hok, hcl.imp ?_ ?_⟩, rfl, ?_⟩
  · rintro ⟨hm, rfl⟩
    refine ⟨hm, UInt32.toNat_inj.mp ?_⟩
    rw [List.length_nil] at hlen
    rw [hleft, UInt32.toNat_zero]
    omega
  · rintro ⟨hm, hrest⟩
    refine ⟨hm, UInt64.toNat_inj.mp ?_⟩
    have hrest' : rest.length = n.toNat := hrest
    rw [UInt32.toNat_toUInt64, hleft]
    omega
  · have hge : 1 + s.toNat ≤ a.lc.toNat := by
      rcases hlc with hlc | rfl
      · omega
      · rw [List.append_nil] at hitem
        rw [hitem, hdata] at hlen
        omega
    obtain ⟨m, hm⟩ := Nat.exists_eq_add_of_le hge
    rw [Apdu.data, hm, head_of_cborSize m (cborSize_ok hok)]
    rfl

/-- An item that is sent as documented is accepted. -/
theorem item_accepted (hm : MemoPhases loc phase p1Memo finish more)
    (ht : Awaiting ins phase .start t) {memo : List UInt8}
    (hl : t.ctx.cborContext.cborLength.toNat = memo.length) {cs : List Apdu}
    (hcs : Documented ins p1Memo memo cs) (hitem : Cbor.IsItem memo) :
    ∃ t', exec (lockStep loc) t (cs.map .command) = some t' ∧
      phase t'.ctx.inner = some .done := by
  obtain ⟨h, rest, hhead, hcl⟩ := hitem
  have hstep {t : Device (WithDataBlob γ)} {ph : Phase} {a : Apdu} (ht : Awaiting ins phase ph t)
      (ha : MemoCommand ins p1Memo a) {t' : Device (WithDataBlob γ)}
      (hok : loc.handler a false (entered t a) = .ok ⟨⟩ t') :
      lockStep loc t (.command a) = some t' :=
    (lockStep_command_iff (ha.ins ▸ ht.instruction) ht.running ht.replied ha.cla).mpr hok
  cases hcs with
  | @one a ha hle hdata =>
    have hlc : a.lc.toNat = memo.length := by rw [← hdata, Apdu.data, Ptr.slice_length]
    have hall : memo = a.data ++ [] := by rw [hdata, List.append_nil]
    obtain ⟨hread, -, hsome⟩ := readable_of_item hall hhead hcl hl (by omega) (.inr rfl)
    obtain ⟨_, t', hok, ⟨s, n, hr⟩, hdone, -⟩ :=
      exists_ok_of_wp (start_outcome hm ht ha) (fun _ _ h => h hread)
    refine ⟨t', exec_one.mpr (hstep ht ha hok), hdone ?_⟩
    have hr := reading_first hr hl (by omega) (by omega)
    rw [hlc, Nat.sub_self] at hr
    exact hr.complete_iff.1.mpr hsome
  | @two a b ha hb hlen hfirst hlast =>
    have hlca : a.lc.toNat = 255 := by
      have := congrArg List.length hfirst
      rw [Apdu.data, Ptr.slice_length, List.length_take] at this
      omega
    have hlcb : b.lc.toNat = 1 := by
      have := congrArg List.length hlast
      rw [Apdu.data, Ptr.slice_length, List.length_drop] at this
      omega
    have hall : memo = a.data ++ b.data := by rw [hfirst, hlast, List.take_append_drop]
    obtain ⟨hread, hmajor, hsome⟩ := readable_of_item hall hhead hcl hl (by omega) (.inl (by omega))
    obtain ⟨_, t₁, hok₁, ⟨s, n, hr⟩, -, hmore⟩ :=
      exists_ok_of_wp (start_outcome hm ht ha) (fun _ _ h => h hread)
    have ht₁ := hmore (hr.incomplete (hl.trans hlen) hlca)
    have h3 : t₁.ctx.cborContext.majorType = 3 := by
      rcases hr.content with ⟨hm01, hz, -⟩ | ⟨h3, -⟩
      · -- An integer does not take up 256 bytes.
        have hleft := left_toNat t.ctx.cborContext.cborLength s
        have hs := hr.size.size_le
        rw [hz, UInt32.toNat_zero] at hleft
        omega
      · exact h3
    obtain ⟨_, t₂, hok₂, -, hdone⟩ := exists_ok_of_wp
      (more_outcome hm ht₁ hb (reading_first hr hl (by omega) (by omega)) (by omega) (by omega))
      (fun _ _ h => h ⟨h3, hsome⟩)
    refine ⟨t₂, ?_, hdone⟩
    simp only [List.map_cons, List.map_nil, exec, Option.bind_eq_some_iff]
    exact ⟨t₁, hstep ht ha hok₁, t₂, hstep ht₁ hb hok₂, rfl⟩

end Local

/-- The initial command of a session has left the display of the CBOR context as it was. -/
structure Began {γ : Type} (ins : UInt8) (phase : γ → Option Phase)
    (t₀ t : Device (WithDataBlob γ)) : Prop where
  awaiting : Awaiting ins phase .start t
  display : t.ctx.cborContext.display = t₀.ctx.cborContext.display

end Memo

/-! ## The three instructions -/

namespace SignTransfer

variable {sdk : Sdk}

theorem memo_phases : Memo.MemoPhases (memoApp sdk) phase p1Memo finishMemo
    (do setState .memo; sendSuccessNoIdle) where
  initial := by
    intro t apdu hph hp
    have hst := phase_eq_start.mp hph
    show (ite (apdu.p1 = p1InitialWithMemo ∧ t.ctx.inner.state = .initial) _
      (ite (apdu.p1 = p1Memo ∧ t.ctx.inner.state = .memoInitial) _ _) : Fw Blob PUnit) t = _
    rw [if_neg (by rw [hst]; simp), if_pos ⟨hp, hst⟩]
  content := by
    intro t apdu hph hp
    have hst := phase_eq_more.mp hph
    show (ite (apdu.p1 = p1InitialWithMemo ∧ t.ctx.inner.state = .initial) _
      (ite (apdu.p1 = p1Memo ∧ t.ctx.inner.state = .memoInitial) _
        (ite (apdu.p1 = p1Memo ∧ t.ctx.inner.state = .memo) _ _)) : Fw Blob PUnit) t = _
    rw [if_neg (by rw [hst]; simp), if_neg (by rw [hst]; simp), if_pos ⟨hp, hst⟩]
  finish_ok := by
    intro t
    simp [finishMemo, setState, phase]
  more_ok := by
    intro t
    simp [setState, phase]

theorem memo_began {t₀ t : Device Blob} {first : Apdu} (hr : t₀.shared.running = true)
    (h : (memoApp sdk).handler first true (opened t₀ first) = .ok ⟨⟩ t) :
    Memo.Began first.ins phase t₀ t := by
  have hw : wp ((memoApp sdk).handler first true) (fun _ t => Memo.Began first.ins phase t₀ t)
      (fun _ _ => True) (opened t₀ first) := by
    simp only [memoApp, handleSignTransferWithMemo, setState, header, wp_bind, Fw.wp_when,
      Fw.wp_getCtx, Fw.wp_modifyCtx, Fw.wp_throw, wp_ite, and_true, true_implies,
      not_true_eq_false, false_implies, reduceCtorEq, and_false, implies_true]
    intro hp1
    refine wp_headerAndToAddress fun s' recipient hs => ?_
    simp only [memoLength, Fw.onCbor, Fw.wp_modifyCtx, wp_pure, wp_bind, wp_zoom, Fw.wp_throwIf,
      wp_updateHash, wp_sendSuccessNoIdle, implies_true, true_and]
    intro _
    exact ⟨⟨rfl, hs.instruction, hs.running.trans hr, rfl⟩, rfl⟩
  exact ok_of_wp hw h

end SignTransfer

namespace SignEncryptedAmountTransfer

variable {sdk : Sdk}

theorem memo_phases : Memo.MemoPhases (memoApp sdk) phase p1Memo finishMemoEncrypted
    (do setState .memo; sendSuccessNoIdle) where
  initial := by
    intro t apdu hph hp
    have hst := phase_eq_start.mp hph
    show (ite (apdu.p1 = p1InitialWithMemo ∧ t.ctx.inner.state = .initial) _
      (ite (apdu.p1 = p1Memo ∧ t.ctx.inner.state = .memoStart) _ _) : Fw Blob PUnit) t = _
    rw [if_neg (by rw [hst]; simp), if_pos ⟨hp, hst⟩]
  content := by
    intro t apdu hph hp
    have hst := phase_eq_more.mp hph
    show (ite (apdu.p1 = p1InitialWithMemo ∧ t.ctx.inner.state = .initial) _
      (ite (apdu.p1 = p1Memo ∧ t.ctx.inner.state = .memoStart) _
        (ite (apdu.p1 = p1Memo ∧ t.ctx.inner.state = .memo) _ _)) : Fw Blob PUnit) t = _
    rw [if_neg (by rw [hst]; simp), if_neg (by rw [hst]; simp), if_pos ⟨hp, hst⟩]
  finish_ok := by
    intro t
    simp [finishMemoEncrypted, setState, phase]
  more_ok := by
    intro t
    simp [setState, phase]

theorem memo_began {t₀ t : Device Blob} {first : Apdu} (hr : t₀.shared.running = true)
    (h : (memoApp sdk).handler first true (opened t₀ first) = .ok ⟨⟩ t) :
    Memo.Began first.ins phase t₀ t := by
  have hw : wp ((memoApp sdk).handler first true) (fun _ t => Memo.Began first.ins phase t₀ t)
      (fun _ _ => True) (opened t₀ first) := by
    simp only [memoApp, handleSignEncryptedAmountTransferWithMemo, setState, header, wp_bind,
      Fw.wp_when, Fw.wp_getCtx, Fw.wp_modifyCtx, Fw.wp_throw, wp_ite, and_true, true_implies,
      not_true_eq_false, false_implies, reduceCtorEq, and_false, implies_true]
    intro hp1
    refine wp_headerAndToAddress fun s' recipient hs => ?_
    simp only [memoLength, Fw.onCbor, Fw.wp_modifyCtx, wp_pure, wp_bind, wp_zoom, Fw.wp_throwIf,
      wp_updateHash, wp_sendSuccessNoIdle, implies_true, true_and]
    intro _
    exact ⟨⟨rfl, hs.instruction, hs.running.trans hr, rfl⟩, rfl⟩
  exact ok_of_wp hw h

end SignEncryptedAmountTransfer

namespace SignTransferWithSchedule

variable {sdk : Sdk}

theorem memo_phases : Memo.MemoPhases (memoApp sdk) memoPhase p1Memo finishMemoScheduled
    (do setState .memo; sendSuccessNoIdle) where
  initial := by
    intro t apdu hph hp
    have hst := memoPhase_eq_start.mp hph
    show (ite (apdu.p1 = p1InitialWithMemo ∧ t.ctx.inner.state = .initial) _
      (ite (apdu.p1 = p1Memo ∧ t.ctx.inner.state = .memoStart) _ _) : Fw Blob PUnit) t = _
    rw [if_neg (by rw [hst]; simp), if_pos ⟨hp, hst⟩]
  content := by
    intro t apdu hph hp
    have hst := memoPhase_eq_more.mp hph
    show (ite (apdu.p1 = p1InitialWithMemo ∧ t.ctx.inner.state = .initial) _
      (ite (apdu.p1 = p1Memo ∧ t.ctx.inner.state = .memoStart) _
        (ite (apdu.p1 = p1Memo ∧ t.ctx.inner.state = .memo) _ _)) : Fw Blob PUnit) t = _
    rw [if_neg (by rw [hst]; simp), if_neg (by rw [hst]; simp), if_pos ⟨hp, hst⟩]
  finish_ok := by
    intro t
    simp [finishMemoScheduled, startInitialScheduledTransferDisplay, setState, memoPhase]
  more_ok := by
    intro t
    simp [setState, memoPhase]

theorem memo_began {t₀ t : Device Blob} {first : Apdu} (hr : t₀.shared.running = true)
    (h : (memoApp sdk).handler first true (opened t₀ first) = .ok ⟨⟩ t) :
    Memo.Began first.ins memoPhase t₀ t := by
  have hw : wp ((memoApp sdk).handler first true)
      (fun _ t => Memo.Began first.ins memoPhase t₀ t) (fun _ _ => True) (opened t₀ first) := by
    simp only [memoApp, handleSignTransferWithScheduleAndMemo, setState, header, wp_bind,
      Fw.wp_when, Fw.wp_getCtx, Fw.wp_modifyCtx, Fw.wp_throw, wp_ite, and_true, true_implies,
      not_true_eq_false, false_implies, reduceCtorEq, and_false, implies_true]
    intro hp1
    refine wp_headerAndToAddress fun s' recipient hs => ?_
    simp only [memoLength, Fw.onCbor, Fw.wp_modifyCtx, wp_pure, wp_bind, wp_zoom, Fw.wp_throwIf,
      wp_updateHash, wp_sendSuccessNoIdle, implies_true, true_and]
    intro _
    exact ⟨⟨rfl, hs.instruction, hs.running.trans hr, rfl⟩, rfl⟩
  exact ok_of_wp hw h

end SignTransferWithSchedule

namespace Memo

/-! ## The display of a memo -/

section Text

theorem zero_not_mem_rendered {h : Cbor.Head} {rest : List UInt8} (ht : Terminated h) :
    0 ∉ rendered h rest := by
  have hminus : (0 : UInt8) ∉ ascii "-" := by decide
  rcases ht with h0 | ⟨h1, hne⟩
  · rw [rendered, if_pos h0]
    exact zero_not_mem_decimal _
  · rw [rendered, h1, if_neg (by decide), if_pos rfl, negativeText, if_neg hne, List.mem_append]
    rintro (hz | hz)
    · exact hminus hz
    · exact zero_not_mem_decimal _ hz

/-- The string of an item on a display that held `b` before. -/
theorem cString_written {b : Buffer 255} {h : Cbor.Head} {rest : List UInt8}
    (hlen : (written h rest).length ≤ 255) :
    cString (b.memmove 0 (written h rest)).bytes = some (rendered h rest) ↔
      Terminated h ∨ 0 ∉ rendered h rest ∧ b.bytes[(rendered h rest).length]? = some 0 := by
  by_cases ht : Terminated h
  · have hw : written h rest = rendered h rest ++ [0] := by rw [written, if_pos ht]
    rw [hw, List.length_append, List.length_singleton] at hlen
    rw [hw]
    exact ⟨fun _ => .inl ht, fun _ => cString_memmove b _ (zero_not_mem_rendered ht) (by omega)⟩
  · have hw : written h rest = rendered h rest := by
      rw [written, if_neg ht, List.append_nil]
    rw [hw] at hlen ⊢
    rw [Buffer.memmove_bytes _ _ hlen, ← List.head?_drop]
    constructor
    · intro hs
      have hz := zero_not_mem_of_cString hs
      exact .inr ⟨hz, (cString_append_iff hz).mp hs⟩
    · rintro (h | ⟨hz, hs⟩)
      · exact absurd h ht
      · exact (cString_append_iff hz).mpr hs

end Text

namespace Instruction

variable {μ : Type}

/-- `cborContext.display` -/
def display (u : InstructionContext μ) (d : Device μ) : Instruction → Buffer 255
  | transfer => (u.signTransferContext.get d.ctx).cborContext.display
  | encryptedTransfer => (u.signEncryptedAmountToTransfer.get d.ctx).cborContext.display
  | scheduledTransfer => (u.signTransferWithScheduleContext.get d.ctx).cborContext.display

end Instruction

section Session

variable {μ : Type}

/-- The memo commands are accepted and the memo phase is left. -/
def Accepted (sdk : Sdk) (u : InstructionContext μ) (k : Instruction) (d₁ : Device μ)
    (cs : List Apdu) (d : Device μ) : Prop :=
  exec (lockStep (mainApp sdk u)) d₁ (cs.map .command) = some d ∧ k.phase u d = some .done

/-- A memo is accepted iff it is one item, and then its text is the string on the display. -/
structure DisplayedExactly (sdk : Sdk) (u : InstructionContext μ) (k : Instruction)
    (d₁ : Device μ) (memo : List UInt8) (cs : List Apdu) : Prop where
  accepted : (∃ d, Accepted sdk u k d₁ cs d) ↔ Cbor.IsItem memo
  displayed : ∀ d, Accepted sdk u k d₁ cs d → ∀ h rest, Cbor.head memo = some (h, rest) →
    cString (k.display u d).bytes = some (rendered h rest)

/-- The text of the memo is terminated: it is an integer other than `-2^64`, or it has no NUL in it
and the display had one where it ends. -/
def EndsWell (b : Buffer 255) (memo : List UInt8) : Prop :=
  ∀ h rest, Cbor.head memo = some (h, rest) → h.Closes rest →
    Terminated h ∨ 0 ∉ rendered h rest ∧ b.bytes[(rendered h rest).length]? = some 0

variable {sdk : Sdk} {u : InstructionContext μ} {d₀ d₁ : Device μ} {first : Apdu}
  {memo : List UInt8} {cs : List Apdu}

/-- What the sessions of the three instructions have in common. -/
theorem displayedExactly_iff_of_phases {k : Instruction} {γ : Type} {m : Member μ (WithDataBlob γ)}
    {loc : App (WithDataBlob γ)} {ph : γ → Option Phase} {own : Callback → Prop} {p1Memo : UInt8}
    {finish more : Fw (WithDataBlob γ) PUnit}
    (he : Embeds (mainApp sdk u) m loc k.ins own) (hm : MemoPhases loc ph p1Memo finish more)
    (hph : ∀ d, k.phase u d = ph (d.view m).ctx.inner)
    (hdisp : ∀ d, k.display u d = (d.view m).ctx.cborContext.display)
    (hbegan : Began k.ins ph (d₀.view m) (d₁.view m))
    (hl : (d₁.view m).ctx.cborContext.cborLength.toNat = memo.length)
    (hcs : Documented k.ins p1Memo memo cs) :
    DisplayedExactly sdk u k d₁ memo cs ↔ EndsWell (k.display u d₀) memo := by
  have hall : ∀ c ∈ cs, c.ins = k.ins ∧ c.cla = 0xE0 := by
    cases hcs with
    | one ha => simpa using ⟨ha.ins, ha.cla⟩
    | two ha hb => simpa using ⟨⟨ha.ins, ha.cla⟩, hb.ins, hb.cla⟩
  have hview := he.exec_view d₁ hall
  have hitem : ∀ d, Accepted sdk u k d₁ cs d →
      ItemDisplayed (k.display u d₀) memo (d.view m).ctx.cborContext := by
    rintro d ⟨hex, hdone⟩
    rw [hex, Option.map_some] at hview
    rw [hdisp d₀, ← hbegan.display]
    exact done_displayed hm hbegan.awaiting hl hcs hview.symm ((hph d).symm.trans hdone)
  have haccepted : (∃ d, Accepted sdk u k d₁ cs d) ↔ Cbor.IsItem memo := by
    constructor
    · rintro ⟨d, hacc⟩
      obtain ⟨h, rest, hhead, hcl, -⟩ := (hitem d hacc).item
      exact ⟨h, rest, hhead, hcl⟩
    · intro h
      obtain ⟨t, hex, hdone⟩ := item_accepted hm hbegan.awaiting hl hcs h
      rw [hex] at hview
      obtain ⟨d, hd, rfl⟩ := Option.map_eq_some_iff.mp hview
      exact ⟨d, hd, (hph d).trans hdone⟩
  constructor
  · intro h hd rest hhead hcl
    obtain ⟨d, hacc⟩ := haccepted.mpr ⟨hd, rest, hhead, hcl⟩
    obtain ⟨hd', rest', hhead', -, hlen, hdis⟩ := (hitem d hacc).item
    rw [hhead] at hhead'
    cases hhead'
    have hshown := h.displayed d hacc _ _ hhead
    rw [hdisp d, hdis] at hshown
    exact (cString_written hlen).mp hshown
  · refine fun h => ⟨haccepted, fun d hacc hd rest hhead => ?_⟩
    obtain ⟨hd', rest', hhead', hcl, hlen, hdis⟩ := (hitem d hacc).item
    rw [hhead] at hhead'
    cases hhead'
    rw [hdisp d, hdis]
    exact (cString_written hlen).mpr (h _ _ hhead hcl)

/-- A memo that is sent as documented is accepted iff it is one item, and its text is the string on
the display, whatever the context held before, iff the text is terminated. -/
theorem displayed_exactly_iff (k : Instruction) (hb : begins (mainApp sdk u) k.ins d₀ first d₁)
    (hlen : (k.declared first).length = memo.length)
    (hcs : Documented k.ins (k.declared first).p1Memo memo cs) :
    DisplayedExactly sdk u k d₁ memo cs ↔ EndsWell (k.display u d₀) memo := by
  have hins : first.ins = k.ins := hb.2.1
  obtain ⟨hidle, -, hh⟩ := begins_handler hb
  have hstart {γ : Type} {m : Declared} {i : UInt8} {ph : γ → Option Phase} {own : Callback → Prop}
      {t : Device (WithDataBlob γ)} (h : Inv m i ph own t) (hs : ph t.ctx.inner = some .start) :
      t.ctx.cborContext.cborLength.toNat = m.length := by
    obtain ⟨p, hp, hfr⟩ := h.framing
    rw [hs] at hp
    cases hp
    exact hfr.2.2
  cases k with
  | transfer =>
    have hok : (SignTransfer.memoApp sdk).handler first true
        (opened (d₀.view u.signTransferContext) first) = .ok ⟨⟩ _ :=
      (SignTransfer.memo_embeds sdk u).handler_ok hins hh
    have hbegan := SignTransfer.memo_began hidle.running hok
    have hl := hstart (SignTransfer.initial_inv hok) hbegan.awaiting.phase
    exact displayedExactly_iff_of_phases (SignTransfer.memo_embeds sdk u)
      SignTransfer.memo_phases (fun _ => rfl) (fun _ => rfl) (hins ▸ hbegan) (hl.trans hlen) hcs
  | encryptedTransfer =>
    have hok : (SignEncryptedAmountTransfer.memoApp sdk).handler first true
        (opened (d₀.view u.signEncryptedAmountToTransfer) first) = .ok ⟨⟩ _ :=
      (SignEncryptedAmountTransfer.memo_embeds sdk u).handler_ok hins hh
    have hbegan := SignEncryptedAmountTransfer.memo_began hidle.running hok
    have hl := hstart (SignEncryptedAmountTransfer.initial_inv hok) hbegan.awaiting.phase
    exact displayedExactly_iff_of_phases (SignEncryptedAmountTransfer.memo_embeds sdk u)
      SignEncryptedAmountTransfer.memo_phases (fun _ => rfl) (fun _ => rfl) (hins ▸ hbegan)
      (hl.trans hlen) hcs
  | scheduledTransfer =>
    have hok : (SignTransferWithSchedule.memoApp sdk).handler first true
        (opened (d₀.view u.signTransferWithScheduleContext) first) = .ok ⟨⟩ _ :=
      (SignTransferWithSchedule.memo_embeds sdk u).handler_ok hins hh
    have hbegan := SignTransferWithSchedule.memo_began hidle.running hok
    have hl := hstart (SignTransferWithSchedule.memo_initial_inv hok).memo hbegan.awaiting.phase
    exact displayedExactly_iff_of_phases (SignTransferWithSchedule.memo_embeds sdk u)
      SignTransferWithSchedule.memo_phases (fun _ => rfl) (fun _ => rfl) (hins ▸ hbegan)
      (hl.trans hlen) hcs

end Session

/-! ## A session after another one -/

/-- The first command of a transfer to the address of 32 zeroes, with a memo of `length` bytes. -/
def transferCommand (length : UInt8) : Apdu :=
  sent insSignTransferWithMemo SignTransfer.p1InitialWithMemo 0
    ([0] ++ List.replicate 60 0 ++ [SignTransfer.transferWithMemo] ++ List.replicate 32 0 ++
      [0, length])

def transferMemo (memo : List UInt8) : Apdu :=
  sent insSignTransferWithMemo SignTransfer.p1Memo 0 memo

/-- A session with the memo `ab`, which ends with a command of an instruction that does not exist. -/
def abandoned : List Event :=
  [ .command (transferCommand 3), .command (transferMemo ([0x62] ++ ascii "ab")),
    .command (sent 0xFF 0 0 []) ]

/-- The device after the given events, after the first command and after the memo. -/
def afterMemo (es : List Event) (memo : List UInt8) :
    Option (Device Contexts × Device Contexts × Device Contexts) := do
  let app := mainApp zeroAddressSdk Contexts.layout
  let d₀ ← exec (guarded (step app) fun _ _ => True) bootedDevice es
  let d₁ ← accepted (dispatch app (transferCommand (.ofNat memo.length)) (receivedCommand d₀))
  let d ← exec (lockStep app) d₁ [.command (transferMemo memo)]
  return (d₀, d₁, d)

theorem afterMemo_run {es : List Event} {memo : List UInt8} {d₀ d₁ d : Device Contexts}
    (h : afterMemo es memo = some (d₀, d₁, d)) :
    Run (step (mainApp zeroAddressSdk Contexts.layout)) (fun _ _ => True) bootedDevice d₀ ∧
      accepted (dispatch (mainApp zeroAddressSdk Contexts.layout)
        (transferCommand (.ofNat memo.length)) (receivedCommand d₀)) = some d₁ ∧
      exec (lockStep (mainApp zeroAddressSdk Contexts.layout)) d₁ [.command (transferMemo memo)] =
        some d := by
  simp only [afterMemo, Option.bind_eq_bind, Option.bind_eq_some_iff] at h
  obtain ⟨d₀', h₀, d₁', h₁, d', hd, he⟩ := h
  cases he
  exact ⟨exec_run h₀, h₁, hd⟩

theorem transferMemo_documented {memo : List UInt8} (h : memo.length ≤ 255)
    (hd : (transferMemo memo).data = memo) :
    Documented Instruction.transfer.ins SignTransfer.p1Memo memo [transferMemo memo] :=
  .one ⟨rfl, rfl, rfl⟩ h hd

theorem displayed_exactly_ab :
    ∃ d₀ d₁ : Device Contexts,
      begins (mainApp zeroAddressSdk Contexts.layout) insSignTransferWithMemo d₀
        (transferCommand 3) d₁ ∧
      DisplayedExactly zeroAddressSdk Contexts.layout .transfer d₁ ([0x62] ++ ascii "ab")
        [transferMemo ([0x62] ++ ascii "ab")] := by
  have hex : (afterMemo [] ([0x62] ++ ascii "ab")).any (fun p =>
      p.1.shared.running && p.1.shared.currentInstruction.isNone && !p.1.shared.replyOwed &&
        (Instruction.transfer.display Contexts.layout p.1).bytes[2]? == some 0) = true := by
    delta afterMemo mainApp mainHandler
    simp only [handleSignTransferWithMemo, SignTransfer.header, handleHeaderAndToAddress,
      hashAccountTransactionHeaderAndKind, addressText_zeroAddressSdk]
    decide
  obtain ⟨⟨d₀, d₁, d⟩, hp, hc⟩ := (Option.any_eq_true _ _).mp hex
  obtain ⟨-, h₁, -⟩ := afterMemo_run hp
  simp only [Bool.and_eq_true, Option.isNone_iff_eq_none, Bool.not_eq_true', beq_iff_eq] at hc
  have hb : begins (mainApp zeroAddressSdk Contexts.layout) insSignTransferWithMemo d₀
      (transferCommand 3) d₁ := ⟨⟨hc.1.1.1, hc.1.1.2, hc.1.2⟩, rfl, h₁⟩
  refine ⟨d₀, d₁, hb, (displayed_exactly_iff .transfer hb (by decide)
    (transferMemo_documented (by decide) (by decide))).mpr ?_⟩
  intro h rest hhead _
  have hhead' : Cbor.head ([0x62] ++ ascii "ab") = some (⟨3, 2⟩, ascii "ab") := by decide
  rw [hhead'] at hhead
  cases hhead
  exact .inr ⟨by decide, hc.2⟩

/-- The memo `c` of the next session is displayed as `cb`. -/
theorem displayed_after_abandoned :
    ∃ d₀ d₁ : Device Contexts,
      Run (step (mainApp zeroAddressSdk Contexts.layout)) (fun _ _ => True) bootedDevice d₀ ∧
      begins (mainApp zeroAddressSdk Contexts.layout) insSignTransferWithMemo d₀
        (transferCommand 2) d₁ ∧
      Documented Instruction.transfer.ins SignTransfer.p1Memo ([0x61] ++ ascii "c")
        [transferMemo ([0x61] ++ ascii "c")] ∧
      ¬ DisplayedExactly zeroAddressSdk Contexts.layout .transfer d₁ ([0x61] ++ ascii "c")
        [transferMemo ([0x61] ++ ascii "c")] := by
  have hex : (afterMemo abandoned ([0x61] ++ ascii "c")).any (fun p =>
      p.1.shared.running && p.1.shared.currentInstruction.isNone && !p.1.shared.replyOwed &&
        Instruction.transfer.phase Contexts.layout p.2.2 == some .done &&
        cString (Instruction.transfer.display Contexts.layout p.2.2).bytes == some (ascii "cb"))
        = true := by
    delta afterMemo mainApp mainHandler
    simp only [handleSignTransferWithMemo, SignTransfer.header, handleHeaderAndToAddress,
      hashAccountTransactionHeaderAndKind, addressText_zeroAddressSdk]
    decide
  obtain ⟨⟨d₀, d₁, d⟩, hp, hc⟩ := (Option.any_eq_true _ _).mp hex
  obtain ⟨hrun, h₁, hd⟩ := afterMemo_run hp
  simp only [Bool.and_eq_true, Option.isNone_iff_eq_none, Bool.not_eq_true', beq_iff_eq] at hc
  obtain ⟨⟨⟨⟨hr, hi⟩, ho⟩, hdone⟩, hshown⟩ := hc
  refine ⟨d₀, d₁, hrun, ⟨⟨hr, hi, ho⟩, rfl, h₁⟩,
    transferMemo_documented (by decide) (by decide), fun h => ?_⟩
  have hhead : Cbor.head ([0x61] ++ ascii "c") = some (⟨3, 1⟩, ascii "c") := by decide
  have hc := h.displayed d ⟨hd, hdone⟩ _ _ hhead
  rw [hshown] at hc
  revert hc
  decide

end Memo
end ConcordiumLedger
