import ConcordiumLedger.Common.AmountDisplay
import ConcordiumLedger.Common.Commands
import ConcordiumLedger.Common.ZeroAddress
import ConcordiumLedger.Main.App
import ConcordiumLedger.Main.BakerFields
import Mathlib.Tactic.IntervalCases

/-!
# Main.ConfigureDelegation

Which commands the configuration of a delegation accepts. The handler looks at the three lowest bits
of the bitmap only, so a command whose bitmap has another bit as well is signed, though it says
more than what is shown.

* `Message` — a path, a header, the kind, a bitmap and the fields that its lowest bits announce.
* `Grammar` — a message whose bitmap has no other bit.
-/

namespace ConcordiumLedger

open CMem CProg CProg.Prog

/-! ## The sender -/

theorem addressText_ok (sdk : Sdk) (p : Ptr) (dst : Buffer 57) :
    ∃ text, addressText sdk (p.slice 32) dst = .ok text := by
  have hsize : ∀ n < 38, n * 138 / 100 + 1 + (n * 138 / 100 + 1) / 10 ≤ 57 := by decide
  obtain ⟨input, hinput⟩ : ∃ input, input = (1 : UInt8) :: p.slice 32 ++
    (sdk.sha256 (sdk.sha256 (1 :: p.slice 32))).take 4 := ⟨_, rfl⟩
  have hlen : input.length ≤ 37 := by
    rw [hinput, List.length_append, List.length_cons, Ptr.slice_length, List.length_take]
    omega
  have hzero : (input.takeWhile (· == 0)).length = 0 := by
    rw [hinput]
    rfl
  have henc : ∃ text, base58Encode input 57 = some text := by
    have hs := hsize input.length (by omega)
    unfold base58Encode
    rw [if_neg (by unfold maxEncInputSize; omega)]
    simp only [hzero, Nat.sub_zero]
    rw [if_neg (by omega), if_neg (by omega)]
    exact ⟨_, rfl⟩
  obtain ⟨text, htext⟩ := henc
  have hcheck : base58checkEncode sdk.sha256 (p.slice 32) 57 = .ok (some text) := by
    unfold base58checkEncode
    rw [if_neg (by simp [addressLength])]
    show Except.ok (base58Encode _ 57) = _
    rw [← htext, hinput]
  refine ⟨(dst.memmove 0 text).memmove 55 [0], ?_⟩
  unfold addressText
  rw [hcheck]
  rfl

namespace SignConfigureDelegation

/-! ## Messages -/

inductive Target where
  | passiveDelegation
  | baker (bakerId : UInt64)

/-- The fields of a configuration, each of which may be left out. -/
structure Fields where
  capital : Option UInt64
  restakeEarnings : Option Bool
  delegationTarget : Option Target

/-- What there is of a field that may be left out. -/
def optional {α β : Type} (enc : α → List β) : Option α → List β
  | none => []
  | some a => enc a

def capitalBytes (capital : UInt64) : List UInt8 := beBytes 8 capital.toNat

def restakeBytes (restake : Bool) : List UInt8 := [if restake then 1 else 0]

def Target.bytes : Target → List UInt8
  | passiveDelegation => [0]
  | baker bakerId => 1 :: beBytes 8 bakerId.toNat

def Fields.bytes (f : Fields) : List UInt8 :=
  optional capitalBytes f.capital ++ optional restakeBytes f.restakeEarnings ++
    optional Target.bytes f.delegationTarget

/-- What comes after the path. -/
def signedPart (header : List UInt8) (bitmap : UInt16) (f : Fields) : List UInt8 :=
  header ++ [configureDelegation] ++ beBytes 2 bitmap.toNat ++ f.bytes

/-- The three lowest bits of the bitmap announce the fields. -/
structure Announces (bitmap : UInt16) (f : Fields) : Prop where
  capital : f.capital.isSome = bitmap.toNat.testBit 0
  restakeEarnings : f.restakeEarnings.isSome = bitmap.toNat.testBit 1
  delegationTarget : f.delegationTarget.isSome = bitmap.toNat.testBit 2

/-- `data` is a path, a header, the kind, the bitmap and the fields that its lowest bits announce. -/
structure Message (path header : List UInt8) (bitmap : UInt16) (f : Fields) (data : List UInt8) :
    Prop where
  isPath : IsPath path
  header_length : header.length = 60
  announces : Announces bitmap f
  data_eq : data = path ++ signedPart header bitmap f

/-- A message with a field, whose bitmap has no other bit than those of the fields. -/
def Grammar (data : List UInt8) : Prop :=
  ∃ path header bitmap f, Message path header bitmap f data ∧ bitmap ≠ 0 ∧
    ∀ i, 3 ≤ i → bitmap.toNat.testBit i = false

/-- A message with a field, whose bitmap has another bit. -/
def HasExtraBit (data : List UInt8) : Prop :=
  ∃ path header bitmap f, Message path header bitmap f data ∧
    (∃ i < 3, bitmap.toNat.testBit i = true) ∧ ∃ i, 3 ≤ i ∧ bitmap.toNat.testBit i = true

/-! ## Screens -/

def capitalScreens (capital : UInt64) : List (String × List UInt8) :=
  if capital = 0 then [("Stop", ascii "delegation")]
  else [("Amount to delegate", ascii "CCD " ++ fixedPoint 6 capital.toNat)]

def restakeScreens (restake : Bool) : List (String × List UInt8) :=
  [("Restake earnings", ascii (if restake then "Yes" else "No"))]

def Target.text : Target → List UInt8
  | passiveDelegation => ascii "Passive Delegation"
  | baker bakerId => ascii "Baker ID " ++ decimal bakerId.toNat

def Target.screens (target : Target) : List (String × List UInt8) :=
  [("Delegation target", target.text)]

/-- The rendering of the fields, as titles and texts. -/
def Fields.screens (f : Fields) : List (String × List UInt8) :=
  optional capitalScreens f.capital ++ optional restakeScreens f.restakeEarnings ++
    optional Target.screens f.delegationTarget

/-- Between the sender and the Sign step, a flow shows the fields and nothing else. -/
def Shows (f : Fields) (flow : List Step) : Prop :=
  ∃ sender steps,
    flow = [uxSignFlowSharedReview, { title := "Sender", text := sender }] ++ steps ++
      [uxSignFlowSharedSign, uxSignFlowSharedDecline] ∧
    steps.map (fun st => (st.title, st.shown)) = f.screens.map fun p => (p.1, some p.2)

/-- The command leads to the Sign screen exactly when its data follow the grammar; the path apart,
they are what is hashed, and the fields are what is shown. -/
structure Follows (s s' : Shared) (data : List UInt8) : Prop where
  sign : offersSign (putUp s s') = true ↔ Grammar data
  shown : offersSign (putUp s s') = true → ∃ path header bitmap f,
    Message path header bitmap f data ∧ s'.hash = signedPart header bitmap f ∧ Shows f s'.display

/-! ## Reading the fields -/

/-- The context that shows the capital. -/
def Context.showCapital (c : Context) : Option UInt64 → Context
  | none => c
  | some capital =>
    if capital = 0 then { c with stopDelegation := true }
    else { c with
      stopDelegation := false
      displayCapital := c.displayCapital.memmove 0
        (ascii "CCD " ++ fixedPoint 6 capital.toNat ++ [0]) }

def Context.showRestake (c : Context) : Option Bool → Context
  | none => c
  | some restake => { c with
      displayRestake := c.displayRestake.memmove 0 (literal (if restake then "Yes" else "No")) }

def Context.showTarget (c : Context) : Option Target → Context
  | none => c
  | some target => { c with
      displayDelegationTarget := c.displayDelegationTarget.memmove 0 (target.text ++ [0]) }

/-- All that happens is that `bytes` are hashed and the context is set. -/
structure Took (bytes : List UInt8) (c : Context) (t t' : Device Context) : Prop where
  ctx : t'.ctx = c
  hash : t'.shared.hash = t.shared.hash ++ bytes
  flows : flows t'.shared.log = flows t.shared.log

/-- A field that is announced by `flag` is found at `p`, in a program that returns its length. -/
def ReadsField {α : Type} (enc : α → List UInt8) (flag : Bool) (p : Ptr)
    (display : Context → Option α → Context) (x : Fw Context Nat) (t : Device Context) : Prop :=
  wp x
    (fun n t' => ∃ v : Option α, v.isSome = flag ∧ p.Begins (optional enc v) ∧
      n = (optional enc v).length ∧ Took (optional enc v) (display t.ctx v) t t')
    (fun _ t' => flows t'.shared.log = flows t.shared.log ∧
      ∀ v : Option α, v.isSome = flag → ¬ p.Begins (optional enc v)) t


theorem readCapital_reads (p : Ptr) (t : Device Context) :
    ReadsField capitalBytes t.ctx.hasCapital p Context.showCapital (readCapital p) t := by
  unfold ReadsField
  simp only [readCapital, wp_bind, Fw.wp_getCtx, wp_ite, wp_pure, wp_updateHash, Fw.wp_modifyCtx,
    Fw.wp_eval]
  constructor
  · intro hc
    have hbegins : p.Begins (optional capitalBytes (some (p.u8be 0))) := by
      show p.slice (beBytes 8 _).length = _
      rw [beBytes_length, Ptr.slice_eight]
      rfl
    have htook {c : Context} (hctx : c = t.ctx.showCapital (some (p.u8be 0))) :
        ∃ v : Option UInt64, v.isSome = t.ctx.hasCapital ∧ p.Begins (optional capitalBytes v) ∧
          8 = (optional capitalBytes v).length ∧
          Took (optional capitalBytes v) (t.ctx.showCapital v) t
            ⟨c, t.shared.updateHash (p.slice 8)⟩ := by
      refine ⟨some (p.u8be 0), hc.symm, hbegins, (beBytes_length _ _).symm, hctx, ?_, by simp [flows]⟩
      show _ ++ p.slice 8 = _
      rw [Ptr.slice_eight]
      rfl
    constructor
    · intro hz
      exact htook (by rw [Context.showCapital, if_pos hz])
    · intro hz
      constructor
      · intro text htext
        have htext' := htext.symm.trans (amountToGtuDisplay_thirty (p.u8be 0))
        cases htext'
        exact htook (by rw [Context.showCapital, if_neg hz])
      · intro e he
        have he' := he.symm.trans (amountToGtuDisplay_thirty (p.u8be 0))
        cases he'
  · intro hc
    refine ⟨none, by simpa using hc, rfl, rfl, rfl, (List.append_nil _).symm, rfl⟩

theorem readRestake_reads (p : Ptr) (t : Device Context) :
    ReadsField restakeBytes t.ctx.hasRestakeEarnings p Context.showRestake (readRestake p) t := by
  unfold ReadsField
  simp only [readRestake, wp_bind, Fw.wp_getCtx, wp_ite, wp_pure, wp_updateHash, Fw.wp_throwIf,
    Fw.wp_modifyCtx]
  constructor
  · intro hc
    constructor
    · rintro ⟨h0, h1⟩
      refine ⟨by simp [flows], ?_⟩
      intro v hv hb
      rw [hc] at hv
      cases v with
      | none => cases hv
      | some b =>
        have hp := Ptr.begins_singleton.mp hb
        cases b with
        | false => exact h0 hp
        | true => exact h1 hp
    · intro h
      by_cases h0 : p 0 = 0
      · refine ⟨some false, hc.symm, Ptr.begins_singleton.mpr h0, rfl, ?_, ?_, by simp [flows]⟩
        · rw [if_pos h0]
          rfl
        · show _ ++ [p 0] = _
          rw [h0]
          rfl
      · have h1 : p 0 = 1 := by_contra fun h1 => h ⟨h0, h1⟩
        refine ⟨some true, hc.symm, Ptr.begins_singleton.mpr h1, rfl, ?_, ?_, by simp [flows]⟩
        · rw [if_neg h0]
          rfl
        · show _ ++ [p 0] = _
          rw [h1]
          rfl
  · intro hc
    refine ⟨none, by simpa using hc, rfl, rfl, rfl, (List.append_nil _).symm, rfl⟩

theorem readDelegationTarget_reads (p : Ptr) (t : Device Context) :
    ReadsField Target.bytes t.ctx.hasDelegationTarget p Context.showTarget
      (readDelegationTarget p) t := by
  unfold ReadsField
  simp only [readDelegationTarget, wp_bind, Fw.wp_getCtx, wp_ite, wp_pure, wp_updateHash,
    Fw.wp_modifyCtx, Fw.wp_eval, Fw.wp_throw]
  constructor
  · intro hc
    constructor
    · intro h0
      refine ⟨some .passiveDelegation, hc.symm, Ptr.begins_singleton.mpr h0, rfl, rfl, ?_,
        by simp [flows]⟩
      show _ ++ [p 0] = _
      rw [h0]
      rfl
    · intro h0
      constructor
      · intro h1
        have hid : (p.advance 1).slice 8 = beBytes 8 ((p.advance 1).u8be 0).toNat :=
          Ptr.slice_eight _
        constructor
        · intro text htext
          have htext' := htext.symm.trans (bin2dec_ok (by decide))
          cases htext'
          refine ⟨some (.baker ((p.advance 1).u8be 0)), hc.symm, ?_, ?_, ?_, ?_, by simp [flows]⟩
          · refine Ptr.begins_cons.mpr ⟨h1, ?_⟩
            rw [Ptr.Begins, beBytes_length, hid]
          · simp [optional, Target.bytes]
          · simp [Context.showTarget, Target.text]
          · show _ ++ [p 0] ++ (p.advance 1).slice 8 = _
            rw [hid, h1, List.append_assoc]
            rfl
        · intro e he
          have he' := he.symm.trans (bin2dec_ok (by decide))
          cases he'
      · intro h1
        refine ⟨by simp [flows], ?_⟩
        intro v hv hb
        rw [hc] at hv
        cases v with
        | none => cases hv
        | some target =>
          cases target with
          | passiveDelegation => exact h0 (Ptr.begins_singleton.mp hb)
          | baker id => exact h1 (Ptr.begins_cons.mp hb).1
  · intro hc
    refine ⟨none, by simpa using hc, rfl, rfl, rfl, (List.append_nil _).symm, rfl⟩

/-! ## The flow -/

/-- The steps of the fields. -/
def fieldSteps (c : Context) : List Step :=
  (if c.hasCapital then
    [if c.stopDelegation then { title := "Stop", text := literal "delegation" }
     else { title := "Amount to delegate", text := c.displayCapital.bytes }]
   else []) ++
  (if c.hasRestakeEarnings then
    [{ title := "Restake earnings", text := c.displayRestake.bytes }] else []) ++
  (if c.hasDelegationTarget then
    [{ title := "Delegation target", text := c.displayDelegationTarget.bytes }] else [])

section Flow

variable (c : Context) (v : Option UInt64) (w : Option Bool) (x : Option Target)

@[simp] theorem showCapital_hasRestakeEarnings :
    (c.showCapital v).hasRestakeEarnings = c.hasRestakeEarnings := by
  cases v with
  | none => rfl
  | some capital => rw [Context.showCapital]; split <;> rfl

@[simp] theorem showCapital_hasDelegationTarget :
    (c.showCapital v).hasDelegationTarget = c.hasDelegationTarget := by
  cases v with
  | none => rfl
  | some capital => rw [Context.showCapital]; split <;> rfl

@[simp] theorem showCapital_hasCapital : (c.showCapital v).hasCapital = c.hasCapital := by
  cases v with
  | none => rfl
  | some capital => rw [Context.showCapital]; split <;> rfl

@[simp] theorem showRestake_hasDelegationTarget :
    (c.showRestake w).hasDelegationTarget = c.hasDelegationTarget := by
  cases w <;> rfl

theorem capital_shown (hv : v.isSome = c.hasCapital) :
    ((if c.hasCapital then
      [if (c.showCapital v).stopDelegation then
        ({ title := "Stop", text := literal "delegation" } : Step)
       else { title := "Amount to delegate", text := (c.showCapital v).displayCapital.bytes }]
      else []).map fun st => (st.title, st.shown)) =
      (optional capitalScreens v).map fun p => (p.1, some p.2) := by
  rw [← hv]
  cases v with
  | none => rfl
  | some capital =>
    have hlen := fixedLength_six_le capital
    by_cases hz : capital = 0
    · simp only [Option.isSome_some, if_true, Context.showCapital, if_pos hz, optional,
        capitalScreens, List.map_cons, List.map_nil, Step.shown]
      rw [cString_literal _ (by decide)]
    · simp only [Option.isSome_some, if_true, Context.showCapital, if_neg hz, optional,
        capitalScreens, List.map_cons, List.map_nil, Step.shown, Bool.false_eq_true, if_false]
      rw [cString_memmove]
      · rw [List.mem_append]
        rintro (h | h)
        · exact absurd h (by decide)
        · exact zero_not_mem_fixedPoint _ _ h
      · rw [List.length_append, fixedPoint_length]
        show 4 + _ < 30
        omega

theorem restake_shown (hw : w.isSome = c.hasRestakeEarnings) :
    ((if c.hasRestakeEarnings then
      [({ title := "Restake earnings", text := (c.showRestake w).displayRestake.bytes } : Step)]
      else []).map fun st => (st.title, st.shown)) =
      (optional restakeScreens w).map fun p => (p.1, some p.2) := by
  rw [← hw]
  cases w with
  | none => rfl
  | some restake =>
    simp only [Option.isSome_some, if_true, Context.showRestake, optional, restakeScreens,
      List.map_cons, List.map_nil, Step.shown, literal]
    rw [cString_memmove]
    · cases restake <;> decide
    · cases restake <;> decide

theorem target_shown (hx : x.isSome = c.hasDelegationTarget) :
    ((if c.hasDelegationTarget then
      [({ title := "Delegation target",
          text := (c.showTarget x).displayDelegationTarget.bytes } : Step)]
      else []).map fun st => (st.title, st.shown)) =
      (optional Target.screens x).map fun p => (p.1, some p.2) := by
  rw [← hx]
  cases x with
  | none => rfl
  | some target =>
    simp only [Option.isSome_some, if_true, Context.showTarget, optional, Target.screens,
      List.map_cons, List.map_nil, Step.shown]
    rw [cString_memmove]
    · cases target with
      | passiveDelegation => decide
      | baker bakerId =>
        rw [Target.text, List.mem_append]
        rintro (h | h)
        · exact absurd h (by decide)
        · exact zero_not_mem_decimal _ h
    · cases target with
      | passiveDelegation => decide
      | baker bakerId =>
        have hlen := decimal_length bakerId
        have := lengthOfNumber_le_twenty bakerId
        rw [Target.text, List.length_append]
        show 9 + _ < 30
        omega

end Flow

/-- The context after all fields were read. -/
def Context.show (c : Context) (f : Fields) : Context :=
  ((c.showCapital f.capital).showRestake f.restakeEarnings).showTarget f.delegationTarget

theorem fieldSteps_show {c : Context} {f : Fields} (hc : f.capital.isSome = c.hasCapital)
    (hr : f.restakeEarnings.isSome = c.hasRestakeEarnings)
    (ht : f.delegationTarget.isSome = c.hasDelegationTarget) :
    (fieldSteps (c.show f)).map (fun st => (st.title, st.shown)) =
      f.screens.map fun p => (p.1, some p.2) := by
  have h1 := capital_shown c f.capital hc
  have h2 := restake_shown (c.showCapital f.capital) f.restakeEarnings (by simpa using hr)
  have h3 := target_shown ((c.showCapital f.capital).showRestake f.restakeEarnings)
    f.delegationTarget (by simpa using ht)
  rw [showCapital_hasRestakeEarnings] at h2
  rw [showRestake_hasDelegationTarget, showCapital_hasDelegationTarget] at h3
  obtain ⟨v, w, x⟩ := f
  rw [Fields.screens, List.map_append, List.map_append, ← h1, ← h2, ← h3, fieldSteps, List.map_append,
    List.map_append]
  -- what shows one field leaves the texts of the others alone
  have hc' : (Context.show c ⟨v, w, x⟩).hasCapital = c.hasCapital := by
    cases w <;> cases x <;> exact showCapital_hasCapital c v
  have hr' : (Context.show c ⟨v, w, x⟩).hasRestakeEarnings = c.hasRestakeEarnings := by
    cases w <;> cases x <;> exact showCapital_hasRestakeEarnings c v
  have ht' : (Context.show c ⟨v, w, x⟩).hasDelegationTarget = c.hasDelegationTarget := by
    cases w <;> cases x <;> exact showCapital_hasDelegationTarget c v
  rw [hc', hr', ht']
  cases w <;> cases x <;> rfl

/-! ## Commands -/

/-- What the pointer to a command points to, when its first `n` bytes are a message. -/
structure Parsed (cdata : Ptr) (n : Nat) (bitmap : UInt16) (f : Fields) : Prop where
  path : cdata 0 ≤ 8
  kind : cdata.advance (1 + 4 * (cdata 0).toNat) 60 = configureDelegation
  bitmap_eq : (payloadOf cdata).u2be 0 = bitmap
  announces : Announces bitmap f
  fields : ((payloadOf cdata).advance 2).Begins f.bytes
  length : n = 1 + 4 * (cdata 0).toNat + 61 + 2 + f.bytes.length

theorem message_iff {cdata : Ptr} {n : Nat} {path header : List UInt8} {bitmap : UInt16}
    {f : Fields} :
    Message path header bitmap f (cdata.slice n) ↔
      path = cdata.slice (1 + 4 * (cdata 0).toNat) ∧ header = headerOf cdata ∧
        Parsed cdata n bitmap f := by
  constructor
  · rintro ⟨hpath, hheader, ha, hdata⟩
    obtain ⟨hlen, hb⟩ := Ptr.slice_eq_iff.mp hdata
    simp only [signedPart, Ptr.begins_append, List.length_append, hheader, List.length_singleton,
      beBytes_length, Ptr.advance_advance] at hlen hb
    obtain ⟨hb, ⟨⟨hhead, hkind⟩, hbits⟩, hfields⟩ := hb
    obtain ⟨hk, hplen⟩ := hpath.length hb
    rw [hplen] at hlen hhead hkind hbits hfields
    unfold Ptr.Begins at hb hhead
    rw [hplen] at hb
    rw [hheader] at hhead
    have hq : payloadOf cdata = cdata.advance (1 + 4 * (cdata 0).toNat + (60 + 1)) := rfl
    refine ⟨hb.symm, hhead.symm, hk, ?_, ?_, ha, ?_, hlen.trans (by omega)⟩
    · exact Ptr.begins_singleton.mp hkind
    · rw [hq]
      exact Ptr.begins_beBytes_two.mp hbits
    · rw [hq, Ptr.advance_advance]
      exact hfields
  · rintro ⟨rfl, rfl, hp⟩
    refine ⟨isPath_slice hp.path, headerOf_length cdata, hp.announces,
      Ptr.slice_eq_iff.mpr ⟨?_, ?_⟩⟩
    · have hl := hp.length
      simp only [signedPart, List.length_append, Ptr.slice_length, headerOf_length, beBytes_length,
        List.length_singleton]
      omega
    · have hf := hp.fields
      have hbits := Ptr.begins_beBytes_two.mpr hp.bitmap_eq
      unfold payloadOf at hf hbits
      rw [Ptr.advance_advance] at hf
      simp only [signedPart, Ptr.begins_append, List.length_append, Ptr.slice_length,
        headerOf_length, List.length_singleton, beBytes_length, Ptr.advance_advance]
      exact ⟨Ptr.begins_slice _ _, ⟨⟨Ptr.begins_slice _ _, Ptr.begins_singleton.mpr hp.kind⟩, hbits⟩,
        hf⟩

/-- The fields that the context announces. -/
structure Announced (c : Context) (f : Fields) : Prop where
  capital : f.capital.isSome = c.hasCapital
  restakeEarnings : f.restakeEarnings.isSome = c.hasRestakeEarnings
  delegationTarget : f.delegationTarget.isSome = c.hasDelegationTarget

theorem optional_length {α : Type} {enc : α → List UInt8} {n : Nat} (henc : ∀ a, (enc a).length = n)
    {v w : Option α} (h : v.isSome = w.isSome) : (optional enc v).length = (optional enc w).length := by
  cases v <;> cases w
  · rfl
  · cases h
  · cases h
  · exact (henc _).trans (henc _).symm

/-- Reading the three fields, one after the other. -/
theorem wp_fields {p : Ptr} {t : Device Context} {k : Nat → Nat → Nat → Fw Context PUnit}
    {Q : PUnit → Device Context → Prop} {E : Error → Device Context → Prop}
    (hok : ∀ a b c f t', Announced t.ctx f → p.Begins f.bytes → a + b + c = f.bytes.length →
      Took f.bytes (t.ctx.show f) t t' → wp (k a b c) Q E t')
    (hthrown : ∀ e t', flows t'.shared.log = flows t.shared.log →
      (∀ f, Announced t.ctx f → ¬ p.Begins f.bytes) → E e t') :
    wp (readCapital p) (fun a => wp (do
      let b ← readRestake (p.advance a)
      let c ← readDelegationTarget ((p.advance a).advance b)
      k a b c) Q E) E t := by
  refine wp_mono (readCapital_reads p t) ?_ ?_
  · rintro a t₁ ⟨v, hv, hbv, rfl, h1⟩
    have hr := readRestake_reads (p.advance (optional capitalBytes v).length) t₁
    rw [h1.ctx, showCapital_hasRestakeEarnings] at hr
    rw [wp_bind]
    refine wp_mono hr ?_ ?_
    · rintro b t₂ ⟨w, hw, hbw, rfl, h2⟩
      have ht := readDelegationTarget_reads ((p.advance (optional capitalBytes v).length).advance
        (optional restakeBytes w).length) t₂
      rw [h2.ctx, h1.ctx, showRestake_hasDelegationTarget, showCapital_hasDelegationTarget] at ht
      rw [wp_bind]
      refine wp_mono ht ?_ ?_
      · rintro c t₃ ⟨x, hx, hbx, rfl, h3⟩
        refine hok _ _ _ ⟨v, w, x⟩ t₃ ⟨hv, hw, hx⟩ ?_ ?_ ⟨?_, ?_, ?_⟩
        · rw [Fields.bytes, Ptr.begins_append, Ptr.begins_append, List.length_append,
            ← Ptr.advance_advance]
          exact ⟨⟨hbv, hbw⟩, hbx⟩
        · rw [Fields.bytes, List.length_append, List.length_append]
        · rw [h3.ctx, h2.ctx, h1.ctx]
          rfl
        · rw [h3.hash, h2.hash, h1.hash, Fields.bytes, List.append_assoc, List.append_assoc,
            List.append_assoc]
        · rw [h3.flows, h2.flows, h1.flows]
      · rintro e t₃ ⟨hf, hno⟩
        refine hthrown e t₃ (by rw [hf, h2.flows, h1.flows]) ?_
        intro f ha hb
        have hlv : (optional capitalBytes f.capital).length = (optional capitalBytes v).length :=
          optional_length (fun _ => beBytes_length _ _) (ha.capital.trans hv.symm)
        have hlw : (optional restakeBytes f.restakeEarnings).length =
            (optional restakeBytes w).length :=
          optional_length (n := 1) (fun _ => rfl) (ha.restakeEarnings.trans hw.symm)
        rw [Fields.bytes, Ptr.begins_append, List.length_append, hlv, hlw,
          ← Ptr.advance_advance] at hb
        exact hno _ ha.delegationTarget hb.2
    · rintro e t₂ ⟨hf, hno⟩
      refine hthrown e t₂ (by rw [hf, h1.flows]) ?_
      intro f ha hb
      have hlv : (optional capitalBytes f.capital).length = (optional capitalBytes v).length :=
        optional_length (fun _ => beBytes_length _ _) (ha.capital.trans hv.symm)
      rw [Fields.bytes, Ptr.begins_append, Ptr.begins_append, hlv] at hb
      exact hno _ ha.restakeEarnings hb.1.2
  · rintro e t₁ ⟨hf, hno⟩
    refine hthrown e t₁ hf ?_
    intro f ha hb
    rw [Fields.bytes, Ptr.begins_append, Ptr.begins_append] at hb
    exact hno _ ha.capital hb.1.1

theorem target_length_eq {p : Ptr} {v w : Option Target} (h : v.isSome = w.isSome)
    (hv : p.Begins (optional Target.bytes v)) (hw : p.Begins (optional Target.bytes w)) :
    (optional Target.bytes v).length = (optional Target.bytes w).length := by
  cases v with
  | none =>
    cases w with
    | none => rfl
    | some y => cases h
  | some x =>
    cases w with
    | none => cases h
    | some y =>
      cases x with
      | passiveDelegation =>
        cases y with
        | passiveDelegation => rfl
        | baker id =>
          have h0 := Ptr.begins_singleton.mp hv
          rw [(Ptr.begins_cons.mp hw).1] at h0
          cases h0
      | baker id =>
        cases y with
        | passiveDelegation =>
          have h0 := Ptr.begins_singleton.mp hw
          rw [(Ptr.begins_cons.mp hv).1] at h0
          cases h0
        | baker id' => simp [optional, Target.bytes]

/-- Two sets of fields that the same bits announce and that are found at one place have one
length. -/
theorem length_eq_of_begins {p : Ptr} {c : Context} {f g : Fields} (hf : Announced c f)
    (hg : Announced c g) (hbf : p.Begins f.bytes) (hbg : p.Begins g.bytes) :
    f.bytes.length = g.bytes.length := by
  have hlv : (optional capitalBytes f.capital).length = (optional capitalBytes g.capital).length :=
    optional_length (fun _ => beBytes_length _ _) (hf.capital.trans hg.capital.symm)
  have hlw : (optional restakeBytes f.restakeEarnings).length =
      (optional restakeBytes g.restakeEarnings).length :=
    optional_length (n := 1) (fun _ => rfl) (hf.restakeEarnings.trans hg.restakeEarnings.symm)
  have hlx : (optional Target.bytes f.delegationTarget).length =
      (optional Target.bytes g.delegationTarget).length := by
    rw [Fields.bytes, Ptr.begins_append, List.length_append] at hbf hbg
    rw [← hlv, ← hlw] at hbg
    exact target_length_eq (hf.delegationTarget.trans hg.delegationTarget.symm) hbf.2 hbg.2
  rw [Fields.bytes, Fields.bytes, List.length_append, List.length_append, List.length_append,
    List.length_append, hlv, hlw, hlx]

/-- The handler returns with the Sign screen of a message. -/
structure Accepted (cdata : Ptr) (n : Nat) (t t' : Device Context) (bitmap : UInt16) (f : Fields) :
    Prop where
  parsed : Parsed cdata n bitmap f
  field : ∃ i < 3, bitmap.toNat.testBit i = true
  hash : t'.shared.hash = signedPart (headerOf cdata) bitmap f
  shows : Shows f t'.shared.display
  flows : flows t'.shared.log = flows t.shared.log ++ [t'.shared.display]

/-- The handler throws, because the command is no message with a field. -/
structure Rejected (cdata : Ptr) (n : Nat) (t t' : Device Context) : Prop where
  flows : flows t'.shared.log = flows t.shared.log
  parsed : ∀ bitmap f, Parsed cdata n bitmap f → ∀ i < 3, bitmap.toNat.testBit i = false

/-- The flags that the code reads off the bitmap. -/
def Context.announced (c : Context) (bitmap : UInt16) : Context :=
  { c with
    hasCapital := decide (bitmap &&& 1 ≠ 0)
    hasRestakeEarnings := decide (bitmap >>> 1 &&& 1 ≠ 0)
    hasDelegationTarget := decide (bitmap >>> 2 &&& 1 ≠ 0) }

theorem announces_fields_iff {c : Context} {bitmap : UInt16} {f : Fields} :
    Announced (c.announced bitmap) f ↔ Announces bitmap f := by
  have h0 := SignConfigureBaker.bit_eq_testBit bitmap 0 (by decide)
  have h1 := SignConfigureBaker.bit_eq_testBit bitmap 1 (by decide)
  have h2 := SignConfigureBaker.bit_eq_testBit bitmap 2 (by decide)
  rw [UInt16.shiftRight_zero] at h0
  constructor
  · rintro ⟨hc, hr, ht⟩
    exact ⟨hc.trans h0, hr.trans h1, ht.trans h2⟩
  · rintro ⟨hc, hr, ht⟩
    exact ⟨hc.trans h0.symm, hr.trans h1.symm, ht.trans h2.symm⟩

theorem noField_iff (c : Context) {bitmap : UInt16} :
    ((c.announced bitmap).hasCapital = false ∧ (c.announced bitmap).hasRestakeEarnings = false ∧
      (c.announced bitmap).hasDelegationTarget = false) ↔
      ∀ i < 3, bitmap.toNat.testBit i = false := by
  have h0 := SignConfigureBaker.bit_eq_testBit bitmap 0 (by decide)
  have h1 := SignConfigureBaker.bit_eq_testBit bitmap 1 (by decide)
  have h2 := SignConfigureBaker.bit_eq_testBit bitmap 2 (by decide)
  rw [UInt16.shiftRight_zero] at h0
  show (decide _ = false ∧ decide _ = false ∧ decide _ = false) ↔ _
  rw [h0, h1, h2]
  constructor
  · rintro ⟨h0, h1, h2⟩ i hi
    interval_cases i
    · exact h0
    · exact h1
    · exact h2
  · intro h
    exact ⟨h 0 (by decide), h 1 (by decide), h 2 (by decide)⟩

theorem fields_length_le (f : Fields) : f.bytes.length ≤ 18 := by
  have hc : (optional capitalBytes f.capital).length ≤ 8 := by
    cases f.capital <;> simp [optional, capitalBytes]
  have hr : (optional restakeBytes f.restakeEarnings).length ≤ 1 := by
    cases f.restakeEarnings <;> simp [optional, restakeBytes]
  have ht : (optional Target.bytes f.delegationTarget).length ≤ 9 := by
    cases f.delegationTarget with
    | none => simp [optional]
    | some target => cases target <;> simp [optional, Target.bytes]
  rw [Fields.bytes, List.length_append, List.length_append]
  omega

/-- `expectedDataLength` does not wrap. -/
theorem lc_eq_iff (lc : UInt8) {n k : Nat} (hn : n ≤ 32) (hk : k ≤ 18) :
    lc = .ofNat (1 + n + 61 + 2 + k) ↔ lc.toNat = 1 + n + 61 + 2 + k := by
  constructor
  · rintro rfl
    rw [UInt8.toNat_ofNat']
    omega
  · intro h
    rw [← h, UInt8.ofNat_toNat]

theorem handle_spec (sdk : Sdk) (cdata : Ptr) (lc : UInt8) (t : Device Context) :
    wp (handleSignConfigureDelegation sdk cdata lc)
      (fun _ t' => ∃ bitmap f, Accepted cdata lc.toNat t t' bitmap f)
      (fun _ t' => Rejected cdata lc.toNat t t') t := by
  simp only [handleSignConfigureDelegation, hashAccountTransactionHeaderAndKind, hashHeaderAndType,
    wp_bind, wp_parseKeyDerivationPath, wp_cxSha256Init, Fw.wp_getShared, Fw.wp_eval,
    Fw.wp_modifyShared, wp_updateHash, Fw.wp_throwIf, wp_pure, Fw.wp_modifyCtx]
  have hq : (cdata.advance (1 + 4 * (cdata 0).toNat)).advance
      (accountTransactionHeaderLength + 1) = payloadOf cdata := Ptr.advance_advance _ _ _
  rw [hq]
  generalize hbm : (payloadOf cdata).u2be 0 = bitmap
  refine ⟨?_, fun hpath => ⟨fun sender hsender => ⟨?_, fun hkind => ⟨?_, fun hfield => ?_⟩⟩, ?_⟩⟩
  · intro hpath
    refine ⟨by simp [flows], ?_⟩
    intro bitmap f hp
    exact absurd hp.path (by simpa using hpath)
  · intro hkind
    refine ⟨by simp [flows], ?_⟩
    intro bitmap f hp
    exact absurd hp.kind hkind
  · intro hnone
    refine ⟨by simp [flows], ?_⟩
    intro bitmap' f hp
    have hb : bitmap' = bitmap := hp.bitmap_eq.symm.trans hbm
    subst hb
    exact (noField_iff t.ctx).mp hnone
  · refine wp_fields ?_ ?_
    · intro a b c f t' ha hb hlen htook
      simp only [wp_bind, Fw.wp_throwIf, startDisplay, wp_uxFlowInit, wp_waitForButton]
      have hle : 4 * (cdata 0).toNat ≤ 32 := by
        have := UInt8.le_iff_toNat_le.mp (UInt8.not_lt.mp hpath)
        have h8 : (8 : UInt8).toNat = 8 := rfl
        omega
      have hlc := lc_eq_iff lc hle (fields_length_le f)
      rw [show 1 + 4 * (cdata 0).toNat + (accountTransactionHeaderLength + 1) + 2 + a + b + c =
        1 + 4 * (cdata 0).toNat + 61 + 2 + f.bytes.length by
          rw [← hlen]; show _ + (60 + 1) + 2 + _ + _ + _ = _; omega, not_not]
      have ha' := announces_fields_iff.mp ha
      have hflows : flows t'.shared.log = flows t.shared.log := by rw [htook.flows]; simp [flows]
      constructor
      · intro hne
        refine ⟨hflows, ?_⟩
        intro bitmap' g hp
        have hb' : bitmap' = bitmap := hp.bitmap_eq.symm.trans hbm
        subst hb'
        have hfg := length_eq_of_begins ha (announces_fields_iff.mpr hp.announces) hb hp.fields
        exact absurd (hlc.mpr (by rw [hfg]; exact hp.length)) hne
      · intro heq
        refine ⟨bitmap, f, ⟨?_, ?_, hbm, ha', hb, hlc.mp heq⟩, ?_, ?_, ?_, ?_⟩
        · exact UInt8.not_lt.mp hpath
        · exact not_not.mp hkind
        · by_contra hnot
          refine hfield ((noField_iff t.ctx).mpr fun i hi => ?_)
          by_contra hi'
          exact hnot ⟨i, hi, by simpa using hi'⟩
        · show t'.shared.hash = _
          have hhash : [] ++ headerOf cdata ++ (((cdata.advance (1 + 4 * (cdata 0).toNat)).advance
              accountTransactionHeaderLength).slice 1) ++ (payloadOf cdata).slice 2 =
              headerOf cdata ++ [configureDelegation] ++ beBytes 2 bitmap.toNat := by
            rw [Ptr.slice_two, hbm, slice_one, not_not.mp hkind, List.nil_append]
          rw [htook.hash, signedPart, ← hhash]
          rfl
        · refine ⟨t'.shared.sender.bytes, fieldSteps t'.ctx, by simp [fieldSteps, uxSignFlowAccountSenderView], ?_⟩
          rw [htook.ctx]
          exact fieldSteps_show ha.capital ha.restakeEarnings ha.delegationTarget
        · rw [flows_uxFlowInit, hflows]
          rfl
    · intro e t' hf hno
      refine ⟨by rw [hf]; simp [flows], ?_⟩
      intro bitmap' f hp
      have hb : bitmap' = bitmap := hp.bitmap_eq.symm.trans hbm
      subst hb
      exact absurd hp.fields (hno f (announces_fields_iff.mpr hp.announces))
  · intro e he
    obtain ⟨text, htext⟩ := addressText_ok sdk (cdata.advance (1 + 4 * (cdata 0).toNat))
      (t.shared.loadPath cdata).sha256Init.sender
    rw [htext] at he
    cases he

/-! ## Commands of the instruction -/

theorem extraBit_or_not (bitmap : UInt16) :
    (∀ i, 3 ≤ i → bitmap.toNat.testBit i = false) ∨ ∃ i, 3 ≤ i ∧ bitmap.toNat.testBit i = true := by
  by_cases h : ∃ i, 3 ≤ i ∧ bitmap.toNat.testBit i = true
  · exact .inr h
  · refine .inl fun i hi => ?_
    by_contra hne
    exact h ⟨i, hi, by simpa using hne⟩

/-- A bitmap without other bits is zero when it announces no field. -/
theorem ne_zero_iff {bitmap : UInt16} (h : ∀ i, 3 ≤ i → bitmap.toNat.testBit i = false) :
    bitmap ≠ 0 ↔ ∃ i < 3, bitmap.toNat.testBit i = true := by
  constructor
  · intro hne
    by_contra hno
    refine hne (UInt16.toNat_inj.mp (Nat.eq_of_testBit_eq fun i => ?_))
    have hz : (0 : UInt16).toNat.testBit i = false := Nat.zero_testBit i
    rw [hz]
    by_cases hi : i < 3
    · by_contra hne
      exact hno ⟨i, hi, by simpa using hne⟩
    · exact h i (by omega)
  · rintro ⟨i, _, hi⟩ rfl
    have hz : (0 : UInt16).toNat.testBit i = false := Nat.zero_testBit i
    rw [hz] at hi
    cases hi

/-- The bitmap of a message is found at one place. -/
theorem Message.bitmap_unique {cdata : Ptr} {n : Nat} {path path' header header' : List UInt8}
    {bitmap bitmap' : UInt16} {f f' : Fields} (h : Message path header bitmap f (cdata.slice n))
    (h' : Message path' header' bitmap' f' (cdata.slice n)) : bitmap = bitmap' := by
  obtain ⟨_, _, hp⟩ := message_iff.mp h
  obtain ⟨_, _, hp'⟩ := message_iff.mp h'
  exact hp.bitmap_eq.symm.trans hp'.bitmap_eq

section Commands

variable {μ : Type} {sdk : Sdk} {u : InstructionContext μ} {d d' : Device μ} {apdu : Apdu}

theorem finish_flows {γ : Type} {e : Error} {t : Device γ} :
    flows (finish (.thrown e t : Outcome Error (Device γ) PUnit)).shared.log = flows t.shared.log := by
  show flows (catchOther e t.shared).log = _
  unfold catchOther
  split
  · simp only
    split <;> simp [flows]
  · rfl

variable (sdk u) in
/-- How the handler runs, after the command has arrived in a state `t`. -/
theorem handler_spec (hins : apdu.ins = insConfigureDelegation) (b : Bool) (t : Device μ) :
    (∃ bitmap f t', Accepted apdu.cdata apdu.lc.toNat (t.view u.signConfigureDelegation) t' bitmap f ∧
      (finish ((mainApp sdk u).handler apdu b t)).shared = t'.shared) ∨
    ∃ t', Rejected apdu.cdata apdu.lc.toNat (t.view u.signConfigureDelegation) t' ∧
      flows (finish ((mainApp sdk u).handler apdu b t)).shared.log = flows t'.shared.log := by
  have hh : (mainApp sdk u).handler apdu b =
      Fw.on u.signConfigureDelegation (handleSignConfigureDelegation sdk apdu.cdata apdu.lc) := by
    show mainHandler sdk u apdu b = _
    unfold mainHandler
    rw [hins]
    rfl
  have hw := handle_spec sdk apdu.cdata apdu.lc (t.view u.signConfigureDelegation)
  cases hx : handleSignConfigureDelegation sdk apdu.cdata apdu.lc
      (t.view u.signConfigureDelegation) with
  | ok a t' =>
    obtain ⟨bitmap, f, ha⟩ := of_wp_ok hw hx
    refine .inl ⟨bitmap, f, t', ha, ?_⟩
    rw [hh, Fw.on_ok hx]
    rfl
  | thrown e t' =>
    have hr := of_wp_thrown hw hx
    refine .inr ⟨t', hr, ?_⟩
    rw [hh, Fw.on_thrown hx]
    exact finish_flows

/-- What a command does, whether or not it is the first of its session. -/
theorem step_spec (hi : d.shared.currentInstruction = none ∨
      d.shared.currentInstruction = some insConfigureDelegation)
    (hins : apdu.ins = insConfigureDelegation) (hcla : apdu.cla = 0xE0)
    (hs : step (mainApp sdk u) d (.command apdu) = some d') :
    (∃ bitmap f t t', Accepted apdu.cdata apdu.lc.toNat t t' bitmap f ∧
      flows t.shared.log = flows d.shared.log ∧ d'.shared = t'.shared) ∨
    ∃ t t', Rejected apdu.cdata apdu.lc.toNat t t' ∧
      flows t.shared.log = flows d.shared.log ∧ flows d'.shared.log = flows t'.shared.log := by
  obtain ⟨b, t, hd, ht⟩ : ∃ b t, d' = finish ((mainApp sdk u).handler apdu b t) ∧
      flows t.shared.log = flows d.shared.log := by
    unfold step at hs
    split at hs
    · cases hs
      rcases hi with hi | hi
      · exact ⟨true, opened d apdu, by rw [dispatch_opened _ hi hcla], by simp [opened, flows]⟩
      · exact ⟨false, entered d apdu, by rw [dispatch_eq _ (hins ▸ hi) hcla],
          by simp [entered, flows]⟩
    · cases hs
  subst hd
  rcases handler_spec sdk u hins b t with ⟨bitmap, f, t', ha, hsh⟩ | ⟨t', hr, hf⟩
  · exact .inl ⟨bitmap, f, _, t', ha, ht, hsh⟩
  · exact .inr ⟨_, t', hr, ht, hf⟩

/-- A command of the instruction follows the grammar unless it is a message whose bitmap has a bit
that announces no field. -/
theorem configureDelegation_iff (hi : d.shared.currentInstruction = none ∨
      d.shared.currentInstruction = some insConfigureDelegation)
    (hins : apdu.ins = insConfigureDelegation) (hcla : apdu.cla = 0xE0)
    (hs : step (mainApp sdk u) d (.command apdu) = some d') :
    Follows d.shared d'.shared apdu.data ↔ ¬ HasExtraBit apdu.data := by
  rcases step_spec hi hins hcla hs with ⟨bitmap, f, t, t', ha, ht, hd⟩ | ⟨t, t', hr, ht, hd⟩
  · have hm : Message _ _ bitmap f apdu.data := message_iff.mpr ⟨rfl, rfl, ha.parsed⟩
    have hput : putUp d.shared d'.shared = t'.shared.display := by
      have hf : flows d'.shared.log = flows d.shared.log ++ [t'.shared.display] := by
        rw [hd, ha.flows, ht]
      rw [putUp_of_flows hf, List.flatten_singleton]
    have hsign : offersSign (putUp d.shared d'.shared) = true := by
      obtain ⟨sender, steps, hflow, _⟩ := ha.shows
      rw [hput, hflow]
      simp [offersSign, Step.signs, uxSignFlowSharedSign]
    constructor
    · rintro hfol ⟨_, _, bitmap', _, hm', _, i, h3, hi⟩
      obtain ⟨_, _, bitmap'', _, hm'', _, hno⟩ := hfol.sign.mp hsign
      rw [hm'.bitmap_unique hm'', hno i h3] at hi
      cases hi
    · intro hno
      have hbits : ∀ i, 3 ≤ i → bitmap.toNat.testBit i = false :=
        (extraBit_or_not bitmap).resolve_right fun h => hno ⟨_, _, bitmap, f, hm, ha.field, h⟩
      refine ⟨⟨fun _ => ⟨_, _, bitmap, f, hm, (ne_zero_iff hbits).mpr ha.field, hbits⟩,
        fun _ => hsign⟩, fun _ => ⟨_, _, bitmap, f, hm, ?_, ?_⟩⟩
      · rw [hd]
        exact ha.hash
      · rw [hd]
        exact ha.shows
  · have hput : putUp d.shared d'.shared = [] := putUp_nil (by rw [hd, hr.flows, ht])
    have hsign : ¬ offersSign (putUp d.shared d'.shared) = true := by
      rw [hput]
      simp [offersSign]
    have hfield : ∀ {path header bitmap f}, Message path header bitmap f apdu.data →
        ∀ i < 3, bitmap.toNat.testBit i = false := by
      intro path header bitmap f hm
      obtain ⟨_, _, hp⟩ := message_iff.mp hm
      exact hr.parsed bitmap f hp
    constructor
    · rintro - ⟨_, _, bitmap, _, hm, ⟨i, h3, hi⟩, _⟩
      rw [hfield hm i h3] at hi
      cases hi
    · intro _
      refine ⟨⟨fun h => absurd h hsign, ?_⟩, fun h => absurd h hsign⟩
      rintro ⟨_, _, bitmap, _, hm, hne, hbits⟩
      obtain ⟨i, h3, hi⟩ := (ne_zero_iff hbits).mp hne
      rw [hfield hm i h3] at hi
      cases hi

end Commands

/-! ## Commands on a device that has booted -/

/-- Restaking of the earnings, with an empty path and a header of zeroes. `high` are the bits of the
bitmap that announce no field. -/
def restakeCommand (high : UInt8) : Apdu :=
  sent insConfigureDelegation 0 0
    ([0] ++ List.replicate 60 0 ++ [configureDelegation] ++ [high, 2, 1])

/-- The bitmap of a message that the command holds. -/
theorem restakeCommand_bitmap {high : UInt8} {path header : List UInt8} {bitmap : UInt16}
    {f : Fields} (h : Message path header bitmap f (restakeCommand high).data) :
    bitmap = .ofNat (256 * high.toNat + 2) := by
  obtain ⟨_, _, hp⟩ := message_iff.mp h
  have hb := hp.bitmap_eq
  rw [← hb]
  show UInt16.ofNat (beNat [high, 2]) = _
  rw [beNat_cons]
  congr 1
  simp [beNat]
  omega

theorem restake_follows :
    ∃ d', step (mainApp zeroAddressSdk Contexts.layout) bootedDevice
        (.command (restakeCommand 0)) = some d' ∧
      Follows bootedDevice.shared d'.shared (restakeCommand 0).data := by
  obtain ⟨d', hd'⟩ : ∃ d', step (mainApp zeroAddressSdk Contexts.layout) bootedDevice
      (.command (restakeCommand 0)) = some d' := ⟨_, rfl⟩
  refine ⟨d', hd', (configureDelegation_iff (.inl rfl) rfl rfl hd').mpr ?_⟩
  rintro ⟨_, _, bitmap, _, hm, _, i, h3, hi⟩
  rw [restakeCommand_bitmap hm] at hi
  have hlt : (2 : Nat) < 2 ^ i := lt_of_lt_of_le (by decide) (Nat.pow_le_pow_right (by decide) h3)
  rw [show (UInt16.ofNat (256 * (0 : UInt8).toNat + 2)).toNat = 2 from rfl,
    Nat.testBit_lt_two_pow hlt] at hi
  cases hi

/-- The Sign screen is put up for a bitmap with the ninth bit. -/
theorem restake_not_follows :
    ∃ d', step (mainApp zeroAddressSdk Contexts.layout) bootedDevice
        (.command (restakeCommand 1)) = some d' ∧
      ¬ Follows bootedDevice.shared d'.shared (restakeCommand 1).data := by
  have hex : (step (mainApp zeroAddressSdk Contexts.layout) bootedDevice
      (.command (restakeCommand 1))).any
        (fun d' => offersSign (putUp bootedDevice.shared d'.shared)) = true := by
    delta mainApp mainHandler
    simp only [handleSignConfigureDelegation, hashAccountTransactionHeaderAndKind,
      addressText_zeroAddressSdk]
    decide
  obtain ⟨d', hd', hsign⟩ := (Option.any_eq_true _ _).mp hex
  refine ⟨d', hd', fun hfol => ?_⟩
  obtain ⟨_, _, bitmap, _, hm, _, hbits⟩ := hfol.sign.mp hsign
  have h8 := hbits 8 (by decide)
  rw [restakeCommand_bitmap hm] at h8
  exact absurd h8 (by decide)

end SignConfigureDelegation
end ConcordiumLedger
