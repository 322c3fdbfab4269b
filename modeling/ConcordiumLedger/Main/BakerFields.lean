import ConcordiumLedger.Common.AmountDisplay
import ConcordiumLedger.Common.Presses
import ConcordiumLedger.Main.SignConfigureBaker

/-!
# Main.BakerFields

The payload of a baker configuration: the optional fields in their order, the bits that announce
them, what their bytes look like, and what a screen says about these bytes.

* `Shown`     — a screen of the session shows the bytes of a field.
* `Collected` — what has been received of the fields.
* `Took`      — fields have been read: they are hashed, and the union holds their texts.
-/

namespace ConcordiumLedger

open CMem CProg CProg.Prog

namespace SignConfigureBaker

inductive Field where
  | capital
  | restakeEarnings
  | openForDelegation
  | keys
  | metadataUrl
  | transactionFeeCommission
  | bakingRewardCommission
  | finalizationRewardCommission
deriving DecidableEq

namespace Field

/-- The fields in the order of the payload. -/
def all : List Field :=
  [ capital, restakeEarnings, openForDelegation, keys, metadataUrl, transactionFeeCommission,
    bakingRewardCommission, finalizationRewardCommission ]

theorem mem_all (x : Field) : x ∈ all := by
  cases x <;> decide

/-- The place of the field's bit in the bitmap. -/
def bit : Field → Nat
  | capital => 0
  | restakeEarnings => 1
  | openForDelegation => 2
  | keys => 3
  | metadataUrl => 4
  | transactionFeeCommission => 5
  | bakingRewardCommission => 6
  | finalizationRewardCommission => 7

/-- The bytes of a field. A URL is preceded by its length. -/
def Format : Field → List UInt8 → Prop
  | capital, bs => bs.length = 8
  | restakeEarnings, bs => bs = [0] ∨ bs = [1]
  | openForDelegation, bs => bs = [0] ∨ bs = [1] ∨ bs = [2]
  | keys, bs => bs.length = 192 + 160
  | metadataUrl, bs => ∃ size url, bs = size ++ url ∧ size.length = 2 ∧ url.length = beNat size
  | transactionFeeCommission, bs => bs.length = 4 ∧ beNat bs ≤ 100000
  | bakingRewardCommission, bs => bs.length = 4 ∧ beNat bs ≤ 100000
  | finalizationRewardCommission, bs => bs.length = 4 ∧ beNat bs ≤ 100000

def percentage (bs : List UInt8) : List UInt8 := fixedPoint 3 (beNat bs) ++ [37]

/-- The title and the text that stand for the bytes of a field. Of the keys it is only said that
there are some, and of a URL that it is empty. -/
def caption : Field → List UInt8 → String × List UInt8
  | capital, bs =>
    if beNat bs = 0 then ("Stop", ascii "baking")
    else ("Amount to stake", ascii "CCD " ++ fixedPoint 6 (beNat bs))
  | restakeEarnings, bs => ("Restake earnings", ascii (if bs = [0] then "No" else "Yes"))
  | openForDelegation, bs =>
    ("Pool status", ascii (if bs = [0] then "Open for all" else
      if bs = [1] then "Closed for new" else "Closed for all"))
  | keys, _ => ("Update baker", ascii "keys")
  | metadataUrl, _ => ("Empty URL", [])
  | transactionFeeCommission, bs => ("Transaction fee", percentage bs)
  | bakingRewardCommission, bs => ("Baking reward", percentage bs)
  | finalizationRewardCommission, bs => ("Finalization reward", percentage bs)

/-- Where the text of a field ends in the union. -/
def limit : Field → Nat
  | capital => 31
  | restakeEarnings => 35
  | openForDelegation => 50
  | keys => 0
  | metadataUrl => 0
  | transactionFeeCommission => 8
  | bakingRewardCommission => 16
  | finalizationRewardCommission => 24

end Field

def Fields.has (f : Fields) : Field → Bool
  | .capital => f.hasCapital
  | .restakeEarnings => f.hasRestakeEarnings
  | .openForDelegation => f.hasOpenForDelegation
  | .keys => f.hasKeys
  | .metadataUrl => f.hasMetadataUrl
  | .transactionFeeCommission => f.hasTransactionFeeCommission
  | .bakingRewardCommission => f.hasBakingRewardCommission
  | .finalizationRewardCommission => f.hasFinalizationRewardCommission

theorem bit_eq_testBit (bitmap : UInt16) (i : UInt16) (hi : i.toNat < 16) :
    decide ((bitmap >>> i) &&& 1 ≠ 0) = bitmap.toNat.testBit i.toNat := by
  have hn : ((bitmap >>> i) &&& 1).toNat = bitmap.toNat >>> i.toNat % 2 := by
    rw [UInt16.toNat_and, UInt16.toNat_shiftRight, Nat.mod_eq_of_lt hi]
    exact Nat.and_one_is_mod _
  rw [Nat.testBit, Nat.one_and_eq_mod_two, ← hn]
  by_cases h : (bitmap >>> i) &&& 1 = 0
  · rw [h]; rfl
  · have hne : ((bitmap >>> i) &&& 1).toNat ≠ 0 := fun h0 => h (UInt16.toNat_inj.mp h0)
    rw [decide_eq_true h, (bne_iff_ne ..).mpr hne]

/-- The code reads the bits of the bitmap. -/
theorem ofBitmap_has (bitmap : UInt16) (x : Field) :
    (Fields.ofBitmap bitmap).has x = bitmap.toNat.testBit x.bit := by
  cases x <;> exact bit_eq_testBit bitmap _ (by decide)

/-! ## Payloads -/

/-- `rs` are the announced ones of the fields `xs`, in this order, with their bytes. -/
structure Collected (f : Fields) (xs : List Field) (rs : List (Field × List UInt8)) : Prop where
  fields : rs.map Prod.fst = xs.filter f.has
  format : ∀ r ∈ rs, r.1.Format r.2

def payload (rs : List (Field × List UInt8)) : List UInt8 := rs.flatMap Prod.snd

@[simp] theorem payload_append (rs rs' : List (Field × List UInt8)) :
    payload (rs ++ rs') = payload rs ++ payload rs' := List.flatMap_append

@[simp] theorem payload_singleton (x : Field) (bs : List UInt8) : payload [(x, bs)] = bs := by
  simp [payload]

namespace Collected

variable {f : Fields} {xs ys : List Field} {rs rs' : List (Field × List UInt8)} {x : Field}

theorem nil : Collected f [] [] := ⟨rfl, fun _ h => (by cases h)⟩

theorem append (h : Collected f xs rs) (h' : Collected f ys rs') :
    Collected f (xs ++ ys) (rs ++ rs') where
  fields := by rw [List.map_append, List.filter_append, h.fields, h'.fields]
  format := List.forall_mem_append.mpr ⟨h.format, h'.format⟩

theorem present {bs : List UInt8} (hx : f.has x = true) (hb : x.Format bs) :
    Collected f [x] [(x, bs)] where
  fields := by rw [List.filter_cons_of_pos hx]; rfl
  format := List.forall_mem_singleton.mpr hb

theorem absent (hx : f.has x = false) : Collected f [x] [] where
  fields := by rw [List.filter_cons_of_neg (by rw [hx]; exact Bool.false_ne_true)]; rfl
  format := fun _ h => (by cases h)

theorem skip (h : Collected f xs rs) (hx : f.has x = false) : Collected f (xs ++ [x]) rs := by
  have happend := h.append (absent hx)
  rwa [List.append_nil] at happend

theorem mem (h : Collected f xs rs) {r : Field × List UInt8} (hr : r ∈ rs) : r.1 ∈ xs := by
  have hmem : r.1 ∈ rs.map Prod.fst := List.mem_map_of_mem hr
  rw [h.fields] at hmem
  exact List.mem_of_mem_filter hmem

theorem has (h : Collected f xs rs) {r : Field × List UInt8} (hr : r ∈ rs) : f.has r.1 = true := by
  have hmem : r.1 ∈ rs.map Prod.fst := List.mem_map_of_mem hr
  rw [h.fields] at hmem
  exact List.of_mem_filter hmem

/-- An announced field has been received. -/
theorem exists_of_has (h : Collected f xs rs) (hx : x ∈ xs) (hf : f.has x = true) :
    ∃ bs, (x, bs) ∈ rs := by
  have hmem : x ∈ rs.map Prod.fst := by
    rw [h.fields]
    exact List.mem_filter.mpr ⟨hx, hf⟩
  obtain ⟨⟨y, bs⟩, hr, rfl⟩ := List.mem_map.mp hmem
  exact ⟨bs, hr⟩

end Collected

/-- The fields of the first screen. -/
def firstFields : List Field :=
  [.capital, .restakeEarnings, .openForDelegation, .keys]

def commissionFields : List Field :=
  [.transactionFeeCommission, .bakingRewardCommission, .finalizationRewardCommission]

theorem firstFields_ne : ∀ x ∈ firstFields, x ≠ .metadataUrl := by decide

theorem commissionFields_ne : ∀ x ∈ commissionFields, x ≠ .metadataUrl := by decide

/-! ## What is shown -/

/-- The arrays that the URL screens show. -/
def urlTexts (steps : List Step) : List (List UInt8) :=
  (steps.filter fun st => st.title = "URL").map Step.text

/-- The arrays begin with the pages of `url`. -/
def Pages (url : List UInt8) (arrays : List (List UInt8)) : Prop :=
  ∃ pages : List (List UInt8), pages.flatten = url ∧ List.Forall₂ (· <+: ·) pages arrays

/-- A page that begins its array. -/
theorem Pages.append {url page array : List UInt8} {arrays : List (List UInt8)}
    (h : Pages url arrays) (hp : page <+: array) : Pages (url ++ page) (arrays ++ [array]) := by
  obtain ⟨pages, rfl, hpages⟩ := h
  refine ⟨pages ++ [page], by rw [List.flatten_concat], ?_⟩
  exact List.rel_append hpages (.cons hp .nil)

/-- The URL screens of the session show the pages of `url`, and a NUL behind the last one. -/
def UrlShown (s : Shared) (url : List UInt8) : Prop :=
  ∃ part page arrays array, url = part ++ page ∧
    urlTexts (screens s).flatten = arrays ++ [array] ∧ Pages part arrays ∧ page ++ [0] <+: array

/-- The session has shown these bytes of a field. -/
def Shown (s : Shared) (x : Field) (bs : List UInt8) : Prop :=
  if x = .metadataUrl ∧ beNat (bs.take 2) ≠ 0 then UrlShown s (bs.drop 2)
  else ((x.caption bs).1, some (x.caption bs).2) ∈ shownSteps s

section Shown

variable {s : Shared} {x : Field} {bs : List UInt8}

theorem urlTexts_append (a b : List Step) : urlTexts (a ++ b) = urlTexts a ++ urlTexts b := by
  rw [urlTexts, List.filter_append, List.map_append]
  rfl

theorem urlTexts_uxFlowInit (s : Shared) (flow : List Step) :
    urlTexts (screens (s.uxFlowInit flow)).flatten =
      urlTexts (screens s).flatten ++ urlTexts flow := by
  rw [screens_uxFlowInit, List.flatten_concat, urlTexts_append]

/-- A step of a new screen. -/
theorem Shown.of_step {st : Step} {flow : List Step} (hst : st ∈ flow)
    (hx : ¬ (x = .metadataUrl ∧ beNat (bs.take 2) ≠ 0))
    (h : (st.title, st.shown) = ((x.caption bs).1, some (x.caption bs).2)) :
    Shown (s.uxFlowInit flow) x bs := by
  rw [Shown, if_neg hx, shownSteps_uxFlowInit, ← h]
  exact List.mem_append_right _ (List.mem_map_of_mem hst)

/-- Screens that follow do not disturb what has been shown. -/
theorem Shown.mono (h : Shown s x bs) {flow : List Step}
    (hurl : x = .metadataUrl → urlTexts flow = []) : Shown (s.uxFlowInit flow) x bs := by
  unfold Shown at h ⊢
  split
  · rename_i hx
    rw [if_pos hx] at h
    unfold UrlShown
    rw [urlTexts_uxFlowInit, hurl hx.1, List.append_nil]
    exact h
  · rename_i hx
    rw [if_neg hx] at h
    rw [shownSteps_uxFlowInit]
    exact List.mem_append_left _ h

theorem Shown.congr {s' : Shared} (h : Shown s x bs) (hs : screens s' = screens s) :
    Shown s' x bs := by
  unfold Shown UrlShown at h ⊢
  rwa [hs, shownSteps_congr hs]

/-- Nothing is shown without a screen. -/
theorem not_shown (h : screens s = []) : ¬ Shown s x bs := by
  unfold Shown UrlShown shownSteps
  rw [h]
  split
  · rintro ⟨part, page, arrays, array, -, htexts, -⟩
    have hlen := congrArg List.length htexts
    simp [urlTexts] at hlen
  · simp

end Shown

/-! ## The dynamically built arrays -/

/-- The array that a screen is built in. -/
def arrayLength (flow : List Step) : Nat :=
  if flow.any fun st => st.title = "URL" ∨ st.title = "Empty URL" then urlLength
  else if flow.any fun st => st.title = "Commission" then commissionLength
  else firstLength

/-- The steps and the end marker fit the array. -/
def FitsArray (flow : List Step) : Prop := flow.length + 1 ≤ arrayLength flow

instance (flow : List Step) : Decidable (FitsArray flow) :=
  inferInstanceAs (Decidable (_ ≤ _))

/-- All four fields of the first screen and nothing else. -/
def Fields.firstOnly (f : Fields) : Bool :=
  f.hasCapital && f.hasRestakeEarnings && f.hasOpenForDelegation && f.hasKeys &&
    !f.hasMetadataUrl && !f.hasCommissionRate

section Arrays

variable (p : Step → Bool) (b : Bool) (st : Step)

@[simp] theorem optionalStep_length : (optionalStep b st).length = b.toNat := by
  cases b <;> rfl

@[simp] theorem closingSteps_length : (closingSteps b).length = 2 - b.toNat := by
  cases b <;> rfl

@[simp] theorem reviewSteps_length (s : Shared) : (reviewSteps b s).length = 2 * b.toNat := by
  cases b <;> rfl

@[simp] theorem optionalStep_any : (optionalStep b st).any p = (b && p st) := by
  cases b <;> simp [optionalStep]

end Arrays

/-- The first array is one step too short for a screen with all four fields and the Sign step. -/
theorem first_fits (d : Device Context) :
    FitsArray (uxSignConfigureBakerFirst d) ↔ d.ctx.fields.firstOnly = false := by
  have harray : arrayLength (uxSignConfigureBakerFirst d) = firstLength := by
    unfold arrayLength uxSignConfigureBakerFirst closingSteps
    simp only [List.any_append, optionalStep_any]
    cases d.ctx.capitalRestakeDelegation.stopBaking <;>
      cases d.ctx.fields.hasMetadataUrl || d.ctx.fields.hasCommissionRate <;>
      simp [reviewSteps, uxContinue, uxSignFlowSharedReview, uxSignFlowAccountSenderView,
        uxSignFlowSharedSign, uxSignFlowSharedDecline]
  rw [FitsArray, harray]
  simp only [uxSignConfigureBakerFirst, List.length_append, optionalStep_length,
    closingSteps_length, reviewSteps_length, Fields.firstOnly, firstLength]
  generalize d.ctx.fields.hasCapital = a, d.ctx.fields.hasRestakeEarnings = b,
    d.ctx.fields.hasOpenForDelegation = c, d.ctx.fields.hasKeys = k,
    d.ctx.fields.hasMetadataUrl = u, d.ctx.fields.hasCommissionRate = r
  revert a b c k u r
  decide

theorem url_fits (last : Bool) (d : Device Context) :
    FitsArray (uxSignConfigureBakerUrl last d) := by
  have harray : arrayLength (uxSignConfigureBakerUrl last d) = urlLength := by
    unfold arrayLength uxSignConfigureBakerUrl
    cases last
    · simp
    · by_cases h : d.ctx.url.urlLength = 0 <;> simp [h]
  have hlen : (uxSignConfigureBakerUrl last d).length ≤ 2 * d.ctx.firstDisplay.toNat + 3 := by
    cases last
    · simp [uxSignConfigureBakerUrl]
    · simp only [uxSignConfigureBakerUrl, ite_true, List.length_append, List.length_cons,
        reviewSteps_length, closingSteps_length]
      omega
  have := Bool.toNat_le d.ctx.firstDisplay
  rw [FitsArray, harray, urlLength]
  omega

theorem commission_fits (d : Device Context) :
    FitsArray (uxSignConfigureBakerCommission d) := by
  let f := d.ctx.fields
  have hlen : (uxSignConfigureBakerCommission d).length =
      2 * d.ctx.firstDisplay.toNat + (f.hasCommissionRate.toNat +
        (f.hasTransactionFeeCommission.toNat + (f.hasBakingRewardCommission.toNat +
          (f.hasFinalizationRewardCommission.toNat + 2)))) := by
    simp [uxSignConfigureBakerCommission, f]
  have harray : arrayLength (uxSignConfigureBakerCommission d) =
      if f.hasCommissionRate then commissionLength else firstLength := by
    unfold arrayLength uxSignConfigureBakerCommission closingSteps
    simp only [List.any_append, optionalStep_any]
    cases d.ctx.firstDisplay <;> cases f.hasCommissionRate <;>
      simp [reviewSteps, uxSignFlowSharedReview, uxSignFlowAccountSenderView,
        uxSignFlowSharedSign, uxSignFlowSharedDecline]
  have := Bool.toNat_le d.ctx.firstDisplay
  have := Bool.toNat_le f.hasTransactionFeeCommission
  have := Bool.toNat_le f.hasBakingRewardCommission
  have := Bool.toNat_le f.hasFinalizationRewardCommission
  rw [FitsArray, harray, hlen]
  cases h : f.hasCommissionRate
  · simp [firstLength]; omega
  · simp [commissionLength]; omega

/-! ## Screens -/

section Callbacks

variable {cbs : List Callback}

theorem optionalStep_only {st : Step} (b : Bool) (h : st.callback ∈ cbs) :
    Only cbs (optionalStep b st) := by
  cases b <;> simp [Only, optionalStep, h]

theorem reviewSteps_only (b : Bool) (s : Shared) (h : .none ∈ cbs) : Only cbs (reviewSteps b s) := by
  cases b <;>
    simp [Only, reviewSteps, uxSignFlowSharedReview, uxSignFlowAccountSenderView, h]

theorem closingSteps_only_more (h : .sendSuccessNoIdle ∈ cbs) : Only cbs (closingSteps true) := by
  simp [Only, closingSteps, uxContinue, h]

theorem closingSteps_only_last (h : .buildAndSignTransactionHash ∈ cbs)
    (h' : .sendUserRejection ∈ cbs) : Only cbs (closingSteps false) := by
  simp [Only, closingSteps, uxSignFlowSharedSign, uxSignFlowSharedDecline, h, h']

theorem uxFirst_only (d : Device Context) (h : .none ∈ cbs)
    (hc : Only cbs (closingSteps (d.ctx.fields.hasMetadataUrl || d.ctx.fields.hasCommissionRate))) :
    Only cbs (uxSignConfigureBakerFirst d) := by
  unfold uxSignConfigureBakerFirst
  refine .append (.append (.append (.append (.append (reviewSteps_only _ _ h) ?_) ?_) ?_) ?_) hc
  · refine optionalStep_only _ ?_
    split <;> exact h
  · exact optionalStep_only _ h
  · exact optionalStep_only _ h
  · exact optionalStep_only _ h

theorem uxUrl_only (d : Device Context) (h : .none ∈ cbs)
    (hc : Only cbs (closingSteps d.ctx.fields.hasCommissionRate)) :
    Only cbs (uxSignConfigureBakerUrl true d) := by
  refine .append (reviewSteps_only _ _ h) ?_
  intro st hst
  rcases List.mem_cons.mp hst with rfl | hst
  · split <;> exact h
  · exact hc st hst

/-- A page of the URL that is not the last one. -/
theorem uxUrlPage_only (d : Device Context) :
    Only [.none, .sendSuccessNoIdle] (uxSignConfigureBakerUrl false d) :=
  .append (reviewSteps_only _ _ (by decide)) (by simp [Only])

theorem uxCommission_only (d : Device Context) :
    Only [.none, .buildAndSignTransactionHash, .sendUserRejection]
      (uxSignConfigureBakerCommission d) := by
  unfold uxSignConfigureBakerCommission
  refine .append (.append (.append (.append (.append (reviewSteps_only _ _ ?_)
    (optionalStep_only _ ?_)) (optionalStep_only _ ?_)) (optionalStep_only _ ?_))
    (optionalStep_only _ ?_)) (closingSteps_only_last ?_ ?_)
  all_goals exact by simp

end Callbacks

theorem mem_optionalStep {b : Bool} (h : b = true) (st : Step) : st ∈ optionalStep b st := by
  rw [optionalStep, if_pos h]
  exact List.mem_singleton_self st

/-- The step for a field, as the screens have it. Pages of a URL have steps of their own. -/
def Context.step (c : Context) : Field → Step
  | .capital =>
    if c.capitalRestakeDelegation.stopBaking then { title := "Stop", text := literal "baking" }
    else { title := "Amount to stake", text := c.capitalRestakeDelegation.displayCapital.bytes }
  | .restakeEarnings =>
    { title := "Restake earnings", text := c.capitalRestakeDelegation.displayRestake.bytes }
  | .openForDelegation =>
    { title := "Pool status", text := c.capitalRestakeDelegation.displayOpenForDelegation.bytes }
  | .keys => { title := "Update baker", text := literal "keys" }
  | .metadataUrl => { title := "Empty URL", text := literal "" }
  | .transactionFeeCommission =>
    { title := "Transaction fee", text := c.commissionRates.transactionFeeCommissionRate.bytes }
  | .bakingRewardCommission =>
    { title := "Baking reward", text := c.commissionRates.bakingRewardCommissionRate.bytes }
  | .finalizationRewardCommission =>
    { title := "Finalization reward",
      text := c.commissionRates.finalizationRewardCommissionRate.bytes }

theorem uxFirst_step (d : Device Context) {x : Field} (hx : x ∈ firstFields)
    (hf : d.ctx.fields.has x = true) : d.ctx.step x ∈ uxSignConfigureBakerFirst d := by
  have hst := mem_optionalStep hf
  unfold uxSignConfigureBakerFirst
  simp only [List.mem_append]
  simp only [firstFields, List.mem_cons, List.not_mem_nil, or_false] at hx
  rcases hx with rfl | rfl | rfl | rfl
  · exact .inl (.inl (.inl (.inl (.inr (hst _)))))
  · exact .inl (.inl (.inl (.inr (hst _))))
  · exact .inl (.inl (.inr (hst _)))
  · exact .inl (.inr (hst _))

theorem uxCommission_step (d : Device Context) {x : Field} (hx : x ∈ commissionFields)
    (hf : d.ctx.fields.has x = true) : d.ctx.step x ∈ uxSignConfigureBakerCommission d := by
  have hst := mem_optionalStep hf
  unfold uxSignConfigureBakerCommission
  simp only [List.mem_append]
  simp only [commissionFields, List.mem_cons, List.not_mem_nil, or_false] at hx
  rcases hx with rfl | rfl | rfl
  · exact .inl (.inl (.inl (.inr (hst _))))
  · exact .inl (.inl (.inr (hst _)))
  · exact .inl (.inr (hst _))

theorem uxUrl_empty (d : Device Context) (h : d.ctx.url.urlLength = 0) :
    d.ctx.step .metadataUrl ∈ uxSignConfigureBakerUrl true d := by
  refine List.mem_append_right _ ?_
  rw [if_pos rfl, if_pos h]
  exact List.mem_cons_self

/-! ## The URL screens -/

theorem urlTexts_review (firstDisplay : Bool) (s : Shared) :
    urlTexts (reviewSteps firstDisplay s) = [] := by
  cases firstDisplay <;> rfl

theorem urlTexts_closing (more : Bool) : urlTexts (closingSteps more) = [] := by
  cases more <;> rfl

/-- A screen with the given page. -/
theorem urlTexts_page (d : Device Context) (last : Bool)
    (h : last = true → d.ctx.url.urlLength ≠ 0) :
    urlTexts (uxSignConfigureBakerUrl last d) = [d.ctx.url.urlDisplay.bytes] := by
  unfold uxSignConfigureBakerUrl
  rw [urlTexts_append, urlTexts_review, List.nil_append]
  cases last with
  | false => rfl
  | true =>
    simp only [if_true, if_neg (h rfl)]
    show [d.ctx.url.urlDisplay.bytes] ++ urlTexts (closingSteps _) = _
    rw [urlTexts_closing, List.append_nil]

theorem urlTexts_empty (d : Device Context) (h : d.ctx.url.urlLength = 0) :
    urlTexts (uxSignConfigureBakerUrl true d) = [] := by
  unfold uxSignConfigureBakerUrl
  rw [urlTexts_append, urlTexts_review, List.nil_append]
  simp only [if_true, if_pos h]
  exact urlTexts_closing _

theorem urlTexts_optional (b : Bool) {st : Step} (h : st.title ≠ "URL") :
    urlTexts (optionalStep b st) = [] := by
  cases b <;> simp [urlTexts, optionalStep, h]

theorem urlTexts_first (d : Device Context) : urlTexts (uxSignConfigureBakerFirst d) = [] := by
  unfold uxSignConfigureBakerFirst
  have hcapital : (if d.ctx.capitalRestakeDelegation.stopBaking then
      ({ title := "Stop", text := literal "baking" } : Step) else
      { title := "Amount to stake",
        text := d.ctx.capitalRestakeDelegation.displayCapital.bytes }).title ≠ "URL" := by
    split <;> simp
  simp only [urlTexts_append, urlTexts_review, urlTexts_closing, urlTexts_optional _ hcapital,
    List.append_nil, List.nil_append]
  rw [urlTexts_optional _ (by simp), urlTexts_optional _ (by simp), urlTexts_optional _ (by simp)]
  rfl

theorem urlTexts_commission (d : Device Context) :
    urlTexts (uxSignConfigureBakerCommission d) = [] := by
  unfold uxSignConfigureBakerCommission
  simp only [urlTexts_append, urlTexts_review, urlTexts_closing, List.append_nil, List.nil_append]
  rw [urlTexts_optional _ (by simp), urlTexts_optional _ (by simp), urlTexts_optional _ (by simp),
    urlTexts_optional _ (by simp)]
  rfl

/-! ## Reading the fields -/

/-- The union holds the texts of the fields. -/
def Holds (c : Context) (rs : List (Field × List UInt8)) : Prop :=
  ∀ r ∈ rs, ((c.step r.1).title, (c.step r.1).shown) =
    ((r.1.caption r.2).1, some (r.1.caption r.2).2)

/-- What reading a field leaves alone: the announced fields, and the union in front of `off`. -/
structure Kept (off : Nat) (c c' : Context) : Prop where
  fields : c'.fields = c.fields
  blob : ∀ i < off, c'.blob.bytes[i]? = c.blob.bytes[i]?

theorem Kept.of_blob {off : Nat} {c c' : Context} (hf : c'.fields = c.fields)
    (hb : c'.blob = c.blob) : Kept off c c' := ⟨hf, fun _ _ => by rw [hb]⟩

theorem Kept.refl (off : Nat) (c : Context) : Kept off c c := .of_blob rfl rfl

theorem Kept.write (off : Nat) (bs : List UInt8) (c : Context) : Kept off c (c.write off bs) :=
  ⟨rfl, fun _ hi => Buffer.getElem?_memmove_of_lt c.blob bs hi⟩

theorem Kept.trans {off off' : Nat} {c c' c'' : Context} (h : Kept off c c')
    (h' : Kept off' c' c'') (hle : off ≤ off') : Kept off c c'' :=
  ⟨h'.fields.trans h.fields, fun i hi => (h'.blob i (by omega)).trans (h.blob i hi)⟩

theorem Kept.part {off o m : Nat} {c c' : Context} (h : Kept off c c') (hom : o + m ≤ 258)
    (hle : o + m ≤ off) : c'.blob.part o m hom = c.blob.part o m hom :=
  Buffer.part_congr hom fun i hi => h.blob i (by omega)

/-- The step of a field whose text lies in front of what was written. -/
theorem Kept.step {off : Nat} {c c' : Context} (h : Kept off c c') {x : Field}
    (hx : x.limit ≤ off) : c'.step x = c.step x := by
  cases x with
  | capital =>
    have hle : 31 ≤ off := hx
    have hstop : c'.blob.ptr offStopBaking = c.blob.ptr offStopBaking := by
      unfold Buffer.ptr Ptr.ofBytes
      rw [List.getD_eq_getElem?_getD, List.getD_eq_getElem?_getD,
        h.blob offStopBaking (by rw [offStopBaking]; omega)]
    simp only [Context.step, Context.capitalRestakeDelegation, hstop,
      h.part (o := offDisplayCapital) (m := 30) (by decide) hle]
    rfl
  | restakeEarnings =>
    simp only [Context.step, Context.capitalRestakeDelegation,
      h.part (o := offDisplayRestake) (m := 4) (by decide) hx]
  | openForDelegation =>
    simp only [Context.step, Context.capitalRestakeDelegation,
      h.part (o := offDisplayOpenForDelegation) (m := 15) (by decide) hx]
  | keys => rfl
  | metadataUrl => rfl
  | transactionFeeCommission =>
    simp only [Context.step, Context.commissionRates,
      h.part (o := offTransactionFeeCommissionRate) (m := 8) (by decide) hx]
  | bakingRewardCommission =>
    simp only [Context.step, Context.commissionRates,
      h.part (o := offBakingRewardCommissionRate) (m := 8) (by decide) hx]
  | finalizationRewardCommission =>
    simp only [Context.step, Context.commissionRates,
      h.part (o := offFinalizationRewardCommissionRate) (m := 8) (by decide) hx]

theorem Holds.kept {off : Nat} {c c' : Context} {rs : List (Field × List UInt8)}
    (h : Holds c rs) (hk : Kept off c c') (hle : ∀ r ∈ rs, r.1.limit ≤ off) : Holds c' rs := by
  intro r hr
  rw [hk.step (hle r hr)]
  exact h r hr

/-- The fields `xs` have been read: the announced ones are hashed, the union holds their texts, and
what lies in front of `off` in it is as before. -/
structure Took (off : Nat) (xs : List Field) (rs : List (Field × List UInt8))
    (t t' : Device Context) : Prop where
  fields : Collected t.ctx.fields xs rs
  hash : Hashes (payload rs) t.shared t'.shared
  holds : Holds t'.ctx rs
  kept : Kept off t.ctx t'.ctx

theorem Took.append {off off' : Nat} {xs ys : List Field} {rs rs' : List (Field × List UInt8)}
    {t t' t'' : Device Context} (h : Took off xs rs t t') (h' : Took off' ys rs' t' t'')
    (hle : off ≤ off') (hlimit : ∀ x ∈ xs, x.limit ≤ off') :
    Took off (xs ++ ys) (rs ++ rs') t t'' where
  fields := h.fields.append (h.kept.fields ▸ h'.fields)
  hash := by
    rw [payload_append]
    exact h.hash.trans h'.hash
  holds := by
    refine List.forall_mem_append.mpr ⟨?_, h'.holds⟩
    exact h.holds.kept h'.kept fun r hr => hlimit r.1 (h.fields.mem hr)
  kept := h.kept.trans h'.kept hle

section Read

variable {off : Nat} {x : Field} {bs : List UInt8} {t : Device Context} {c : Context}

/-- An announced field, with its bytes. -/
theorem Took.present (hf : t.ctx.fields.has x = true) (hb : x.Format bs)
    (hk : Kept off t.ctx c)
    (hs : ((c.step x).title, (c.step x).shown) = ((x.caption bs).1, some (x.caption bs).2)) :
    Took off [x] [(x, bs)] t ⟨c, t.shared.updateHash bs⟩ where
  fields := .present hf hb
  hash := by
    rw [payload_singleton]
    exact .update _ _
  holds := List.forall_mem_singleton.mpr hs
  kept := hk

theorem Took.absent (hf : ¬ t.ctx.fields.has x = true) : Took off [x] [] t t where
  fields := .absent (by simpa using hf)
  hash := .nil _
  holds := fun _ h => (by cases h)
  kept := .refl _ _

/-- What an array shows to which a text has been written with its NUL. -/
theorem cString_write (c : Context) (off m : Nat) (h : off + m ≤ 258) (text : List UInt8)
    (h0 : 0 ∉ text) (hlen : text.length < m) :
    cString ((c.write off (text ++ [0])).blob.part off m h).bytes = some text := by
  have hpart := Buffer.part_memmove c.blob (text ++ [0]) h
  show cString ((c.blob.memmove off (text ++ [0])).part off m h).bytes = _
  rw [hpart]
  exact cString_memmove _ _ h0 hlen

theorem zero_not_mem_amount (n : Nat) : 0 ∉ ascii "CCD " ++ fixedPoint 6 n := by
  intro hz
  rcases List.mem_append.mp hz with hz | hz
  · exact absurd hz (by decide)
  · exact zero_not_mem_fixedPoint _ _ hz

theorem step_stop (c : Context) :
    (c.write offStopBaking [1]).step .capital = { title := "Stop", text := literal "baking" } := by
  have hptr := Buffer.ptr_memmove c.blob [1] (by decide) 0 (by decide)
  have hstop : (c.write offStopBaking [1]).capitalRestakeDelegation.stopBaking = true := by
    show decide ((c.blob.memmove 0 [1]).ptr 0 ≠ 0) = true
    rw [hptr]
    rfl
  rw [Context.step, if_pos hstop]

/-- The amount is written behind the mark, which stays 0. -/
theorem step_amount (c : Context) (text : List UInt8) :
    ((c.write offStopBaking [0]).write offDisplayCapital text).step .capital =
      { title := "Amount to stake", text := (((c.write offStopBaking [0]).write offDisplayCapital
        text).blob.part offDisplayCapital 30 (by decide)).bytes } := by
  have hptr := Buffer.ptr_memmove c.blob [0] (by decide) 0 (by decide)
  have hbyte : ((c.blob.memmove 0 [0]).memmove 1 text).ptr 0 = (c.blob.memmove 0 [0]).ptr 0 := by
    unfold Buffer.ptr Ptr.ofBytes
    rw [List.getD_eq_getElem?_getD, List.getD_eq_getElem?_getD,
      Buffer.getElem?_memmove_of_lt _ _ (by decide)]
  have hstop : ((c.write offStopBaking [0]).write offDisplayCapital
      text).capitalRestakeDelegation.stopBaking ≠ true := by
    show decide (((c.blob.memmove 0 [0]).memmove 1 text).ptr 0 ≠ 0) ≠ true
    rw [hbyte, hptr]
    decide
  rw [Context.step, if_neg hstop]
  rfl

theorem readCapital_took (cdata : Ptr) (t : Device Context) :
    wp (readCapital cdata) (fun _ t' => ∃ rs, Took 0 [.capital] rs t t') (fun _ _ => True) t := by
  have hslice : (cdata.u8be 0).toNat = beNat (cdata.slice 8) := by
    rw [Ptr.u8be_toNat, Ptr.advance_zero]
  simp only [readCapital, wp_bind, Fw.wp_getCtx, wp_ite, Fw.wp_modifyCtx, Fw.wp_eval, wp_pure,
    wp_updateHash, implies_true, and_true]
  refine ⟨fun hf => ⟨fun hz => ?_, fun hz text htext => ?_⟩, fun hf => ⟨[], .absent hf⟩⟩
  · refine ⟨_, .present hf (Ptr.slice_length _ _) (.write _ _ _) ?_⟩
    have hzero : beNat (cdata.slice 8) = 0 := by rw [← hslice, hz]; rfl
    rw [step_stop, Field.caption, if_pos hzero]
    exact congrArg _ (cString_literal "baking" (by decide))
  · have htext' := htext.symm.trans (amountToGtuDisplay_thirty (cdata.u8be 0))
    cases htext'
    have hlen : (ascii "CCD " ++ fixedPoint 6 (cdata.u8be 0).toNat).length < 30 := by
      have := fixedLength_six_le (cdata.u8be 0)
      rw [List.length_append, fixedPoint_length]
      show 4 + _ < 30
      omega
    have hne : beNat (cdata.slice 8) ≠ 0 := by
      rw [← hslice]
      exact fun h => hz (UInt64.toNat_inj.mp h)
    refine ⟨_, .present hf (Ptr.slice_length _ _)
      ((Kept.write offStopBaking [0] t.ctx).trans (.write offDisplayCapital _ _) (by decide)) ?_⟩
    rw [step_amount, Field.caption, if_neg hne, ← hslice]
    exact congrArg _ (cString_write _ offDisplayCapital 30 (by decide) _ (zero_not_mem_amount _) hlen)

theorem readRestake_took (cdata : Ptr) (t : Device Context) :
    wp (readRestake cdata) (fun _ t' => ∃ rs, Took 31 [.restakeEarnings] rs t t') (fun _ _ => True)
      t := by
  simp only [readRestake, wp_bind, Fw.wp_getCtx, wp_ite, Fw.wp_modifyCtx, Fw.wp_throwIf, wp_pure,
    wp_updateHash, implies_true, true_and]
  refine ⟨fun hf hok => ?_, fun hf => ⟨[], .absent hf⟩⟩
  have hslice : cdata.slice 1 = [cdata 0] := rfl
  by_cases h0 : cdata 0 = 0
  · refine ⟨_, .present hf (.inl (by rw [hslice, h0])) (.write _ _ _) ?_⟩
    rw [if_pos h0, hslice, h0]
    exact congrArg _ (cString_write t.ctx offDisplayRestake 4 (by decide) (ascii "No") (by decide)
      (by decide))
  · have h1 : cdata 0 = 1 := by_contra fun h1 => hok ⟨h0, h1⟩
    refine ⟨_, .present hf (.inr (by rw [hslice, h1])) (.write _ _ _) ?_⟩
    rw [if_neg h0, hslice, h1]
    exact congrArg _ (cString_write t.ctx offDisplayRestake 4 (by decide) (ascii "Yes") (by decide)
      (by decide))

theorem readOpenForDelegation_took (cdata : Ptr) (t : Device Context) :
    wp (readOpenForDelegation cdata) (fun _ t' => ∃ rs, Took 35 [.openForDelegation] rs t t')
      (fun _ _ => True) t := by
  simp only [readOpenForDelegation, wp_bind, Fw.wp_getCtx, wp_ite, wp_pure, wp_updateHash]
  refine ⟨fun hf => ?_, fun hf => ⟨[], .absent hf⟩⟩
  have hslice : cdata.slice 1 = [cdata 0] := rfl
  have htook {text : List UInt8} (h0 : 0 ∉ text) (hlen : text.length < 15)
      (hfmt : Field.Format .openForDelegation [cdata 0])
      (hcap : (Field.caption .openForDelegation [cdata 0]).2 = text) :
      Took 35 [.openForDelegation] [(.openForDelegation, cdata.slice 1)] t
        ⟨t.ctx.write offDisplayOpenForDelegation (text ++ [0]),
          t.shared.updateHash (cdata.slice 1)⟩ := by
    refine .present hf (hslice ▸ hfmt) (.write _ _ _) ?_
    have hshown := cString_write t.ctx offDisplayOpenForDelegation 15 (by decide) text h0 hlen
    rw [hslice, hcap]
    exact congrArg _ hshown
  unfold openStatusText
  by_cases h0 : cdata 0 = 0
  · rw [if_pos h0]
    exact ⟨_, htook (by decide) (by decide) (.inl (by rw [h0])) (by rw [h0]; rfl)⟩
  · rw [if_neg h0]
    by_cases h1 : cdata 0 = 1
    · rw [if_pos h1]
      exact ⟨_, htook (by decide) (by decide) (.inr (.inl (by rw [h1]))) (by rw [h1]; rfl)⟩
    · rw [if_neg h1]
      by_cases h2 : cdata 0 = 2
      · rw [if_pos h2]
        exact ⟨_, htook (by decide) (by decide) (.inr (.inr (by rw [h2]))) (by rw [h2]; rfl)⟩
      · rw [if_neg h2]
        trivial

/-- One commission rate, whose step shows the array at `off`. -/
theorem readRate_took {title : String} {present : Bool} (cdata : Ptr) (t : Device Context)
    (h258 : off + 8 ≤ 258) (hp : present = t.ctx.fields.has x)
    (hfmt : ∀ bs : List UInt8, bs.length = 4 → beNat bs ≤ 100000 → x.Format bs)
    (hcap : ∀ bs, x.caption bs = (title, Field.percentage bs))
    (hstep : ∀ c : Context, c.step x = { title, text := (c.blob.part off 8 h258).bytes }) :
    wp (readRate present cdata off) (fun _ t' => ∃ rs, Took off [x] rs t t') (fun _ _ => True)
      t := by
  have hslice : (cdata.u4be 0).toNat = beNat (cdata.slice 4) := by
    rw [Ptr.u4be_toNat, Ptr.advance_zero]
  simp only [readRate, wp_ite, wp_bind, Fw.wp_eval, Fw.wp_modifyCtx, wp_pure, wp_updateHash,
    implies_true, and_true]
  refine ⟨fun hf text htext => ?_, fun hf => ⟨[], .absent (hp ▸ hf)⟩⟩
  obtain ⟨hle, rfl, h0, hlen⟩ := fractionToPercentageDisplay_eight htext
  refine ⟨_, .present (hp ▸ hf) (hfmt _ (Ptr.slice_length _ _) (by rw [← hslice]; exact hle))
    (.write _ _ _) ?_⟩
  rw [hcap, hstep, Field.percentage, ← hslice]
  exact congrArg _ (cString_write t.ctx off 8 h258 _ h0 hlen)

end Read

end SignConfigureBaker
end ConcordiumLedger
