import ConcordiumLedger.Common.Rules
import ConcordiumLedger.Governance.App

/-!
# Governance.Rules

The rules of `Common.Rules` for what the update instructions share: reading an update header, and
the state in a struct with the description.
-/

namespace ConcordiumLedger

open CMem CProg CProg.Prog

variable {μ ν γ : Type}

/-! ## Update headers -/

/-- The update header and the type of a command that begins with a key path. -/
def updateHeaderOf (cdata : Ptr) : List UInt8 := (cdata.advance (1 + 4 * (cdata 0).toNat)).slice 29

/-- What comes after them. -/
def updatePayload (cdata : Ptr) : Ptr := cdata.advance (1 + 4 * (cdata 0).toNat + 29)

theorem updateHeaderOf_length (cdata : Ptr) : (updateHeaderOf cdata).length = 29 :=
  Ptr.slice_length _ _

/-- The key path, the update header and the type were read from a command. -/
structure UpdateHashed (cdata : Ptr) (s s' : Shared) : Prop where
  hash : s'.hash = updateHeaderOf cdata
  flows : flows s'.log = flows s.log
  screens : screens s' = screens s
  display : s'.display = s.display
  instruction : s'.currentInstruction = s.currentInstruction
  replyOwed : s'.replyOwed = s.replyOwed
  running : s'.running = s.running

theorem slice_twenty_nine (p : Ptr) : p.slice 28 ++ (p.advance 28).slice 1 = p.slice 29 :=
  (Ptr.slice_add p 28 1).symm

/-- The update type byte of a command that begins with a key path and an update header. -/
def updateTypeOf (cdata : Ptr) : UInt8 := cdata (1 + 4 * (cdata 0).toNat + 28)

/-- The update header without the type. -/
def headerBefore (cdata : Ptr) : List UInt8 := (cdata.advance (1 + 4 * (cdata 0).toNat)).slice 28

theorem updateHeaderOf_eq (cdata : Ptr) :
    updateHeaderOf cdata = headerBefore cdata ++ [updateTypeOf cdata] := by
  rw [updateHeaderOf, headerBefore, ← slice_twenty_nine]
  rfl

theorem updateHashed (cdata : Ptr) (s : Shared) :
    UpdateHashed cdata s (((s.loadPath cdata).sha256Init.updateHash (headerBefore cdata)).updateHash
      (((cdata.advance (1 + 4 * (cdata 0).toNat)).advance 28).slice 1)) where
  hash := by
    show ([] ++ _) ++ _ = _
    rw [List.nil_append]
    exact slice_twenty_nine _
  flows := by simp [flows]
  screens := by simp [screens, sessionStep, flows]
  display := rfl
  instruction := rfl
  replyOwed := rfl
  running := rfl

/-- Reading an update header: when the path is too long or the type is another one, an error is
thrown. -/
theorem wp_readUpdateHeader_iff {Q : Nat → Device γ → Prop} {E : Error → Device γ → Prop}
    {d : Device γ} {cdata : Ptr} {updateType : UInt8}
    (h : ¬ cdata 0 > 8 → updateTypeOf cdata = updateType → ∀ s', UpdateHashed cdata d.shared s' →
      Q (1 + 4 * (cdata 0).toNat + 29) ⟨d.ctx, s'⟩)
    (he : ¬ (cdata 0 ≤ 8 ∧ updateTypeOf cdata = updateType) → ∀ e s',
      flows s'.log = flows d.shared.log → E e ⟨d.ctx, s'⟩) :
    wp (readUpdateHeader cdata updateType) Q E d := by
  simp only [readUpdateHeader, hashUpdateHeaderAndType, hashHeaderAndType, wp_bind,
    wp_parseKeyDerivationPath, wp_cxSha256Init, wp_updateHash, Fw.wp_throwIf, wp_pure]
  have hbyte : (cdata.advance (1 + 4 * (cdata 0).toNat)).advance updateHeaderLength 0 =
      updateTypeOf cdata := rfl
  refine ⟨fun hpath => ?_, fun hpath => ⟨fun htype => ?_, fun htype => ?_⟩⟩
  · exact he (fun hok => UInt8.not_lt.mpr hok.1 hpath) _ _ (by simp [flows])
  · rw [hbyte] at htype
    exact he (fun hok => htype hok.2) _ _ (by simp [flows])
  · rw [hbyte, not_not] at htype
    exact h hpath htype _ (updateHashed cdata d.shared)

/-- Reading an update header: the type is the expected one. -/
theorem wp_readUpdateHeader_type {Q : Nat → Device γ → Prop} {E : Error → Device γ → Prop}
    {d : Device γ} {cdata : Ptr} {updateType : UInt8}
    (h : ∀ s', UpdateHashed cdata d.shared s' → updateTypeOf cdata = updateType →
      Q (1 + 4 * (cdata 0).toNat + 29) ⟨d.ctx, s'⟩)
    (he : ∀ e s', flows s'.log = flows d.shared.log → E e ⟨d.ctx, s'⟩) :
    wp (readUpdateHeader cdata updateType) Q E d :=
  wp_readUpdateHeader_iff (fun _ htype s' hs => h s' hs htype) fun _ => he

theorem wp_readUpdateHeader {Q : Nat → Device γ → Prop} {E : Error → Device γ → Prop}
    {d : Device γ} {cdata : Ptr} {updateType : UInt8}
    (h : ∀ s', UpdateHashed cdata d.shared s' →
      Q (1 + 4 * (cdata 0).toNat + 29) ⟨d.ctx, s'⟩)
    (he : ∀ e s', flows s'.log = flows d.shared.log → E e ⟨d.ctx, s'⟩) :
    wp (readUpdateHeader cdata updateType) Q E d :=
  wp_readUpdateHeader_type (fun s' hs _ => h s' hs) he

/-! ## The struct with the description -/

namespace WithDescription

variable {U : PUnit → Device (WithDescription γ) → Prop}
  {E : Error → Device (WithDescription γ) → Prop} {d : Device (WithDescription γ)}

@[simp] theorem wp_getInner {Q : γ → Device (WithDescription γ) → Prop} :
    wp getInner Q E d ↔ Q d.ctx.inner d := Iff.rfl

@[simp] theorem wp_modifyInner (f : γ → γ) :
    wp (modifyInner f) U E d ↔
      U ⟨⟩ ⟨{ d.ctx with inner := f d.ctx.inner }, d.shared⟩ := Iff.rfl

@[simp] theorem wp_getDescription
    {Q : DescriptionView.Context → Device (WithDescription γ) → Prop} :
    wp getDescription Q E d ↔ Q d.ctx.description d := Iff.rfl

@[simp] theorem wp_modifyDescription (f : DescriptionView.Context → DescriptionView.Context) :
    wp (modifyDescription f) U E d ↔
      U ⟨⟩ ⟨{ d.ctx with description := f d.ctx.description }, d.shared⟩ := Iff.rfl

end WithDescription

end ConcordiumLedger
