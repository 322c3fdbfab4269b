import ConcordiumLedger.Common.Screens

/-!
# Common.Restarts

The start of a session: a handler that is to sign something reads the key path and starts the hash
anew with the header of the transaction, before it shows anything.

* `Appends`, `Inner` — the hash only grows; the log grows by actions of one command.
* `Restarts p h x`   — when `x` returns, the path was read and the hash started anew; `p` and `h` say
  which of the two was done before `x`.
* `Heads n ks x`     — when `x` returns, the byte at `n` of what was hashed is one of `ks`.
* `KeepsHead n ks x` — so it is after `x` if it was before.
-/

namespace ConcordiumLedger

open CMem CProg CProg.Prog

variable {μ γ : Type} {α : Type}

/-! ## Relations -/

/-- The hash only grows. -/
def Appends (s s' : Shared) : Prop := s.hash <+: s'.hash

theorem Appends.of_eq {s s' : Shared} (h : s'.hash = s.hash) : Appends s s' :=
  ⟨[], by rw [List.append_nil, h]⟩

instance : Steady Appends where
  refl _ := List.prefix_rfl
  trans := List.IsPrefix.trans
  updateHash _ _ := List.prefix_append _ _
  sender _ _ := List.prefix_rfl

instance {K : ScreenKind → Prop} : Screens K Appends Appends where
  weaken h := h
  comp := List.IsPrefix.trans
  screen _ _ _ _ _ := List.prefix_rfl
  reply _ _ := List.prefix_rfl
  finished _ _ _ _ _ _ := List.prefix_rfl
  loading _ _ _ _ := List.prefix_rfl

instance : Waits Appends Appends Appends where
  weaken h := h
  comp := List.IsPrefix.trans
  wait h := h

instance (cdata : Ptr) : Loads Appends cdata := by
  refine ⟨fun γ => ⟨fun t => ?_⟩⟩
  rw [wp_parseKeyDerivationPath]
  exact ⟨fun _ => List.prefix_rfl, fun _ => List.prefix_rfl⟩

/-- Actions other than the start of a session and of a handler. -/
def Action.inner : Action → Bool
  | .setInstruction (some _) => false
  | .handler _ _ _ _ => false
  | _ => true

def Inner (s s' : Shared) : Prop := ∃ as, s'.log = s.log ++ as ∧ ∀ a ∈ as, a.inner = true

theorem Inner.of_act {s s' : Shared} (a : Action) (ha : a.inner = true)
    (h : s'.log = s.log ++ [a]) : Inner s s' := ⟨[a], h, by simpa using ha⟩

theorem Inner.of_log {s s' : Shared} (h : s'.log = s.log) : Inner s s' := ⟨[], by simp [h], by simp⟩

instance : Frame Inner where
  refl _ := .of_log rfl
  trans := by
    rintro s s' s'' ⟨as, hl, ha⟩ ⟨as', hl', ha'⟩
    refine ⟨as ++ as', by rw [hl', hl, List.append_assoc], fun a hmem => ?_⟩
    rcases List.mem_append.mp hmem with hmem | hmem
    · exact ha a hmem
    · exact ha' a hmem
  sha256Init _ := .of_act .sha256Init rfl rfl
  updateHash _ bytes := .of_act (.updateHash bytes) rfl rfl
  uxFlowInit _ flow := .of_act (.uxFlowInit flow) rfl rfl
  reply _ data sw := .of_act (.reply data sw) rfl rfl
  endSession _ := .of_act (.setInstruction none) rfl rfl
  sender _ _ := .of_log rfl
  signed _ path input := .of_act (.signed path input) rfl rfl
  exit _ := .of_log rfl

instance : Waits Inner Inner Inner := .of_frame fun _ => .of_log rfl

instance (cdata : Ptr) : Loads Inner cdata := by
  refine ⟨fun γ => ⟨fun t => ?_⟩⟩
  rw [wp_parseKeyDerivationPath]
  exact ⟨fun _ => .of_act .parseKeyDerivationPath rfl rfl,
    fun _ => .of_act .parseKeyDerivationPath rfl rfl⟩

theorem Touched.inner {s s' : Shared} (h : Touched s s') : Inner s s' := by
  obtain ⟨as, hl, ha⟩ := h.log
  refine ⟨as, hl, fun a hmem => ?_⟩
  have ht := ha a hmem
  cases a <;> simp_all [Action.touches, Action.inner]

/-! ## A new start -/

/-- The key path was read and the hash started anew. -/
def Restarted (s s' : Shared) : Prop :=
  ∃ as, s'.log = s.log ++ as ∧ (∀ a ∈ as, a.inner = true) ∧
    .parseKeyDerivationPath ∈ as ∧ .sha256Init ∈ as

theorem Restarted.extend {s s' s'' : Shared} (h : Restarted s s') (h' : Inner s' s'') :
    Restarted s s'' := by
  obtain ⟨as, hl, ha, hp, hh⟩ := h
  obtain ⟨as', hl', ha'⟩ := h'
  refine ⟨as ++ as', by rw [hl', hl, List.append_assoc], fun a hmem => ?_,
    List.mem_append_left _ hp, List.mem_append_left _ hh⟩
  rcases List.mem_append.mp hmem with hmem | hmem
  · exact ha a hmem
  · exact ha' a hmem

/-- Nothing is shown yet; `p` and `h` say what was done. -/
structure Starting (p h : Bool) (s s' : Shared) : Prop where
  touched : Touched s s'
  path : p = true → .parseKeyDerivationPath ∈ newActions s s'
  hash : h = true → .sha256Init ∈ newActions s s'

theorem Touched.newActions {s s' s'' : Shared} (h : Touched s s') (h' : Touched s' s'') :
    newActions s s'' = newActions s s' ++ newActions s' s'' := by
  obtain ⟨as, hl, -⟩ := h.log
  obtain ⟨as', hl', -⟩ := h'.log
  rw [newActions_of_log hl, newActions_of_log hl',
    newActions_of_log (by rw [hl', hl, List.append_assoc])]

theorem Starting.extend {p h : Bool} {s s' s'' : Shared} (hs : Starting p h s s')
    (ht : Touched s' s'') : Starting p h s s'' where
  touched := hs.touched.trans ht
  path hp := by
    rw [hs.touched.newActions ht]
    exact List.mem_append_left _ (hs.path hp)
  hash hh := by
    rw [hs.touched.newActions ht]
    exact List.mem_append_left _ (hs.hash hh)

theorem Starting.restarted {s s' : Shared} (h : Starting true true s s') : Restarted s s' := by
  obtain ⟨as, hl, -⟩ := h.touched.log
  obtain ⟨as', hl', ha'⟩ := h.touched.inner
  have heq : as' = as := List.append_cancel_left (hl'.symm.trans hl)
  have hnew := newActions_of_log hl
  refine ⟨as, hl, heq ▸ ha', ?_, ?_⟩
  · exact hnew ▸ h.path rfl
  · exact hnew ▸ h.hash rfl

class Restarts (p h : Bool) (x : Fw γ α) : Prop where
  holds : ∀ s t, Starting p h s t.shared → wp x (fun _ t' => Restarted s t'.shared)
    (fun _ t' => Touched s t'.shared ∨ Restarted s t'.shared) t

section Restarts

variable {p h : Bool} {x y : Fw γ α} {c : Prop} [Decidable c]

instance Restarts.done [hx : Ends AnyScreen Inner Inner Inner x] : Restarts true true x := by
  refine ⟨fun s t ht => ?_⟩
  have hr := ht.restarted
  exact wp_mono (hx.holds t) (fun _ _ hi => hr.extend hi) fun _ _ hi => .inr (hr.extend hi)

instance Restarts.ite [hx : Restarts p h x] [hy : Restarts p h y] :
    Restarts p h (if c then x else y) := by
  refine ⟨fun s t ht => ?_⟩
  rw [wp_ite]
  exact ⟨fun _ => hx.holds s t ht, fun _ => hy.holds s t ht⟩

instance Restarts.throw (e : Error) : Restarts p h (Fw.throw e : Fw γ α) :=
  ⟨fun _ _ ht => .inl ht.touched⟩

instance Restarts.on (m : Member μ γ) [hx : Restarts p h x] : Restarts p h (Fw.on m x) :=
  ⟨fun s t ht => (Fw.wp_on m x).mpr (hx.holds s (t.view m) ht)⟩

/-- Before the two. -/
instance (priority := low) Restarts.bind {β : Type} {k : α → Fw γ β} [hx : Moves Touched x]
    [hk : ∀ a, Restarts p h (k a)] : Restarts p h (x >>= k) := by
  refine ⟨fun s t ht => ?_⟩
  rw [wp_bind]
  refine wp_mono (hx.holds t) (fun a t' ht' => ?_) fun _ _ ht' => .inl (ht.touched.trans ht')
  exact (hk a).holds s t' (ht.extend ht')

/-- After the two. -/
instance (priority := low) Restarts.after {β : Type} {k : α → Fw γ β} [hx : Restarts p h x]
    [hk : ∀ a, Ends AnyScreen Inner Inner Inner (k a)] : Restarts p h (x >>= k) := by
  refine ⟨fun s t ht => ?_⟩
  rw [wp_bind]
  refine wp_mono (hx.holds s t ht) (fun a t' hr => ?_) fun _ _ h => h
  exact wp_mono ((hk a).holds t') (fun _ _ hi => hr.extend hi) fun _ _ hi => .inr (hr.extend hi)

instance Restarts.path {β : Type} {k : Nat → Fw γ β} (cdata : Ptr)
    [hk : ∀ n, Restarts true h (k n)] : Restarts p h (parseKeyDerivationPath cdata >>= k) := by
  refine ⟨fun s t ht => ?_⟩
  rw [wp_bind, wp_parseKeyDerivationPath]
  have htouch (t' : Shared) (hl : t'.log = t.shared.log ++ [.parseKeyDerivationPath])
      (hd : t'.display = t.shared.display) (ho : t'.replyOwed = t.shared.replyOwed)
      (hi : t'.currentInstruction = t.shared.currentInstruction)
      (hr : t'.running = t.shared.running) (ha : t'.asynchReply = t.shared.asynchReply) :
      Touched t.shared t' := .of_act rfl hl hd ho hi hr ha
  refine ⟨fun _ => .inl (ht.touched.trans (htouch _ rfl rfl rfl rfl rfl rfl)), fun _ => ?_⟩
  have hload := htouch (t.shared.loadPath cdata) rfl rfl rfl rfl rfl rfl
  refine (hk _).holds s _ ⟨(ht.extend hload).touched, fun _ => ?_, (ht.extend hload).hash⟩
  rw [ht.touched.newActions hload]
  refine List.mem_append_right _ ?_
  rw [@newActions_of_log _ _ [.parseKeyDerivationPath] rfl]
  exact List.mem_singleton_self _

instance Restarts.init {β : Type} {k : PUnit.{1} → Fw γ β} [hk : Restarts p true (k ⟨⟩)] :
    Restarts p h (cxSha256Init >>= k) := by
  refine ⟨fun s t ht => ?_⟩
  rw [wp_bind, wp_cxSha256Init]
  have hinit : Touched t.shared t.shared.sha256Init := Inits.sha256Init _
  refine hk.holds s _ ⟨(ht.extend hinit).touched, (ht.extend hinit).path, fun _ => ?_⟩
  rw [ht.touched.newActions hinit]
  refine List.mem_append_right _ ?_
  rw [@newActions_of_log _ _ [.sha256Init] rfl]
  exact List.mem_singleton_self _

/-- A handler that first sets its state, which is known from there on. -/
theorem Restarts.opening_wp (f : γ → γ) {k : γ → Fw γ PUnit.{1}}
    (hk : ∀ s (t : Device γ) a, t.ctx = f a → Starting p h s t.shared →
      wp (k (f a)) (fun _ t' => Restarted s t'.shared)
        (fun _ t' => Touched s t'.shared ∨ Restarted s t'.shared) t) :
    Restarts p h (Fw.when (true = true) (Fw.modifyCtx f) >>= fun _ => Fw.getCtx >>= k) := by
  refine ⟨fun s t ht => ?_⟩
  rw [wp_bind, Fw.wp_when]
  refine ⟨fun _ => ?_, fun hn => absurd rfl hn⟩
  rw [Fw.wp_modifyCtx, wp_bind, Fw.wp_getCtx]
  exact hk s _ t.ctx rfl ht

theorem Restarts.opening (f : γ → γ) {k : γ → Fw γ PUnit.{1}}
    (hk : ∀ a, Restarts p h (k (f a))) :
    Restarts p h (Fw.when (true = true) (Fw.modifyCtx f) >>= fun _ => Fw.getCtx >>= k) :=
  .opening_wp f fun s t a _ ht => (hk a).holds s t ht

end Restarts

/-! ## The head of the hash input -/

def HeadAt (n : Nat) (ks : List UInt8) (s : Shared) : Prop := ∃ b ∈ ks, s.hash[n]? = some b

theorem HeadAt.appends {n : Nat} {ks : List UInt8} {s s' : Shared} (h : HeadAt n ks s)
    (ha : Appends s s') : HeadAt n ks s' := by
  obtain ⟨b, hb, hn⟩ := h
  obtain ⟨rest, hrest⟩ := ha
  have hlt : n < s.hash.length := (List.getElem?_eq_some_iff.mp hn).1
  exact ⟨b, hb, by rw [← hrest, List.getElem?_append_left hlt, hn]⟩

class Heads (n : Nat) (ks : List UInt8) (x : Fw γ α) : Prop where
  holds : ∀ t, wp x (fun _ t' => HeadAt n ks t'.shared)
    (fun _ t' => Touched t.shared t'.shared ∨ HeadAt n ks t'.shared) t

class KeepsHead (n : Nat) (ks : List UInt8) (x : Fw γ α) : Prop where
  holds : ∀ t, HeadAt n ks t.shared → wp x (fun _ t' => HeadAt n ks t'.shared)
    (fun _ t' => Touched t.shared t'.shared ∨ HeadAt n ks t'.shared) t

/-- The same from an empty hash. -/
class HeadsFrom (n : Nat) (ks : List UInt8) (x : Fw γ α) : Prop where
  holds : ∀ t, t.shared.hash = [] → wp x (fun _ t' => HeadAt n ks t'.shared)
    (fun _ t' => Touched t.shared t'.shared ∨ HeadAt n ks t'.shared) t

section Heads

variable {n : Nat} {ks : List UInt8} {x y : Fw γ α} {c : Prop} [Decidable c]
  {β : Type} {k : α → Fw γ β}

instance (priority := low) KeepsHead.of_heads [hx : Heads n ks x] : KeepsHead n ks x :=
  ⟨fun t _ => hx.holds t⟩

instance KeepsHead.of_appends [hx : Ends AnyScreen Appends Appends Appends x] :
    KeepsHead n ks x :=
  ⟨fun t ht => wp_mono (hx.holds t) (fun _ _ ha => ht.appends ha) fun _ _ ha => .inr (ht.appends ha)⟩

instance KeepsHead.ite [hx : KeepsHead n ks x] [hy : KeepsHead n ks y] :
    KeepsHead n ks (if c then x else y) := by
  refine ⟨fun t ht => ?_⟩
  rw [wp_ite]
  exact ⟨fun _ => hx.holds t ht, fun _ => hy.holds t ht⟩

instance KeepsHead.on (m : Member μ γ) [hx : KeepsHead n ks x] : KeepsHead n ks (Fw.on m x) :=
  ⟨fun t ht => (Fw.wp_on m x).mpr (hx.holds (t.view m) ht)⟩

instance KeepsHead.bind [hx : KeepsHead n ks x] [hm : Moves Touched x]
    [hk : ∀ a, KeepsHead n ks (k a)] : KeepsHead n ks (x >>= k) := by
  refine ⟨fun t ht => ?_⟩
  rw [wp_bind]
  refine wp_mono (wp_and (hx.holds t ht) (hm.holds t)) ?_ fun _ _ h => h.1
  rintro a t' ⟨hhead, htouch⟩
  exact wp_mono ((hk a).holds t' hhead) (fun _ _ h => h) fun _ _ h => h.imp_left htouch.trans

instance Heads.ite [hx : Heads n ks x] [hy : Heads n ks y] : Heads n ks (if c then x else y) := by
  refine ⟨fun t => ?_⟩
  rw [wp_ite]
  exact ⟨fun _ => hx.holds t, fun _ => hy.holds t⟩

instance Heads.throw (e : Error) : Heads n ks (Fw.throw e : Fw γ α) :=
  ⟨fun t => .inl (.refl t.shared)⟩

instance Heads.on (m : Member μ γ) [hx : Heads n ks x] : Heads n ks (Fw.on m x) :=
  ⟨fun t => (Fw.wp_on m x).mpr (hx.holds (t.view m))⟩

instance (priority := low) Heads.bind [hm : Moves Touched x] [hk : ∀ a, Heads n ks (k a)] :
    Heads n ks (x >>= k) := by
  refine ⟨fun t => ?_⟩
  rw [wp_bind]
  refine wp_mono (hm.holds t) (fun a t' htouch => ?_) fun _ _ h => .inl h
  exact wp_mono ((hk a).holds t') (fun _ _ h => h) fun _ _ h => h.imp_left htouch.trans

instance (priority := low) Heads.after [hx : Heads n ks x] [hm : Moves Touched x]
    [hk : ∀ a, KeepsHead n ks (k a)] : Heads n ks (x >>= k) := by
  refine ⟨fun t => ?_⟩
  rw [wp_bind]
  refine wp_mono (wp_and (hx.holds t) (hm.holds t)) ?_ fun _ _ h => h.1
  rintro a t' ⟨hhead, htouch⟩
  exact wp_mono ((hk a).holds t' hhead) (fun _ _ h => h) fun _ _ h => h.imp_left htouch.trans

instance Heads.init {k : PUnit.{1} → Fw γ β} [hk : HeadsFrom n ks (k ⟨⟩)] :
    Heads n ks (cxSha256Init >>= k) := by
  refine ⟨fun t => ?_⟩
  rw [wp_bind, wp_cxSha256Init]
  have hinit : Touched t.shared t.shared.sha256Init := Inits.sha256Init _
  exact wp_mono (hk.holds _ rfl) (fun _ _ h => h) fun _ _ h => h.imp_left hinit.trans

/-- A handler that first sets its state, which is known from there on. -/
theorem Heads.opening_wp (f : γ → γ) {k : γ → Fw γ PUnit.{1}}
    (hk : ∀ (t : Device γ) a, t.ctx = f a → wp (k (f a)) (fun _ t' => HeadAt n ks t'.shared)
      (fun _ t' => Touched t.shared t'.shared ∨ HeadAt n ks t'.shared) t) :
    Heads n ks (Fw.when (true = true) (Fw.modifyCtx f) >>= fun _ => Fw.getCtx >>= k) := by
  refine ⟨fun t => ?_⟩
  rw [wp_bind, Fw.wp_when]
  refine ⟨fun _ => ?_, fun hn => absurd rfl hn⟩
  rw [Fw.wp_modifyCtx, wp_bind, Fw.wp_getCtx]
  exact hk _ t.ctx rfl

theorem Heads.opening (f : γ → γ) {k : γ → Fw γ PUnit.{1}} (hk : ∀ a, Heads n ks (k (f a))) :
    Heads n ks (Fw.when (true = true) (Fw.modifyCtx f) >>= fun _ => Fw.getCtx >>= k) :=
  .opening_wp f fun t a _ => (hk a).holds t

instance HeadsFrom.still [hx : Still x] [hk : ∀ a, HeadsFrom n ks (k a)] :
    HeadsFrom n ks (x >>= k) := by
  refine ⟨fun t ht => ?_⟩
  rw [wp_bind]
  refine wp_mono (hx.holds t) (fun a t' hs => ?_) fun _ _ hs => .inl (by rw [hs]; exact .refl _)
  rw [← hs]
  exact (hk a).holds t' (by rw [hs, ht])

instance HeadsFrom.after [hx : HeadsFrom n ks x] [hm : Moves Touched x]
    [hk : ∀ a, KeepsHead n ks (k a)] : HeadsFrom n ks (x >>= k) := by
  refine ⟨fun t ht => ?_⟩
  rw [wp_bind]
  refine wp_mono (wp_and (hx.holds t ht) (hm.holds t)) ?_ fun _ _ h => h.1
  rintro a t' ⟨hhead, htouch⟩
  exact wp_mono ((hk a).holds t' hhead) (fun _ _ h => h) fun _ _ h => h.imp_left htouch.trans

end Heads

theorem wp_hashHeaderAndType_head {t : Device γ} (ht : t.shared.hash = []) (cdata : Ptr) (n : Nat)
    (kind : UInt8) : wp (hashHeaderAndType cdata n kind) (fun _ t' => HeadAt n [kind] t'.shared)
      (fun _ t' => Touched t.shared t'.shared ∨ HeadAt n [kind] t'.shared) t := by
  have hupdate : Touched t.shared (t.shared.updateHash (cdata.slice n)) := Steady.updateHash _ _
  simp only [hashHeaderAndType, wp_bind, wp_updateHash, Fw.wp_throwIf, wp_pure]
  refine ⟨fun _ => .inl hupdate, fun hk => ⟨kind, List.mem_singleton_self _, ?_⟩⟩
  have hbyte : (cdata.advance n).slice 1 = [kind] := by
    rw [slice_one, not_not.mp hk]
  simp [ht, hbyte]

instance (cdata : Ptr) (n : Nat) (kind : UInt8) :
    HeadsFrom n [kind] (hashHeaderAndType cdata n kind : Fw γ Nat) :=
  ⟨fun _ ht => wp_hashHeaderAndType_head ht cdata n kind⟩

instance (cdata : Ptr) (kind : UInt8) :
    HeadsFrom 28 [kind] (hashUpdateHeaderAndType cdata kind : Fw γ Nat) :=
  ⟨fun _ ht => wp_hashHeaderAndType_head ht cdata 28 kind⟩

instance (sdk : Sdk) (cdata : Ptr) (kind : UInt8) :
    HeadsFrom 60 [kind] (hashAccountTransactionHeaderAndKind sdk cdata kind : Fw γ Nat) := by
  refine ⟨fun t ht => ?_⟩
  unfold hashAccountTransactionHeaderAndKind
  rw [wp_bind, Fw.wp_getShared, wp_bind, Fw.wp_eval]
  refine ⟨fun sender _ => ?_, fun _ _ => .inl (.refl _)⟩
  rw [wp_bind, Fw.wp_modifyShared]
  have hsender : Touched t.shared { t.shared with sender } := Steady.sender _ _
  exact wp_mono (wp_hashHeaderAndType_head (t := ⟨t.ctx, { t.shared with sender }⟩) ht cdata 60 kind)
    (fun _ _ h => h) fun _ _ h => h.imp_left hsender.trans

instance (sdk : Sdk) (cdata : Ptr) (kind : UInt8) (dst : Buffer 57) :
    Heads 60 [kind] (handleHeaderAndToAddress sdk cdata kind dst : Fw γ (Nat × Buffer 57)) := by
  unfold handleHeaderAndToAddress
  infer_instance

instance (p h : Bool) (sdk : Sdk) (cdata : Ptr) (kind : UInt8) (dst : Buffer 57) :
    Restarts p h (handleHeaderAndToAddress sdk cdata kind dst : Fw γ (Nat × Buffer 57)) := by
  unfold handleHeaderAndToAddress
  infer_instance

end ConcordiumLedger
