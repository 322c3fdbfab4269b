import ConcordiumLedger.Common.Rules

/-!
# Common.StreamedParts

Parts of a transaction that arrive in commands of any length and are counted down from a length.

* `commandStep`     — a command during a session, whether or not the host has had its reply.
* `StreamedPart`    — the phase of such a part: its commands, its counter and what follows it.
* `ExactlyDeclared` — a sequence of chunks is received as the declared length asks.
* `Fits`            — no chunk takes more than what remains.
* `Counts`          — the counter is an unsigned number that each chunk is subtracted from; from this
  alone, `exactlyDeclared_iff_fits`.
-/

namespace ConcordiumLedger

open CMem CProg CProg.Prog Transition

variable {μ γ : Type}

/-- A command of the current instruction that is not rejected. -/
def commandStep (app : App μ) (d : Device μ) (c : Apdu) : Option (Device μ) :=
  if d.shared.running ∧ d.shared.currentInstruction = some c.ins then
    accepted (dispatch app c (receivedCommand d))
  else none

structure StreamedPart (μ : Type) where
  app : App μ
  ins : UInt8
  p1 : UInt8
  /-- The handler is in the phase of the part. -/
  receiving : μ → Prop
  /-- The counter: how many bytes of the part are still to come. -/
  remaining : μ → Nat
  /-- Whether steps that are put on the display begin the next phase. -/
  next : List Step → Bool
  /-- Whether the handler leaves the phase when the part is complete. -/
  leaves : Bool

/-- The number of bytes in the commands. -/
def total (cs : List Apdu) : Nat := (cs.map fun c => c.lc.toNat).sum

namespace StreamedPart

/-- Each chunk takes at most what remains, as long as the handler is in the phase of the part. -/
def Fits (p : StreamedPart μ) : Nat → List Apdu → Prop
  | _, [] => True
  | n, c :: cs => c.lc.toNat ≤ n ∧ (p.leaves ∧ c.lc.toNat = n ∨ p.Fits (n - c.lc.toNat) cs)

/-- The device takes chunks, and `n` bytes of the part are still to come. -/
structure Receives (p : StreamedPart μ) (d : Device μ) (n : Nat) : Prop where
  running : d.shared.running = true
  instruction : d.shared.currentInstruction = some p.ins
  receiving : p.receiving d.ctx
  remaining : p.remaining d.ctx = n

structure IsChunk (p : StreamedPart μ) (c : Apdu) : Prop where
  cla : c.cla = 0xE0
  ins : c.ins = p.ins
  p1 : c.p1 = p.p1

/-- Of the chunks that the host sends, the first one with which they exceed the `n` bytes is
rejected, and when the next phase begins exactly `n` bytes were hashed. -/
def ExactlyDeclared (p : StreamedPart μ) (d : Device μ) (n : Nat) (cs : List Apdu) : Prop :=
  ∀ before c after, cs = before ++ c :: after →
    ∀ d₁, exec (commandStep p.app) d before = some d₁ →
      (total before ≤ n → n < total (before ++ [c]) → commandStep p.app d₁ c = none) ∧
      ∀ d₂, commandStep p.app d₁ c = some d₂ → p.next (putUp d₁.shared d₂.shared) →
        total (before ++ [c]) = n ∧
        d₂.shared.hash = d.shared.hash ++ (before ++ [c]).flatMap Apdu.data

/-- What is left after a chunk of `len` bytes, counted modulo `m`. -/
def left (m n len : Nat) : Nat := (n + m - len) % m

/-- What a chunk does that is not the last one. -/
structure Continues (p : StreamedPart μ) (rest : Nat) (c : Apdu) (d d' : Device μ) : Prop where
  receives : p.Receives d' rest
  hash : d'.shared.hash = d.shared.hash ++ c.data
  quiet : putUp d.shared d'.shared = []

/-- What the last chunk does. -/
structure Ends (p : StreamedPart μ) (c : Apdu) (d d' : Device μ) : Prop where
  hash : d'.shared.hash = d.shared.hash ++ c.data
  stays : p.leaves = false → p.Receives d' 0
  left : p.leaves = true → ∀ c', p.IsChunk c' → commandStep p.app d' c' = none

/-- The counter of the part is a number modulo `m`. -/
structure Counts (p : StreamedPart μ) (m : Nat) : Prop where
  large : 255 < m
  bounded : ∀ ctx, p.remaining ctx < m
  quiet : p.next [] = false
  more : ∀ {d n c}, p.Receives d n → p.IsChunk c → left m n c.lc.toNat ≠ 0 →
    ∃ d', commandStep p.app d c = some d' ∧ p.Continues (left m n c.lc.toNat) c d d'
  last : ∀ {d n c d'}, p.Receives d n → p.IsChunk c → left m n c.lc.toNat = 0 →
    commandStep p.app d c = some d' → p.Ends c d d'
  accepts : p.leaves = false → ∀ {d n c}, p.Receives d n → p.IsChunk c →
    left m n c.lc.toNat = 0 → ∃ d', commandStep p.app d c = some d'

/-! ## What remains -/

theorem left_of_le {m n len : Nat} (hn : n < m) (h : len ≤ n) : left m n len = n - len := by
  have hsum : n + m - len = (n - len) + m := by omega
  rw [left, hsum, Nat.add_mod_right, Nat.mod_eq_of_lt (by omega)]

/-- A chunk that exceeds what remains makes the counter wrap around, and not to 0. -/
theorem left_of_lt {m n len : Nat} (hlen : len < m) (h : n < len) : left m n len ≠ 0 := by
  rw [left, Nat.mod_eq_of_lt (by omega)]
  omega

variable {p : StreamedPart μ} {m n : Nat} {d : Device μ}

theorem Receives.lt (hc : p.Counts m) (hr : p.Receives d n) : n < m := by
  have h := hc.bounded d.ctx
  rwa [hr.remaining] at h

theorem lc_lt (hc : p.Counts m) (c : Apdu) : c.lc.toNat < m := by
  have h := hc.large
  have := c.lc.toNat_lt
  omega

@[simp] theorem total_nil : total [] = 0 := rfl

@[simp] theorem total_cons (c : Apdu) (cs : List Apdu) :
    total (c :: cs) = c.lc.toNat + total cs := by
  simp [total]

@[simp] theorem total_append (cs cs' : List Apdu) : total (cs ++ cs') = total cs + total cs' := by
  simp [total]

/-- What is known of the state before the chunk `c`, after chunks that fit. -/
def Before (p : StreamedPart μ) (n : Nat) (d : Device μ) (before : List Apdu) (c : Apdu)
    (d₁ : Device μ) : Prop :=
  p.Receives d₁ (n - total before) ∧ total before + c.lc.toNat ≤ n ∧
    d₁.shared.hash = d.shared.hash ++ before.flatMap Apdu.data

theorem Before.cons {d' d₁ : Device μ} {b c : Apdu} {bs : List Apdu}
    (h : p.Before (n - b.lc.toNat) d' bs c d₁) (hle : b.lc.toNat ≤ n)
    (hh : d'.shared.hash = d.shared.hash ++ b.data) : p.Before n d (b :: bs) c d₁ := by
  obtain ⟨hr, hc, hd⟩ := h
  refine ⟨?_, ?_, ?_⟩
  · rw [total_cons, ← Nat.sub_sub]
    exact hr
  · rw [total_cons]
    omega
  · rw [hd, hh, List.append_assoc, List.flatMap_cons]

/-- Once the handler has left the phase, no further chunk is taken. -/
theorem none_after {d' d₁ : Device μ} {c : Apdu} {after bs : List Apdu}
    (h : ∀ c', p.IsChunk c' → commandStep p.app d' c' = none)
    (hcs : ∀ x ∈ bs ++ c :: after, p.IsChunk x)
    (he : exec (commandStep p.app) d' bs = some d₁) : commandStep p.app d₁ c = none := by
  cases bs with
  | nil =>
    cases he
    exact h c (hcs c List.mem_cons_self)
  | cons b bs =>
    rw [exec, h b (hcs b List.mem_cons_self)] at he
    cases he

/-- The state that chunks which fit lead to, before one more of them. -/
theorem before_of_fits (hc : p.Counts m) {before : List Apdu} :
    ∀ {n : Nat} {d d₁ : Device μ} {c : Apdu} {after : List Apdu}, p.Receives d n →
      (∀ b ∈ before ++ c :: after, p.IsChunk b) → p.Fits n (before ++ c :: after) →
      exec (commandStep p.app) d before = some d₁ →
      p.Before n d before c d₁ ∨ commandStep p.app d₁ c = none := by
  induction before with
  | nil =>
    intro n d d₁ c after hr _ hfit he
    cases he
    refine .inl ⟨hr, ?_, by simp⟩
    rw [total_nil, Nat.zero_add]
    exact hfit.1
  | cons b bs ih =>
    intro n d d₁ c after hr hcs hfit he
    obtain ⟨hle, hrest⟩ := hfit
    obtain ⟨d', hd', he'⟩ := Option.bind_eq_some_iff.mp he
    have hb := hcs b List.mem_cons_self
    have hcs' : ∀ x ∈ bs ++ c :: after, p.IsChunk x := fun x hx => hcs x (List.mem_cons_of_mem _ hx)
    have hleft := left_of_le (hr.lt hc) hle
    -- while the handler stays in the phase, the chunks after this one are received from `d'` on
    have hnext : p.Receives d' (n - b.lc.toNat) → d'.shared.hash = d.shared.hash ++ b.data →
        p.Fits (n - b.lc.toNat) (bs ++ c :: after) →
        p.Before n d (b :: bs) c d₁ ∨ commandStep p.app d₁ c = none := by
      intro hr' hh hfit'
      rcases ih hr' hcs' hfit' he' with h | hnone
      · exact .inl (h.cons hle hh)
      · exact .inr hnone
    by_cases hz : left m n b.lc.toNat = 0
    · have hend := hc.last hr hb hz hd'
      cases hl : p.leaves with
      | true => exact .inr (none_after (hend.left hl) hcs' he')
      | false =>
        have hr' := hend.stays hl
        rw [← hz, hleft] at hr'
        rcases hrest with ⟨h, -⟩ | hfit'
        · rw [hl] at h
          cases h
        · exact hnext hr' hend.hash hfit'
    · obtain ⟨d'', hd'', hcont⟩ := hc.more hr hb hz
      rw [hd''] at hd'
      cases hd'
      have hr' := hcont.receives
      rw [hleft] at hr'
      rcases hrest with ⟨-, h⟩ | hfit'
      · omega
      · exact hnext hr' hcont.hash hfit'

theorem exactlyDeclared_of_fits (hc : p.Counts m) (hr : p.Receives d n) {cs : List Apdu}
    (hcs : ∀ c ∈ cs, p.IsChunk c) (hfit : p.Fits n cs) : p.ExactlyDeclared d n cs := by
  rintro before c after rfl d₁ he
  rcases before_of_fits hc hr hcs hfit he with ⟨hr₁, hle, hh⟩ | hnone
  · have hcc := hcs c (List.mem_append_right _ List.mem_cons_self)
    constructor
    · intro _ hgt
      simp only [total_append, total_cons, total_nil] at hgt
      omega
    · intro d₂ hd₂ hnext
      by_cases hz : left m (n - total before) c.lc.toNat = 0
      · have hend := hc.last hr₁ hcc hz hd₂
        rw [left_of_le (hr₁.lt hc) (by omega)] at hz
        refine ⟨?_, ?_⟩
        · simp only [total_append, total_cons, total_nil]
          omega
        · rw [hend.hash, hh, List.flatMap_append, List.append_assoc]
          simp
      · obtain ⟨d', hd', hcont⟩ := hc.more hr₁ hcc hz
        rw [hd'] at hd₂
        cases hd₂
        rw [hcont.quiet, hc.quiet] at hnext
        cases hnext
  · rw [hnone]
    exact ⟨fun _ _ => rfl, fun d₂ h => by cases h⟩

theorem fits_of_exactlyDeclared (hc : p.Counts m) {cs : List Apdu} :
    ∀ {n : Nat} {d : Device μ}, p.Receives d n → (∀ c ∈ cs, p.IsChunk c) →
      p.ExactlyDeclared d n cs → p.Fits n cs := by
  induction cs with
  | nil => intro n d _ _ _; trivial
  | cons c cs ih =>
    intro n d hr hcs hex
    have hcc := hcs c List.mem_cons_self
    have hle : c.lc.toNat ≤ n := by
      by_contra hgt
      -- the counter wraps around and the chunk is accepted
      obtain ⟨d', hd', -⟩ := hc.more hr hcc (left_of_lt (lc_lt hc c) (by omega))
      have hnone := (hex [] c cs rfl d rfl).1 (Nat.zero_le n) (by simp; omega)
      rw [hd'] at hnone
      cases hnone
    refine ⟨hle, ?_⟩
    have hleft := left_of_le (hr.lt hc) hle
    by_cases hdone : p.leaves = true ∧ c.lc.toNat = n
    · exact .inl hdone
    · obtain ⟨d', hd', hr', hh⟩ : ∃ d', commandStep p.app d c = some d' ∧
          p.Receives d' (n - c.lc.toNat) ∧ d'.shared.hash = d.shared.hash ++ c.data := by
        by_cases hz : left m n c.lc.toNat = 0
        · have hl : p.leaves = false := by
            cases h : p.leaves with
            | false => rfl
            | true => exact absurd ⟨h, by omega⟩ hdone
          obtain ⟨d', hd'⟩ := hc.accepts hl hr hcc hz
          have hend := hc.last hr hcc hz hd'
          exact ⟨d', hd', by rw [← hleft, hz]; exact hend.stays hl, hend.hash⟩
        · obtain ⟨d', hd', hcont⟩ := hc.more hr hcc hz
          exact ⟨d', hd', by rw [← hleft]; exact hcont.receives, hcont.hash⟩
      refine .inr (ih hr' (fun x hx => hcs x (List.mem_cons_of_mem _ hx)) ?_)
      rintro before b after rfl d₁ he
      have hex' := hex (c :: before) b after rfl d₁
        (Option.bind_eq_some_iff.mpr ⟨d', hd', he⟩)
      simp only [List.cons_append, total_cons, total_append, total_nil, List.flatMap_cons] at hex'
      simp only [total_cons, total_append, total_nil]
      refine ⟨fun h₁ h₂ => hex'.1 (by omega) (by omega), fun d₂ hd₂ hnext => ?_⟩
      obtain ⟨htotal, hhash⟩ := hex'.2 d₂ hd₂ hnext
      refine ⟨by omega, ?_⟩
      rw [hhash, hh, List.append_assoc]

/-- A part is received as declared exactly when no chunk takes more than what remains. -/
theorem exactlyDeclared_iff_fits (hc : p.Counts m) (hr : p.Receives d n) {cs : List Apdu}
    (hcs : ∀ c ∈ cs, p.IsChunk c) : p.ExactlyDeclared d n cs ↔ p.Fits n cs :=
  ⟨fits_of_exactlyDeclared hc hr hcs, exactlyDeclared_of_fits hc hr hcs⟩

/-! ## The counter in the context of one instruction -/

/-- A part whose phase and counter are in the member `mem` of the instruction context. -/
def onMember (app : App μ) (ins p1 : UInt8) (mem : Member μ γ) (receiving : γ → Prop)
    (remaining : γ → Nat) (next : List Step → Bool) (leaves : Bool) : StreamedPart μ where
  app := app
  ins := ins
  p1 := p1
  receiving ctx := receiving (mem.get ctx)
  remaining ctx := remaining (mem.get ctx)
  next := next
  leaves := leaves

/-- What the function for the chunks does to its context, if the session goes on. -/
structure Leads (receiving : γ → Prop) (remaining : γ → Nat) (rest : Nat) (data : List UInt8)
    (t t' : Device γ) : Prop where
  receiving : receiving t'.ctx
  remaining : remaining t'.ctx = rest
  hash : t'.shared.hash = t.shared.hash ++ data
  instruction : t'.shared.currentInstruction = t.shared.currentInstruction
  running : t'.shared.running = t.shared.running

theorem commandStep_eq {app : App μ} {d : Device μ} {c : Apdu} (hr : d.shared.running = true)
    (hi : d.shared.currentInstruction = some c.ins) (hcla : c.cla = 0xE0) :
    commandStep app d c = accepted (app.handler c false (entered d c)) := by
  rw [commandStep, if_pos ⟨hr, hi⟩, dispatch_eq app hi hcla]

section OnMember

variable {app : App μ} {ins p1 : UInt8} {mem : Member μ γ} {receiving : γ → Prop}
  {remaining : γ → Nat} {next : List Step → Bool} {leaves : Bool} {handler : Apdu → Fw γ PUnit}

/-- What a chunk does to the device, in terms of the function that handles it. -/
theorem commandStep_onMember {p : StreamedPart μ}
    (hp : p = onMember app ins p1 mem receiving remaining next leaves)
    (happ : ∀ c, c.ins = ins → app.handler c false = Fw.on mem (handler c)) {d : Device μ}
    {n : Nat} {c : Apdu} (hr : p.Receives d n) (hc : p.IsChunk c) :
    commandStep p.app d c = accepted (Fw.on mem (handler c) (entered d c)) := by
  subst hp
  rw [commandStep_eq hr.running (hr.instruction.trans (by rw [hc.ins])) hc.cla]
  exact congrArg accepted (congrFun (happ c hc.ins) (entered d c))

theorem Leads.receives {d : Device μ} {c : Apdu} {rest n : Nat} {t' : Device γ}
    (h : Leads receiving remaining rest c.data ((entered d c).view mem) t')
    (hr : (onMember app ins p1 mem receiving remaining next leaves).Receives d n) :
    (onMember app ins p1 mem receiving remaining next leaves).Receives
      ⟨mem.set t'.ctx d.ctx, t'.shared⟩ rest where
  running := h.running.trans hr.running
  instruction := h.instruction.trans hr.instruction
  receiving := by
    show receiving (mem.get (mem.set t'.ctx d.ctx))
    rw [mem.get_set]
    exact h.receiving
  remaining := by
    show remaining (mem.get (mem.set t'.ctx d.ctx)) = rest
    rw [mem.get_set]
    exact h.remaining

/-- The device rejects a chunk that its handler rejects. -/
theorem commandStep_none (happ : ∀ c, c.ins = ins → app.handler c false = Fw.on mem (handler c))
    {d : Device μ} {c : Apdu}
    (hc : (onMember app ins p1 mem receiving remaining next leaves).IsChunk c)
    (h : wp (handler c) (fun _ _ => False) (fun _ _ => True) ((entered d c).view mem)) :
    commandStep app d c = none := by
  unfold commandStep
  split
  · rename_i hcur
    rw [dispatch_eq app hcur.2 hc.cla, happ c hc.ins]
    cases hres : handler c ((entered d c).view mem) with
    | ok a t => exact (of_wp_ok h hres).elim
    | thrown e t =>
      rw [Fw.on_thrown hres]
      rfl
  · rfl

variable (handler) (body : Apdu → Fw γ PUnit)

/-- The counter of a part, from what the function for its chunks does. -/
theorem Counts.of_member (hlarge : 255 < m)
    (hbounded : ∀ ctx, remaining ctx < m) (hquiet : next [] = false)
    (happ : ∀ c, c.ins = ins → app.handler c false = Fw.on mem (handler c))
    (hbody : ∀ c t, c.p1 = p1 → receiving t.ctx → handler c t = body c t)
    (hmore : ∀ c t, receiving t.ctx → left m (remaining t.ctx) c.lc.toNat ≠ 0 →
      wp (body c) (fun _ t' => flows t'.shared.log = flows t.shared.log ∧
          Leads receiving remaining (left m (remaining t.ctx) c.lc.toNat) c.data t t')
        (fun _ _ => False) t)
    (hlast : ∀ c t, receiving t.ctx → left m (remaining t.ctx) c.lc.toNat = 0 →
      wp (body c) (fun _ t' => if leaves then
            ¬ receiving t'.ctx ∧ t'.shared.hash = t.shared.hash ++ c.data
          else Leads receiving remaining 0 c.data t t')
        (fun _ _ => leaves = true) t)
    (hout : leaves = true → ∀ c t, c.p1 = p1 → ¬ receiving t.ctx →
      wp (handler c) (fun _ _ => False) (fun _ _ => True) t) :
    (onMember app ins p1 mem receiving remaining next leaves).Counts m where
  large := hlarge
  bounded ctx := hbounded (mem.get ctx)
  quiet := hquiet
  more := by
    intro d n c hr hc hz
    have hrec : receiving ((entered d c).view mem).ctx := hr.receiving
    have hz' : left m (remaining ((entered d c).view mem).ctx) c.lc.toNat ≠ 0 := by
      rw [← hr.remaining] at hz
      exact hz
    obtain ⟨a, t', hok, hflows, hleads⟩ := exists_ok_of_wp
      (hmore c ((entered d c).view mem) hrec hz') fun _ _ h => h
    have hrest : left m (remaining ((entered d c).view mem).ctx) c.lc.toNat =
        left m n c.lc.toNat := by
      rw [← hr.remaining]
      rfl
    rw [hrest] at hleads
    rw [← hbody c _ hc.p1 hrec] at hok
    refine ⟨⟨mem.set t'.ctx d.ctx, t'.shared⟩, ?_, ?_⟩
    · rw [commandStep_onMember rfl happ hr hc, Fw.on_ok hok]
      rfl
    · refine ⟨hleads.receives hr, hleads.hash, ?_⟩
      refine putUp_nil (hflows.trans ?_)
      show flows (d.shared.log ++ [_]) = _
      rw [flows_append]
      exact List.append_nil _
  last := by
    intro d n c d' hr hc hz hd'
    have hrec : receiving ((entered d c).view mem).ctx := hr.receiving
    have hz' : left m (remaining ((entered d c).view mem).ctx) c.lc.toNat = 0 := by
      rw [← hr.remaining] at hz
      exact hz
    have hw := hlast c ((entered d c).view mem) hrec hz'
    rw [commandStep_onMember rfl happ hr hc] at hd'
    cases hok : handler c ((entered d c).view mem) with
    | thrown e t' =>
      have hon : Fw.on mem (handler c) (entered d c) = .thrown e ⟨mem.set t'.ctx d.ctx, t'.shared⟩ :=
        Fw.on_thrown hok
      rw [hon] at hd'
      cases hd'
    | ok a t' =>
      rw [Fw.on_ok hok] at hd'
      cases hd'
      rw [hbody c _ hc.p1 hrec] at hok
      have hq := of_wp_ok hw hok
      refine ⟨?_, ?_, ?_⟩
      · split at hq
        · exact hq.2
        · exact hq.hash
      · intro hl
        have hl' : leaves = false := hl
        rw [hl'] at hq
        exact hq.receives hr
      · intro hl c' hc'
        have hl' : leaves = true := hl
        rw [if_pos hl'] at hq
        refine commandStep_none happ hc' (hout hl' c' _ hc'.p1 ?_)
        show ¬ receiving (mem.get (mem.set t'.ctx d.ctx))
        rw [mem.get_set]
        exact hq.1
  accepts := by
    intro hl d n c hr hc hz
    have hl' : leaves = false := hl
    have hrec : receiving ((entered d c).view mem).ctx := hr.receiving
    have hz' : left m (remaining ((entered d c).view mem).ctx) c.lc.toNat = 0 := by
      rw [← hr.remaining] at hz
      exact hz
    obtain ⟨a, t', hok, -⟩ := exists_ok_of_wp
      (hlast c ((entered d c).view mem) hrec hz') fun _ _ h => by
        rw [hl'] at h
        cases h
    rw [← hbody c _ hc.p1 hrec] at hok
    refine ⟨⟨mem.set t'.ctx d.ctx, t'.shared⟩, ?_⟩
    rw [commandStep_onMember rfl happ hr hc, Fw.on_ok hok]
    rfl

/-- What a chunk does in a phase that the handler does not leave. -/
def Counted (m : Nat) (receiving : γ → Prop) (remaining : γ → Nat) (len : Nat) (data : List UInt8)
    (t t' : Device γ) : Prop :=
  Leads receiving remaining (left m (remaining t.ctx) len) data t t' ∧
    (left m (remaining t.ctx) len ≠ 0 → flows t'.shared.log = flows t.shared.log)

/-- The counter of a part whose phase the handler does not leave. -/
theorem Counts.of_counted (hlarge : 255 < m)
    (hbounded : ∀ ctx, remaining ctx < m) (hquiet : next [] = false)
    (happ : ∀ c, c.ins = ins → app.handler c false = Fw.on mem (handler c))
    (hbody : ∀ c t, c.p1 = p1 → receiving t.ctx → handler c t = body c t)
    (hspec : ∀ c t, receiving t.ctx →
      wp (body c) (fun _ t' => Counted m receiving remaining c.lc.toNat c.data t t')
        (fun _ _ => False) t) :
    (onMember app ins p1 mem receiving remaining next false).Counts m := by
  refine Counts.of_member handler body hlarge hbounded hquiet happ hbody ?_ ?_ (fun h => by cases h)
  · intro c t hrec hz
    exact wp_mono (hspec c t hrec) (fun _ t' h => ⟨h.2 hz, h.1⟩) fun _ _ h => h
  · intro c t hrec hz
    refine wp_mono (hspec c t hrec) (fun _ t' h => ?_) fun _ _ h => h.elim
    have hleads := h.1
    rw [hz] at hleads
    exact hleads

end OnMember

end StreamedPart

end ConcordiumLedger
