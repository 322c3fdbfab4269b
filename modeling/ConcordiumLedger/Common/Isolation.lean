import ConcordiumLedger.Common.Restarts
import ConcordiumLedger.Common.SignScreens
import Mathlib.Data.List.Induction

/-!
# Common.Isolation

Sessions do not mix: what is signed was hashed, and its key path read, in one session.

* `Fresh i s`  — the current session is one of the instruction `i`, and its first command has read
  the path and started the hash anew.
* `OnScreen`   — the steps of an instruction are pressed on screens of the current session.
* `Isolating`  — what the handlers and callbacks of an application have to do for that.
* `signatures_isolated` — then it holds in runs in which no handler runs on a Sign screen.
-/

namespace ConcordiumLedger

open CMem CProg CProg.Prog Transition

variable {μ : Type} {s s' : Shared} {i : UInt8}

/-! ## The log of a session -/

def Action.opens : Action → Bool
  | .setInstruction (some _) => true
  | _ => false

/-- No session starts between the two states. -/
def Continued (s s' : Shared) : Prop := ∃ as, s'.log = s.log ++ as ∧ ∀ a ∈ as, a.opens = false

theorem not_opens_of_inner {a : Action} (h : a.inner = true) : a.opens = false := by
  cases a with
  | setInstruction ins => cases ins <;> simp_all [Action.inner, Action.opens]
  | _ => rfl

theorem Inner.continued (h : Inner s s') : Continued s s' := by
  obtain ⟨as, hl, ha⟩ := h
  exact ⟨as, hl, fun a hmem => not_opens_of_inner (ha a hmem)⟩

theorem sessionStep_of_not_opens {a : Action} (ha : a.opens = false) (log : List Action) :
    sessionStep log a = log ++ [a] := by
  cases a with
  | setInstruction ins => cases ins <;> simp_all [Action.opens, sessionStep]
  | _ => rfl

theorem sessionLog_of_not_opens {log as : List Action} (h : ∀ a ∈ as, a.opens = false) :
    sessionLog (log ++ as) = sessionLog log ++ as := by
  induction as generalizing log with
  | nil => simp
  | cons a as ih =>
    have ha : sessionLog (log ++ [a]) = sessionLog log ++ [a] := by
      rw [sessionLog_append, List.foldl_cons, List.foldl_nil,
        sessionStep_of_not_opens (h a List.mem_cons_self)]
    rw [List.append_cons, ih fun b hb => h b (List.mem_cons_of_mem _ hb), ha, ← List.append_cons]

/-- The log of the session is the end of the log. -/
theorem sessionLog_suffix (log : List Action) : sessionLog log <:+ log := by
  induction log using List.reverseRecOn with
  | nil => exact List.suffix_rfl
  | append_singleton log a ih =>
    rw [sessionLog_append, List.foldl_cons, List.foldl_nil]
    by_cases ha : a.opens = true
    · obtain ⟨ins, rfl⟩ : ∃ ins, a = .setInstruction (some ins) := by
        cases a with
        | setInstruction ins => cases ins <;> simp_all [Action.opens]
        | _ => cases ha
      exact List.nil_suffix
    · rw [sessionStep_of_not_opens (by simpa using ha)]
      obtain ⟨pre, hpre⟩ := ih
      exact ⟨pre, by rw [← List.append_assoc, hpre]⟩

/-- What was hashed before the last `cx_sha256_init` is forgotten. -/
theorem hashed_of_init {as : List Action} (h : .sha256Init ∈ as) (log : List Action) :
    hashed (log ++ as) = hashed as := by
  obtain ⟨front, back, rfl⟩ := List.append_of_mem h
  have hforget (l : List Action) : hashed (l ++ front ++ .sha256Init :: back) =
      back.foldl hashedStep [] := by
    rw [hashed_append]
    rfl
  rw [← List.append_assoc, hforget, ← List.nil_append front, hforget]

def Fresh (i : UInt8) (s : Shared) : Prop :=
  ∃ p1 p2 data as rest, sessionLog s.log = .handler i p1 p2 data :: (as ++ rest) ∧
    (∀ a ∈ as, a.inner = true) ∧ .parseKeyDerivationPath ∈ as ∧ .sha256Init ∈ as

/-- The actions of the first command are those before the next handler. -/
def startsFresh (i : UInt8) : List Action → Bool
  | .handler j _ _ _ :: as =>
    let first := as.takeWhile Action.inner
    decide (j = i ∧ .parseKeyDerivationPath ∈ first ∧ .sha256Init ∈ first)
  | _ => false

theorem fresh_iff : Fresh i s ↔ startsFresh i (sessionLog s.log) = true := by
  constructor
  · rintro ⟨p1, p2, data, as, rest, hl, ha, hp, hh⟩
    rw [hl, startsFresh, List.takeWhile_append_of_pos ha]
    exact decide_eq_true ⟨rfl, List.mem_append_left _ hp, List.mem_append_left _ hh⟩
  · intro h
    unfold startsFresh at h
    split at h
    · rename_i j p1 p2 data as hl
      obtain ⟨rfl, hp, hh⟩ := of_decide_eq_true h
      refine ⟨p1, p2, data, as.takeWhile Action.inner, as.dropWhile Action.inner, ?_,
        fun a ha => List.mem_takeWhile_imp ha, hp, hh⟩
      rw [hl, List.takeWhile_append_dropWhile]
    · cases h

instance (i : UInt8) (s : Shared) : Decidable (Fresh i s) := decidable_of_iff' _ fresh_iff

theorem Fresh.extend (h : Fresh i s) (h' : Continued s s') : Fresh i s' := by
  obtain ⟨p1, p2, data, as, rest, hl, ha, hp, hh⟩ := h
  obtain ⟨bs, hl', hb⟩ := h'
  refine ⟨p1, p2, data, as, rest ++ bs, ?_, ha, hp, hh⟩
  rw [hl', sessionLog_of_not_opens hb, hl, List.cons_append, List.append_assoc]

theorem Fresh.of_restarted {log : List Action} {p1 p2 : UInt8} {data : List UInt8}
    (hs : s.log = log ++ [.setInstruction (some i)] ++ [.handler i p1 p2 data])
    (h : Restarted s s') : Fresh i s' := by
  obtain ⟨as, hl, ha, hp, hh⟩ := h
  have hopen : sessionLog s.log = [.handler i p1 p2 data] := by
    rw [hs, sessionLog_append, sessionLog_append]
    rfl
  have hcont : Continued s s' := Inner.continued ⟨as, hl, ha⟩
  obtain ⟨bs, hbs, hb⟩ := hcont
  have heq : bs = as := List.append_cancel_left (hbs.symm.trans hl)
  subst heq
  refine ⟨p1, p2, data, bs, [], ?_, ha, hp, hh⟩
  rw [hbs, sessionLog_of_not_opens hb, hopen, List.append_nil, List.singleton_append]

/-- Nothing of an earlier session is in the hash. -/
theorem Fresh.hashed (h : Fresh i s) :
    ConcordiumLedger.hashed s.log = ConcordiumLedger.hashed (sessionLog s.log) := by
  obtain ⟨p1, p2, data, as, rest, hl, ha, hp, hh⟩ := h
  obtain ⟨pre, hpre⟩ := sessionLog_suffix s.log
  have hinit : .sha256Init ∈ sessionLog s.log := by
    rw [hl]
    exact List.mem_cons_of_mem _ (List.mem_append_left _ hh)
  rw [← hashed_of_init hinit pre, hpre]

/-! ## Screens of a session -/

/-- The callbacks that lead to no Sign screen. -/
def closing : List Callback :=
  [.none, .sendSuccessNoIdle, .sendUserRejection, .sendSuccess, .sendPublicKey, .exportPrivateKey,
    .uiIdle, .osSchedExit]

/-- Screens that call nothing else. -/
def Closes (k : ScreenKind) : Prop := ∀ cb ∈ k.callbacks, cb ∈ closing

instance (k : ScreenKind) : Decidable (Closes k) :=
  inferInstanceAs (Decidable (∀ cb ∈ k.callbacks, cb ∈ closing))

theorem Only.closing {k : ScreenKind} {flow : List Step} (h : Only k.callbacks flow)
    (hk : Closes k) : Only closing flow := fun st hst => hk _ (h st hst)

theorem not_offersSign_of_closing {flow : List Step} (h : Only closing flow) :
    offersSign flow = false := h.not_offersSign (by decide)

/-- The steps of an instruction are pressed on screens of the current session. -/
def OnScreen (d : Device μ) : Event → Prop
  | .press i => (d.shared.pressed i).isShared = false →
      d.shared.currentInstruction ≠ none ∧ screens d.shared ≠ []
  | _ => True

instance (d : Device μ) (ev : Event) : Decidable (OnScreen d ev) :=
  match ev with
  | .press _ => inferInstanceAs (Decidable (_ → _))
  | .command _ => .isTrue trivial
  | .noApdu => .isTrue trivial

/-- The command that opens a session meets the condition. -/
def Opens (starts : Apdu → Prop) (d : Device μ) : Event → Prop
  | .command c => d.shared.currentInstruction = none → starts c
  | _ => True

instance (starts : Apdu → Prop) [DecidablePred starts] (d : Device μ) (ev : Event) :
    Decidable (Opens starts d ev) :=
  match ev with
  | .command _ => inferInstanceAs (Decidable (_ → _))
  | .press _ => .isTrue trivial
  | .noApdu => .isTrue trivial

/-! ## Applications -/

/-- `signs` says which instructions sign transactions, `starts` how their sessions have to begin;
`kinds` lists which bytes an instruction accepts at `n` of what it signs. -/
structure Isolating (app : App μ) (signs : UInt8 → Prop) (starts : Apdu → Prop) (n : Nat)
    (kinds : List (UInt8 × List UInt8)) : Prop where
  framed : Framed app (fun _ => Inner) (fun _ => Inner) Inner
  restarts : ∀ c, signs c.ins → starts c → Restarts false false (app.handler c true)
  heads : ∀ c ks, (c.ins, ks) ∈ kinds → starts c → Heads n ks (app.handler c true)
  keepsHead : ∀ c ks, (c.ins, ks) ∈ kinds → KeepsHead n ks (app.handler c false)
  closes : ∀ c b, ¬ signs c.ins → Ends Closes Touched (Shown Closes) (Ended Closes) (app.handler c b)
  appends : ∀ cb, cb.isShared = false → Shows AnyScreen Appends Appends (app.callback cb)
  closing : ∀ cb, cb.isShared = false → cb ∈ closing →
    Shows Closes Touched (Shown Closes) (app.callback cb)

/-- What a session of an instruction that signs has done from its first command on. -/
structure Ready (n : Nat) (kinds : List (UInt8 × List UInt8)) (i : UInt8) (s : Shared) : Prop where
  fresh : Fresh i s
  head : ∀ ks, (i, ks) ∈ kinds → HeadAt n ks s

theorem Ready.extend {n : Nat} {kinds : List (UInt8 × List UInt8)} (h : Ready n kinds i s)
    (hc : Continued s s') (ha : Appends s s') : Ready n kinds i s' :=
  ⟨h.fresh.extend hc, fun ks hk => (h.head ks hk).appends ha⟩

structure Isolated (signs : UInt8 → Prop) (n : Nat) (kinds : List (UInt8 × List UInt8))
    (s : Shared) : Prop where
  /-- Sign is offered in a session that is ready, or after it. -/
  offered : offersSign s.display = true → ∃ i, signs i ∧ Ready n kinds i s
  signing : s.running = true → ∀ i, s.currentInstruction = some i → signs i → Ready n kinds i s
  other : s.running = true → ∀ i, s.currentInstruction = some i → ¬ signs i →
    screens s = [] ∨ Only closing s.display

/-! ## One step -/

section Step

variable {signs : UInt8 → Prop} {n : Nat} {kinds : List (UInt8 × List UInt8)}

theorem Passed.continued {t t' : Device μ} (h : Passed t t') : Continued t.shared t'.shared := by
  obtain ⟨as, hl, ha⟩ := h.log
  refine ⟨as, hl, fun a hmem => ?_⟩
  have hq := ha a hmem
  cases a with
  | setInstruction ins => cases ins <;> simp_all [Action.quiet, Action.opens]
  | _ => rfl

theorem Isolated.passed {t t' : Device μ} (h : Isolated signs n kinds t.shared) (hp : Passed t t') :
    Isolated signs n kinds t'.shared := by
  have hready {i : UInt8} (hr : Ready n kinds i t.shared) : Ready n kinds i t'.shared :=
    hr.extend hp.continued (.of_eq hp.hash)
  constructor
  · intro hs
    rcases hp.display with ⟨-, hd⟩ | hd
    · rw [hd] at hs
      obtain ⟨i, hi, hr⟩ := h.offered hs
      exact ⟨i, hi, hready hr⟩
    · rw [hd, offersSign_menu] at hs
      cases hs
  · intro hrun i hi hsign
    obtain ⟨-, hcur, hrun', -⟩ := hp.goes_on hrun (by simp [hi])
    exact hready (h.signing hrun' i (hcur ▸ hi) hsign)
  · intro hrun i hi hsign
    obtain ⟨hd, hcur, hrun', hscreens⟩ := hp.goes_on hrun (by simp [hi])
    rw [hd, hscreens]
    exact h.other hrun' i (hcur ▸ hi) hsign

/-- A caught error ends the session and leaves the screen up. -/
theorem Isolated.caught (h : offersSign s.display = true → ∃ i, signs i ∧ Ready n kinds i s)
    (e : Error) : Isolated signs n kinds (catchOther e s) := by
  have hcont : Continued s (catchOther e s) := (Frame.caught e s : Inner s _).continued
  have hhash : Appends s (catchOther e s) := .of_eq (catchOther_hash e s)
  have hnone {i : UInt8} (hr : (catchOther e s).running = true)
      (hi : (catchOther e s).currentInstruction = some i) : False := by
    rw [catchOther_ended e s hr] at hi
    cases hi
  constructor
  · intro hs
    rw [catchOther_display] at hs
    obtain ⟨i, hi, hr⟩ := h hs
    exact ⟨i, hi, hr.extend hcont hhash⟩
  · exact fun hr i hi => (hnone hr hi).elim
  · exact fun hr i hi => (hnone hr hi).elim

/-- The session of an instruction that signs is ready and goes on, or is over. -/
theorem Isolated.of_ready (hi : signs i) (h : Ready n kinds i s)
    (hcur : ∀ j, s.currentInstruction = some j → j = i) : Isolated signs n kinds s where
  offered _ := ⟨i, hi, h⟩
  signing _ j hj _ := hcur j hj ▸ h
  other _ j hj hn := absurd (hcur j hj ▸ hi) hn

/-- So is the session of another instruction. -/
theorem Isolated.of_closing (hi : ¬ signs i) (hd : offersSign s.display = false)
    (h : screens s = [] ∨ Only closing s.display)
    (hcur : ∀ j, s.currentInstruction = some j → j = i) : Isolated signs n kinds s where
  offered hs := by rw [hd] at hs; cases hs
  signing _ j hj hsign := absurd (hcur j hj ▸ hsign) hi
  other _ _ _ _ := h

/-! ### Screens -/

theorem screens_of_touched (h : Touched s s') : screens s' = screens s := by
  obtain ⟨as, hl, ha⟩ := h.log
  have hopens : ∀ a ∈ as, a.opens = false := by
    intro a hmem
    have ht := ha a hmem
    cases a <;> simp_all [Action.touches, Action.opens]
  rw [screens, hl, sessionLog_of_not_opens hopens, flows_append,
    flows_of_not_shows (not_shows_of_touches ha), List.append_nil, screens]

/-- A session without Sign screens. -/
def Quiet (s : Shared) : Prop :=
  offersSign s.display = false ∧ (screens s = [] ∨ Only closing s.display)

theorem Quiet.of_only (h : Only closing s.display) : Quiet s := ⟨not_offersSign_of_closing h, .inr h⟩

theorem Shown.quiet (h : Shown Closes s s') (hs : Quiet s) : Quiet s' := by
  have htouched {m : Shared} (h : Touched s m) : Quiet m := by
    rw [Quiet, h.display, screens_of_touched h]
    exact hs
  cases h with
  | touched h => exact htouched h
  | screen _ hk honly => exact .of_only (honly.closing hk)
  | replied h data =>
    have hm := htouched h
    exact ⟨hm.1, by simpa using hm.2⟩
  | finished _ _ hk honly => exact .of_only (honly.closing hk)
  | loading _ _ honly =>
    refine .of_only (Only.mono honly ?_)
    simp [ConcordiumLedger.closing]

theorem Ended.quiet (h : Ended Closes s s') (hs : Quiet s) : Quiet s' := by
  obtain ⟨m, hm, rfl | rfl⟩ := h
  · exact hm.quiet hs
  · exact hm.quiet hs

/-! ### Commands -/

variable {app : App μ} {d d' t : Device μ} {c : Apdu} {starts : Apdu → Prop} {L : ScreenKind → Prop}
  {ins : UInt8}

theorem handed_hash {b : Bool} (h : handed d c = some (b, t)) : t.shared.hash = d.shared.hash := by
  unfold handed at h
  split at h
  · split at h
    · cases h
      rfl
    · split at h <;> cases h
      rfl
  · cases h

theorem handed_continued (h : handed d c = some (false, t)) :
    d.shared.currentInstruction = some c.ins := by
  unfold handed at h
  split at h
  · split at h
    · cases h
    · rename_i hi
      split at h
      · rename_i hins
        rw [hi, hins]
      · cases h
  · cases h

/-- Before the handler of an instruction that signs nothing. -/
theorem Isolated.quiet_handed {b : Bool} (h : Isolated signs n kinds d.shared)
    (hhand : handed d c = some (b, t)) (hr : d.shared.running = true)
    (hd : offersSign d.shared.display = false) (hsign : ¬ signs c.ins) : Quiet t.shared := by
  have ht := handing hhand
  refine ⟨ht.display ▸ hd, ?_⟩
  cases b with
  | true =>
    refine .inl ?_
    have hlog : t.shared.log = d.shared.log ++ [.setInstruction (some c.ins)] ++
        [.handler c.ins c.p1 c.p2 c.data] := by simpa using ht.log
    simp [screens, hlog, sessionStep, flows]
  | false =>
    have hlog : t.shared.log = d.shared.log ++ [.handler c.ins c.p1 c.p2 c.data] := by
      simpa using ht.log
    have hscreens : screens t.shared = screens d.shared := by
      simp [screens, hlog, sessionStep, flows]
    rw [hscreens, ht.display]
    exact h.other hr c.ins (handed_continued hhand) hsign

/-- The instruction that the handler leaves is the one of its command. -/
theorem Handing.instruction_ok {b : Bool} (ht : Handing d c b t) (hkept : KeepsSessions app)
    {t' : Device μ}
    (hx : app.handler c b t = .ok ⟨⟩ t') : ∀ j, t'.shared.currentInstruction = some j → j = c.ins := by
  intro j hj
  have hs := of_wp_ok ((hkept.handler c b).holds t) hx
  have hcur := hs j hj
  rw [ht.instruction] at hcur
  exact (Option.some.inj hcur).symm

theorem Isolated.open (happ : Isolating app signs starts n kinds) (hkept : KeepsSessions app)
    (ht : Handing d c true t) (hstarts : starts c) (hd : offersSign d.shared.display = false)
    (hsign : signs c.ins) : Isolated signs n kinds (finish (app.handler c true t)).shared := by
  have hfresh {s' : Shared} (h : Restarted t.shared s') : Fresh c.ins s' :=
    .of_restarted (by simpa using ht.log) h
  have hrestarts := (happ.restarts c hsign hstarts).holds t.shared t ⟨.refl _, by simp, by simp⟩
  have hheads ks (hk : (c.ins, ks) ∈ kinds) := (happ.heads c ks hk hstarts).holds t
  cases hx : app.handler c true t with
  | ok a t' =>
    have hr := of_wp_ok hrestarts hx
    refine .of_ready hsign ⟨hfresh hr, fun ks hk => ?_⟩ (ht.instruction_ok hkept hx)
    have hhead := of_wp_ok (hheads ks hk) hx
    exact hhead
  | thrown e t' =>
    refine .caught (fun hs => ?_) e
    have huntouched : ¬ Touched t.shared t'.shared := by
      intro htouch
      rw [htouch.display, ht.display, hd] at hs
      cases hs
    have hr := (of_wp_thrown hrestarts hx).resolve_left huntouched
    refine ⟨c.ins, hsign, hfresh hr, fun ks hk => ?_⟩
    exact (of_wp_thrown (hheads ks hk) hx).resolve_left huntouched

theorem Isolated.continue (happ : Isolating app signs starts n kinds) (hkept : KeepsSessions app)
    (ht : Handing d c false t) (hash : t.shared.hash = d.shared.hash)
    (hd : offersSign d.shared.display = false) (hsign : signs c.ins)
    (hready : Ready n kinds c.ins d.shared) :
    Isolated signs n kinds (finish (app.handler c false t)).shared := by
  have hentered : Ready n kinds c.ins t.shared := by
    refine hready.extend ⟨[.handler c.ins c.p1 c.p2 c.data], ?_, by simp [Action.opens]⟩ (.of_eq hash)
    simpa using ht.log
  have hinner := (happ.framed.handler c false).holds t
  have hkeeps ks (hk : (c.ins, ks) ∈ kinds) :=
    (happ.keepsHead c ks hk).holds t (hentered.head ks hk)
  cases hx : app.handler c false t with
  | ok a t' =>
    have hcont : Inner t.shared t'.shared := by
      have h := of_wp_ok hinner hx
      exact h
    refine .of_ready hsign ⟨hentered.fresh.extend hcont.continued, fun ks hk => ?_⟩
      (ht.instruction_ok hkept hx)
    have hhead := of_wp_ok (hkeeps ks hk) hx
    exact hhead
  | thrown e t' =>
    refine .caught (fun hs => ?_) e
    have hcont : Inner t.shared t'.shared := by
      have h := of_wp_thrown hinner hx
      exact h
    have huntouched : ¬ Touched t.shared t'.shared := by
      intro htouch
      rw [htouch.display, ht.display, hd] at hs
      cases hs
    refine ⟨c.ins, hsign, hentered.fresh.extend hcont.continued, fun ks hk => ?_⟩
    exact (of_wp_thrown (hkeeps ks hk) hx).resolve_left huntouched

/-- The session of an instruction that signs nothing. -/
theorem Isolated.aside {b : Bool} (happ : Isolating app signs starts n kinds)
    (hkept : KeepsSessions app) (ht : Handing d c b t) (hsign : ¬ signs c.ins)
    (hq : Quiet t.shared) : Isolated signs n kinds (finish (app.handler c b t)).shared := by
  have hcloses := (happ.closes c b hsign).holds t
  cases hx : app.handler c b t with
  | ok a t' =>
    have hended : Ended Closes t.shared t'.shared := by
      have h := of_wp_ok hcloses hx
      exact h
    obtain ⟨hd, hscreens⟩ := hended.quiet hq
    exact .of_closing hsign hd hscreens (ht.instruction_ok hkept hx)
  | thrown e t' =>
    have hshown : Shown Closes t.shared t'.shared := by
      have h := of_wp_thrown hcloses hx
      exact h
    refine .caught (fun hs => ?_) e
    rw [(hshown.quiet hq).1] at hs
    cases hs

theorem Isolated.command (h : Isolated signs n kinds d.shared)
    (happ : Isolating app signs starts n kinds) (hkept : KeepsSessions app)
    (hr : d.shared.running = true) (hs : step app d (.command c) = some d')
    (hu : Unhurried d (.command c)) (hc : Opens starts d (.command c)) :
    Isolated signs n kinds d'.shared := by
  cases hhand : handed d c with
  | none =>
    obtain ⟨-, e, -, hshared⟩ := step_refused hhand hs
    have hreceived : offersSign (receivedCommand d).shared.display = true →
        ∃ i, signs i ∧ Ready n kinds i (receivedCommand d).shared := fun hs => by
      obtain ⟨i, hi, hready⟩ := h.offered hs
      exact ⟨i, hi, hready.extend ⟨[], (List.append_nil _).symm, by simp⟩ (.of_eq rfl)⟩
    rw [hshared]
    exact .caught hreceived e
  | some p =>
    obtain ⟨b, t⟩ := p
    have ht := handing hhand
    have hd : offersSign d.shared.display = false := hu (by rw [hhand]; rfl)
    have hash : t.shared.hash = d.shared.hash := handed_hash hhand
    rw [step_handed hhand hs]
    by_cases hsign : signs c.ins
    · cases b with
      | true => exact .open happ hkept ht (hc (ht.initial.mp rfl)) hd hsign
      | false =>
        exact .continue happ hkept ht hash hd hsign
          (h.signing hr c.ins (handed_continued hhand) hsign)
    · exact .aside happ hkept ht hsign (h.quiet_handed hhand hr hd hsign)

/-! ### Presses -/

theorem Isolated.press {j : Nat} (h : Isolated signs n kinds d.shared)
    (happ : Isolating app signs starts n kinds) (hkept : KeepsSessions app)
    (hr : d.shared.running = true) (hcb : (d.shared.pressed j).isShared = false)
    (hon : OnScreen d (.press j)) :
    Isolated signs n kinds (finish (app.callback (d.shared.pressed j) d)).shared := by
  obtain ⟨hcur, hscreens⟩ := hon hcb
  obtain ⟨i, hi⟩ := Option.ne_none_iff_exists'.mp hcur
  by_cases hsign : signs i
  · have hready := h.signing hr i hi hsign
    have hinner := (happ.framed.callback (d.shared.pressed j)).holds d
    have happends := (happ.appends _ hcb).holds d
    have hsessions := (hkept.callback (d.shared.pressed j)).holds d
    refine finish_of_wp (P := fun t => Isolated signs n kinds t.shared) ?_
    refine wp_mono (wp_and hinner (wp_and happends hsessions)) ?_ ?_
    · rintro _ t ⟨hin, happ, hk⟩
      refine .of_ready hsign (hready.extend hin.continued happ) fun k hcur' => ?_
      have hsame := hk k hcur'
      rw [hi] at hsame
      exact (Option.some.inj hsame).symm
    · rintro e t ⟨hin, happ, -⟩
      exact .caught (fun _ => ⟨i, hsign, hready.extend hin.continued happ⟩) e
  · have honly := (h.other hr i hi hsign).resolve_left hscreens
    have hclosing := (happ.closing _ hcb (pressed_mem honly (by decide) j)).holds d
    have hsessions := (hkept.callback (d.shared.pressed j)).holds d
    have hquiet : Quiet d.shared := .of_only honly
    refine finish_of_wp (P := fun t => Isolated signs n kinds t.shared) ?_
    refine wp_mono (wp_and hclosing hsessions) ?_ ?_
    · rintro _ t ⟨hshown, hk⟩
      obtain ⟨hd, hother⟩ := Shown.quiet hshown hquiet
      refine .of_closing hsign hd hother fun k hcur' => ?_
      have hsame := hk k hcur'
      rw [hi] at hsame
      exact (Option.some.inj hsame).symm
    · rintro e t ⟨hshown, -⟩
      refine .caught (fun hs => ?_) e
      rw [(Shown.quiet hshown hquiet).1] at hs
      cases hs

theorem Isolated.step {ev : Event} (h : Isolated signs n kinds d.shared)
    (happ : Isolating app signs starts n kinds) (hkept : KeepsSessions app)
    (ha : Screened app ins L) (hs : step app d ev = some d') (hu : Unhurried d ev)
    (hon : OnScreen d ev) (hc : Opens starts d ev) : Isolated signs n kinds d'.shared := by
  have hreceived {t : Device μ} (hd : t.shared.display = d.shared.display)
      (hl : t.shared.log = d.shared.log) (hh : t.shared.hash = d.shared.hash) :
      offersSign t.shared.display = true → ∃ i, signs i ∧ Ready n kinds i t.shared := by
    intro ho
    obtain ⟨i, hi, hready⟩ := h.offered (hd ▸ ho)
    exact ⟨i, hi, hready.extend ⟨[], by simp [hl], by simp⟩ (.of_eq hh)⟩
  cases ev with
  | command c => exact h.command happ hkept (step_command hs).1 hs hu hc
  | press j =>
    obtain ⟨hr, rfl⟩ := step_press hs
    by_cases hcb : (d.shared.pressed j).isShared = true
    · exact h.passed (ha.shared _ hcb d)
    · exact h.press happ hkept hr (by simpa using hcb) hon
  | noApdu =>
    unfold ConcordiumLedger.step at hs
    split at hs
    · cases hs
      have hcaught := Isolated.caught (hreceived (t := received d) rfl rfl rfl) .noApduReceived
      exact hcaught
    · cases hs

end Step

/-! ## Runs -/

/-- What was signed, with the path that it was signed with, is of one session. -/
structure SignedInSession (signs : UInt8 → Prop) (n : Nat) (kinds : List (UInt8 × List UInt8))
    (d : Device μ) (i : UInt8) (input : List UInt8) : Prop where
  signs : signs i
  /-- The session is one of `i`; its first command has read the path and started the hash anew. -/
  fresh : Fresh i d.shared
  input_eq : input = hashed (sessionLog d.shared.log)
  head : ∀ ks, (i, ks) ∈ kinds → ∃ b ∈ ks, input[n]? = some b

/-- The condition on the events: no handler runs on a Sign screen, the other screens are only
pressed in their session, and the first packet of a session is an initial one. -/
structure Orderly (starts : Apdu → Prop) (d : Device μ) (ev : Event) : Prop where
  unhurried : Unhurried d ev
  onScreen : OnScreen d ev
  opens : Opens starts d ev

instance (starts : Apdu → Prop) [DecidablePred starts] (d : Device μ) (ev : Event) :
    Decidable (Orderly starts d ev) :=
  decidable_of_iff (Unhurried d ev ∧ OnScreen d ev ∧ Opens starts d ev)
    ⟨fun ⟨hu, ho, hs⟩ => ⟨hu, ho, hs⟩, fun ⟨hu, ho, hs⟩ => ⟨hu, ho, hs⟩⟩

section Runs

variable {sdk : Sdk} {app : App μ} {own : Callback → Fw μ PUnit} {ins : UInt8}
  {L : ScreenKind → Prop} {signs : UInt8 → Prop} {starts : Apdu → Prop} {n : Nat}
  {kinds : List (UInt8 × List UInt8)} {d : Device μ}

/-- Over all sequences of commands and presses. -/
theorem signatures_isolated (happ : Isolating app signs starts n kinds)
    (hcb : app.callback = sharedCallback sdk own) (ha : Screened app ins L)
    (hkept : KeepsSessions app)
    (hframed : Framed app (fun _ => HashLogged) (fun _ => HashLogged) HashLogged)
    (hd : Resting d) {events : List Event}
    (h : Always (step app) (fun d ev _ => Orderly starts d ev) d events) :
    Always (step app) (fun d _ d' => ∀ path input,
      .signed path input ∈ newActions d.shared d'.shared →
        ∃ i, SignedInSession signs n kinds d i input) d events := by
  refine (always_and.mp ((Always.congr_of_invariant
    (I := fun d => Consistent d ∧ Isolated signs n kinds d.shared)
    (P := fun d ev d' => Orderly starts d ev ∧ ∀ path input,
      .signed path input ∈ newActions d.shared d'.shared →
        ∃ i, SignedInSession signs n kinds d i input)
    (Q := fun d ev _ => Orderly starts d ev) (fun d ev d' hI hs => ?_)
    ⟨.of_not_offersSign hd.hash hd.display, ?_⟩).mpr h)).2
  · obtain ⟨hcon, hiso⟩ := hI
    refine ⟨⟨And.left, fun hc => ⟨hc, fun path input hmem => ?_⟩⟩, fun hc => ⟨?_, ?_⟩⟩
    · have hsigned := (hcon.step hcb ha hframed hs hc.unhurried).2 path input hmem
      obtain ⟨j, -, hj⟩ := hsigned.pressed
      obtain ⟨i, hsign, hready⟩ := hiso.offered (offersSign_of_pressed hj)
      refine ⟨i, hsign, hready.fresh, hsigned.input_eq.trans hready.fresh.hashed, fun ks hk => ?_⟩
      rw [hsigned.input_eq, ← hcon.1.1]
      exact hready.head ks hk
    · exact (hcon.step hcb ha hframed hs hc.unhurried).1
    · exact hiso.step happ hkept ha hs hc.unhurried hc.onScreen hc.opens
  · refine ⟨fun hs => ?_, fun _ i hcur => ?_, fun _ i hcur => ?_⟩
    · rw [hd.display] at hs
      cases hs
    · rw [hd.instruction] at hcur
      cases hcur
    · rw [hd.instruction] at hcur
      cases hcur

/-! ### Signatures of a run -/

theorem Fresh.unique {j : UInt8} {s : Shared} (h : Fresh i s) (h' : Fresh j s) : i = j := by
  obtain ⟨_, _, _, _, _, hl, -⟩ := h
  obtain ⟨_, _, _, _, _, hl', -⟩ := h'
  rw [hl, List.cons.injEq] at hl'
  cases hl'.1
  rfl

/-- The events lead through a step that signs `input` in a session of the instruction `i`. -/
def SignsIn (app : App μ) (d : Device μ) (events : List Event) (i : UInt8) (input : List UInt8) :
    Prop :=
  ∃ pre ev t u path, pre ++ [ev] <+: events ∧ exec (step app) d pre = some t ∧
    step app t ev = some u ∧ .signed path input ∈ newActions t.shared u.shared ∧ Fresh i t.shared

/-- The byte that tells what kind of transaction was signed. -/
theorem SignsIn.head {events : List Event} {input : List UInt8} {ks : List UInt8}
    (hs : SignsIn app d events i input) (happ : Isolating app signs starts n kinds)
    (hcb : app.callback = sharedCallback sdk own) (ha : Screened app ins L)
    (hkept : KeepsSessions app)
    (hframed : Framed app (fun _ => HashLogged) (fun _ => HashLogged) HashLogged)
    (hd : Resting d) (h : Always (step app) (fun d ev _ => Orderly starts d ev) d events)
    (hk : (i, ks) ∈ kinds) : ∃ b ∈ ks, input[n]? = some b := by
  have hsigned := signatures_isolated happ hcb ha hkept hframed hd h
  obtain ⟨pre, ev, t, u, path, hpre, ht, hu, hmem, hfresh⟩ := hs
  obtain ⟨j, hj⟩ := always_iff.mp hsigned pre ev t u hpre ht hu path input hmem
  cases hfresh.unique hj.fresh
  exact hj.head ks hk

end Runs

end ConcordiumLedger
