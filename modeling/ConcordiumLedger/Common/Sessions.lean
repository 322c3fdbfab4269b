import ConcordiumLedger.Common.Frames
import ConcordiumLedger.Common.Presses

/-!
# Common.Sessions

What an event does to the current session in a run of any commands and presses, rejected or not.

* `Delivered`    — a command begins a session, continues the current one, or leaves none.
* `SessionKept`  — no function but the loop makes an instruction the current one.
* `dataWith`     — the data of the commands of the session with a given P1.
-/

namespace ConcordiumLedger

open CMem CProg CProg.Prog

variable {μ : Type} {app : App μ} {d d' : Device μ}

/-! ## Commands -/

inductive Delivered (app : App μ) (d : Device μ) (c : Apdu) (d' : Device μ) : Prop where
  | began (hcla : c.cla = 0xE0) (hidle : d.shared.currentInstruction = none)
      (hh : app.handler c true (opened d c) = .ok ⟨⟩ d')
  | continued (hcla : c.cla = 0xE0) (hcur : d.shared.currentInstruction = some c.ins)
      (hh : app.handler c false (entered d c) = .ok ⟨⟩ d')
  | rejected (hend : d'.shared.running = true → d'.shared.currentInstruction = none)

theorem cla_of_dispatch {c : Apdu} (h : dispatch app c (receivedCommand d) = .ok ⟨⟩ d') :
    c.cla = 0xE0 := by
  have hw : wp (dispatch app c) (fun _ _ => c.cla = 0xE0) (fun _ _ => True) (receivedCommand d) := by
    unfold dispatch
    rw [wp_bind, Fw.wp_throwIf]
    refine ⟨fun _ => trivial, fun hcla => ?_⟩
    exact wp_of_run (fun _ _ _ => not_not.mp hcla) fun _ _ _ => trivial
  have hq := of_wp_ok hw h
  exact hq

theorem ins_of_dispatch {c : Apdu} {i : UInt8} (hi : d.shared.currentInstruction = some i)
    (h : dispatch app c (receivedCommand d) = .ok ⟨⟩ d') : i = c.ins := by
  have hw : wp (dispatch app c) (fun _ _ => i = c.ins) (fun _ _ => True) (receivedCommand d) := by
    have hr : (receivedCommand d).shared.currentInstruction = some i := hi
    unfold dispatch
    rw [wp_bind, Fw.wp_throwIf]
    refine ⟨fun _ => trivial, fun _ => ?_⟩
    rw [wp_bind, Fw.wp_getShared, hr]
    dsimp only
    rw [wp_bind, Fw.wp_throwIf]
    refine ⟨fun _ => trivial, fun hins => ?_⟩
    exact wp_of_run (fun _ _ _ => not_not.mp hins) fun _ _ _ => trivial
  have hq := of_wp_ok hw h
  exact hq

theorem step_command {c : Apdu} (h : step app d (.command c) = some d') :
    d.shared.running = true ∧ Delivered app d c d' := by
  unfold step at h
  split at h
  · rename_i hr
    refine ⟨hr, ?_⟩
    cases hx : dispatch app c (receivedCommand d) with
    | ok a t =>
      simp only [hx, finish, Option.some.injEq] at h
      subst h
      have hcla := cla_of_dispatch hx
      cases hi : d.shared.currentInstruction with
      | none => exact .began hcla hi (dispatch_none app c hi hx)
      | some i =>
        have hins := ins_of_dispatch hi hx
        subst hins
        exact .continued hcla hi (dispatch_some app c hi hx)
    | thrown e t =>
      simp only [hx, finish, Option.some.injEq] at h
      subst h
      exact .rejected fun hr => catchOther_ended e t.shared hr
  · cases h

theorem step_press {i : Nat} (h : step app d (.press i) = some d') :
    d.shared.running = true ∧ d' = finish (app.callback (d.shared.pressed i) d) := by
  unfold step at h
  split at h
  · rename_i hr
    cases h
    exact ⟨hr, rfl⟩
  · cases h

theorem step_noApdu (h : step app d .noApdu = some d') :
    d'.shared.running = true → d'.shared.currentInstruction = none := by
  unfold step at h
  split at h
  · cases h
    exact fun hr => catchOther_ended _ _ hr
  · cases h

/-! ## The current instruction -/

def SessionKept (s s' : Shared) : Prop :=
  ∀ i, s'.currentInstruction = some i → s.currentInstruction = some i

instance : Frame SessionKept where
  refl _ _ h := h
  trans h h' i hi := h i (h' i hi)
  sha256Init _ _ h := h
  updateHash _ _ _ h := h
  uxFlowInit _ _ _ h := h
  reply _ _ _ _ h := h
  endSession _ _ h := by cases h
  sender _ _ _ h := h
  signed _ _ _ _ h := h
  exit _ _ h := h

instance : Waits SessionKept SessionKept SessionKept := .of_frame fun _ _ h => h

instance (cdata : Ptr) : Loads SessionKept cdata := by
  refine ⟨fun γ => ⟨fun t => ?_⟩⟩
  rw [wp_parseKeyDerivationPath]
  exact ⟨fun _ _ h => h, fun _ _ h => h⟩

abbrev KeepsSessions (app : App μ) : Prop :=
  Framed app (fun _ => SessionKept) (fun _ => SessionKept) SessionKept

theorem Moves.finish {R : Shared → Shared → Prop} {x : Fw μ PUnit} (h : Moves R x)
    (hcatch : ∀ s s' e, R s s' → R s (catchOther e s')) (t : Device μ) :
    R t.shared (finish (x t)).shared :=
  finish_of_wp (P := fun t' => R t.shared t'.shared)
    (wp_mono (h.holds t) (fun _ _ h => h) fun e _ h => hcatch _ _ e h)

/-- The instruction of a session that goes on after a command. -/
theorem Delivered.instruction (ha : KeepsSessions app) {c : Apdu} (h : Delivered app d c d')
    (hr : d'.shared.running = true) {i : UInt8} (hi : d'.shared.currentInstruction = some i) :
    i = c.ins := by
  cases h with
  | began hcla hidle hh =>
    have hkept := of_wp_ok ((ha.handler c true).holds (opened d c)) hh
    have hins := hkept i hi
    cases hins
    rfl
  | continued hcla hcur hh =>
    have hkept := of_wp_ok ((ha.handler c false).holds (entered d c)) hh
    have hins : d.shared.currentInstruction = some i := hkept i hi
    rw [hcur] at hins
    cases hins
    rfl
  | rejected hend =>
    rw [hend hr] at hi
    cases hi

/-- The instruction of a session that goes on after a press. -/
theorem press_instruction (ha : KeepsSessions app) (cb : Callback) {i : UInt8}
    (hi : (finish (app.callback cb d)).shared.currentInstruction = some i) :
    d.shared.currentInstruction = some i :=
  (ha.callback cb).finish (fun _ _ e h i hi => h i (catchOther_instruction e _ hi)) d i hi

/-! ## The data of a session -/

/-- The data of a command with this P1. -/
def handlerData (p1 : UInt8) : Action → Option (List UInt8)
  | .handler _ p1' _ data => if p1' = p1 then some data else none
  | _ => none

/-- The data of the commands with this P1 that the current session has received, in a row. -/
def dataWith (p1 : UInt8) (s : Shared) : List UInt8 :=
  ((sessionLog s.log).filterMap (handlerData p1)).flatten

theorem dataWith_act {p1 : UInt8} {s s' : Shared} {a : Action} (hl : s'.log = s.log ++ [a])
    (ha : sessionStep (sessionLog s.log) a = sessionLog s.log ++ [a])
    (hd : handlerData p1 a = none) : dataWith p1 s' = dataWith p1 s := by
  rw [dataWith, hl, sessionLog_append, List.foldl_cons, List.foldl_nil, ha, List.filterMap_append,
    List.filterMap_cons_none hd, List.filterMap_nil, List.append_nil, dataWith]

theorem dataWith_entered (p1 : UInt8) (d : Device μ) (c : Apdu) :
    dataWith p1 (entered d c).shared =
      dataWith p1 d.shared ++ if c.p1 = p1 then c.data else [] := by
  have hl : (entered d c).shared.log = d.shared.log ++ [.handler c.ins c.p1 c.p2 c.data] := rfl
  rw [dataWith, hl, sessionLog_append]
  by_cases h : c.p1 = p1
  · simp [sessionStep, handlerData, h, dataWith]
  · simp [sessionStep, handlerData, h, dataWith]

theorem dataWith_opened (p1 : UInt8) (d : Device μ) (c : Apdu) :
    dataWith p1 (opened d c).shared = if c.p1 = p1 then c.data else [] := by
  have hl : (opened d c).shared.log =
      d.shared.log ++ [.setInstruction (some c.ins)] ++ [.handler c.ins c.p1 c.p2 c.data] := rfl
  rw [dataWith, hl, sessionLog_append, sessionLog_append]
  by_cases h : c.p1 = p1
  · simp [sessionStep, handlerData, h]
  · simp [sessionStep, handlerData, h]

def DataKept (p1 : UInt8) (s s' : Shared) : Prop := dataWith p1 s' = dataWith p1 s

instance (p1 : UInt8) : Frame (DataKept p1) where
  refl _ := rfl
  trans h h' := Eq.trans h' h
  sha256Init _ := dataWith_act rfl rfl rfl
  updateHash _ _ := dataWith_act rfl rfl rfl
  uxFlowInit _ _ := dataWith_act rfl rfl rfl
  reply _ _ _ := dataWith_act rfl rfl rfl
  endSession _ := dataWith_act rfl rfl rfl
  sender _ _ := rfl
  signed _ _ _ := dataWith_act rfl rfl rfl
  exit _ := rfl

instance (p1 : UInt8) : Waits (DataKept p1) (DataKept p1) (DataKept p1) := .of_frame fun _ => rfl

instance (p1 : UInt8) (cdata : Ptr) : Loads (DataKept p1) cdata := by
  refine ⟨fun γ => ⟨fun t => ?_⟩⟩
  rw [wp_parseKeyDerivationPath]
  exact ⟨fun _ => dataWith_act rfl rfl rfl, fun _ => dataWith_act rfl rfl rfl⟩

theorem DataKept.caught {p1 : UInt8} {s s' : Shared} (e : Error) (h : DataKept p1 s s') :
    DataKept p1 s (catchOther e s') := by
  refine Steady.trans h ?_
  unfold catchOther
  split
  · dsimp only
    split
    · exact Frame.endSession s'
    · exact Steady.trans (Frame.endSession s') (Frame.reply _ [] e.code)
  · exact Frame.exit s'

abbrev KeepsData (app : App μ) (p1 : UInt8) : Prop :=
  Framed app (fun _ => DataKept p1) (fun _ => DataKept p1) (DataKept p1)

end ConcordiumLedger
