import ConcordiumLedger.Common.Globals

/-!
# Common.Observations

What the log and the display say about a session: the words in which the properties of the
instructions are stated.
-/

namespace ConcordiumLedger

open CMem

def Step.signs (st : Step) : Bool := st.callback = .buildAndSignTransactionHash

/-- A flow that contains a Sign step. -/
def offersSign (flow : List Step) : Bool := flow.any Step.signs

/-- The log since the last start of a session, one action further. -/
def sessionStep (log : List Action) : Action → List Action
  | .setInstruction (some _) => []
  | a => log ++ [a]

/-- The actions since the last start of a session. -/
def sessionLog (log : List Action) : List Action := log.foldl sessionStep []

@[simp] theorem sessionLog_append (log as : List Action) :
    sessionLog (log ++ as) = as.foldl sessionStep (sessionLog log) := by
  simp only [sessionLog, List.foldl_append]

/-- The flows that were put on the display, in order. -/
def flows (log : List Action) : List (List Step) :=
  log.filterMap fun
    | .uxFlowInit flow => some flow
    | _ => none

@[simp] theorem flows_append (log as : List Action) :
    flows (log ++ as) = flows log ++ flows as := by
  simp only [flows, List.filterMap_append]

@[simp] theorem flows_nil : flows [] = [] := rfl

@[simp] theorem flows_cons_updateHash (bytes : List UInt8) (as : List Action) :
    flows (.updateHash bytes :: as) = flows as := rfl

@[simp] theorem flows_uxFlowInit (s : Shared) (flow : List Step) :
    flows (s.uxFlowInit flow).log = flows s.log ++ [flow] := by
  simp [flows]

/-- The steps that were put on the display between two states. -/
def putUp (s s' : Shared) : List Step := ((flows s'.log).drop (flows s.log).length).flatten

theorem putUp_of_flows {s s' : Shared} {shown : List (List Step)}
    (h : flows s'.log = flows s.log ++ shown) : putUp s s' = shown.flatten := by
  rw [putUp, h, List.drop_left]

theorem putUp_nil {s s' : Shared} (h : flows s'.log = flows s.log) : putUp s s' = [] := by
  have hnil : flows s'.log = flows s.log ++ [] := by rw [h, List.append_nil]
  exact putUp_of_flows hnil

/-- The flows that the current session has put on the display, in order. -/
def screens (s : Shared) : List (List Step) := flows (sessionLog s.log)

section Screens

variable (s : Shared)

@[simp] theorem screens_sha256Init : screens s.sha256Init = screens s := by
  simp [screens, sessionStep, flows]

@[simp] theorem screens_updateHash (bytes : List UInt8) :
    screens (s.updateHash bytes) = screens s := by
  simp [screens, sessionStep, flows]

@[simp] theorem screens_reply (data : List UInt8) (sw : UInt16) :
    screens (s.reply data sw) = screens s := by
  simp [screens, sessionStep, flows]

@[simp] theorem screens_handler (ins p1 p2 : UInt8) (data : List UInt8) :
    screens (s.act (.handler ins p1 p2 data)) = screens s := by
  simp [screens, sessionStep, flows]

@[simp] theorem screens_uxFlowInit (flow : List Step) :
    screens (s.uxFlowInit flow) = screens s ++ [flow] := by
  simp [screens, sessionStep, flows]

@[simp] theorem screens_setInstruction (ins : UInt8) :
    screens (s.setInstruction (some ins)) = [] := by
  simp [screens, sessionStep, flows]

end Screens

/-- The string that a step shows. -/
def Step.shown (st : Step) : Option (List UInt8) := cString st.text

/-- What the session has shown: the title and the text of each step, in order. -/
def shownSteps (s : Shared) : List (String × Option (List UInt8)) :=
  (screens s).flatten.map fun st => (st.title, st.shown)

@[simp] theorem shownSteps_uxFlowInit (s : Shared) (flow : List Step) :
    shownSteps (s.uxFlowInit flow) = shownSteps s ++ flow.map fun st => (st.title, st.shown) := by
  simp [shownSteps]

theorem shownSteps_congr {s s' : Shared} (h : screens s' = screens s) :
    shownSteps s' = shownSteps s := by
  rw [shownSteps, h, shownSteps]

/-- All callbacks of a flow are among the given ones. -/
def Only (cbs : List Callback) (flow : List Step) : Prop := ∀ st ∈ flow, st.callback ∈ cbs

instance (cbs : List Callback) (flow : List Step) : Decidable (Only cbs flow) :=
  inferInstanceAs (Decidable (∀ st ∈ flow, st.callback ∈ cbs))

/-- The shared steps go on with the session, sign or decline; other screens call one function of
their instruction. -/
inductive ScreenKind where
  | shared
  | own (cb : Callback)
deriving DecidableEq

def ScreenKind.callbacks : ScreenKind → List Callback
  | .shared => [.none, .sendSuccessNoIdle, .buildAndSignTransactionHash, .sendUserRejection]
  | .own cb => [.none, .sendSuccessNoIdle, cb, .sendUserRejection]

theorem Only.mono {cbs cbs' : List Callback} {flow : List Step} (h : Only cbs flow)
    (hs : cbs ⊆ cbs') : Only cbs' flow := fun st hst => hs (h st hst)

theorem Only.append {cbs : List Callback} {f g : List Step} (hf : Only cbs f) (hg : Only cbs g) :
    Only cbs (f ++ g) := by
  intro st hst
  rcases List.mem_append.mp hst with h | h
  · exact hf st h
  · exact hg st h

theorem Only.not_offersSign {cbs : List Callback} {flow : List Step} (h : Only cbs flow)
    (hc : .buildAndSignTransactionHash ∉ cbs) : offersSign flow = false := by
  rw [offersSign, List.any_eq_false]
  intro st hst hs
  have hcb : st.callback = .buildAndSignTransactionHash := by simpa [Step.signs] using hs
  exact hc (hcb ▸ h st hst)

end ConcordiumLedger
