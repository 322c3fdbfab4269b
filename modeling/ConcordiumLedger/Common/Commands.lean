import ConcordiumLedger.Common.StreamedParts
import ConcordiumLedger.Lib.Encoding

/-!
# Common.Commands

Commands whose bytes are known, and what they lead to.

* `IsPath`  — the bytes of a key path.
* `withinSession` — an event of a session: a command that is accepted, or a press at any time.
* `begins_of_wp`, `commandStep_of_wp` — a command is accepted when its handler returns, and what
  the handler establishes holds of the context afterwards.
-/

namespace ConcordiumLedger

open CMem CProg CProg.Prog

variable {μ γ : Type}

/-- The number of nodes and the nodes of a key path. -/
def IsPath (path : List UInt8) : Prop :=
  ∃ (n : UInt8) (nodes : List UInt8), path = n :: nodes ∧ n ≤ 8 ∧ nodes.length = 4 * n.toNat

theorem IsPath.length {path : List UInt8} (h : IsPath path) {p : Ptr} (hp : p.Begins path) :
    p 0 ≤ 8 ∧ path.length = 1 + 4 * (p 0).toNat := by
  obtain ⟨n, nodes, rfl, hn, hnodes⟩ := h
  have h0 : p 0 = n := (Ptr.begins_cons.mp hp).1
  subst h0
  exact ⟨hn, by rw [List.length_cons, hnodes, Nat.add_comm]⟩

theorem isPath_slice {p : Ptr} (h : p 0 ≤ 8) : IsPath (p.slice (1 + 4 * (p 0).toNat)) :=
  ⟨p 0, (p.advance 1).slice (4 * (p 0).toNat), by rw [Nat.add_comm, Ptr.slice_succ], h,
    Ptr.slice_length _ _⟩

/-- The memory at the data of a command begins with them. -/
theorem Apdu.begins_of_data {c : Apdu} {bs : List UInt8} (h : c.data = bs) : c.cdata.Begins bs :=
  (Ptr.slice_eq_iff.mp h).2

/-- A session goes on with commands of its instruction that are accepted and with presses, whether or
not the host waits for replies. -/
def withinSession (app : App μ) (d : Device μ) : Event → Option (Device μ)
  | .command c => commandStep app d c
  | .press i =>
    if d.shared.running ∧ d.shared.currentInstruction ≠ none then
      some (finish (app.callback (d.shared.pressed i) d))
    else none
  | .noApdu => none

section Accepted

variable {app : App μ} {m : Member μ γ} {x : Fw γ PUnit} {P : Device γ → Prop} {d : Device μ}
  {c : Apdu}

theorem accepted_of_wp {d : Device μ} (hw : wp x (fun _ t => P t) (fun _ _ => False) (d.view m)) :
    ∃ d', accepted (Fw.on m x d) = some d' ∧ P (d'.view m) := by
  obtain ⟨a, t, hok, hP⟩ := exists_ok_of_wp hw fun _ _ h => h
  refine ⟨⟨m.set t.ctx d.ctx, t.shared⟩, by rw [Fw.on_ok hok]; rfl, ?_⟩
  show P ⟨m.get (m.set t.ctx d.ctx), t.shared⟩
  rw [m.get_set]
  exact hP

theorem commandStep_of_wp (hr : d.shared.running = true)
    (hi : d.shared.currentInstruction = some c.ins) (hcla : c.cla = 0xE0)
    (happ : app.handler c false = Fw.on m x)
    (hw : wp x (fun _ t => P t) (fun _ _ => False) ((entered d c).view m)) :
    ∃ d', commandStep app d c = some d' ∧ P (d'.view m) := by
  rw [StreamedPart.commandStep_eq hr hi hcla, happ]
  exact accepted_of_wp hw

/-- An accepted command has run the handler. -/
theorem commandStep_handler {d' : Device μ} (h : commandStep app d c = some d') :
    d.shared.running = true ∧ d.shared.currentInstruction = some c.ins ∧
      app.handler c false (entered d c) = .ok ⟨⟩ d' := by
  unfold commandStep at h
  split at h
  · rename_i hc
    exact ⟨hc.1, hc.2, dispatch_some app c hc.2 (accepted_eq_some.mp h)⟩
  · cases h

/-- What the handler establishes whenever it returns. -/
theorem of_commandStep {d' : Device μ} (hd' : commandStep app d c = some d') (hcla : c.cla = 0xE0)
    (happ : app.handler c false = Fw.on m x)
    (hw : wp x (fun _ t => P t) (fun _ _ => True) ((entered d c).view m)) : P (d'.view m) := by
  have hcur : d.shared.running = true ∧ d.shared.currentInstruction = some c.ins := by
    by_contra hno
    rw [commandStep, if_neg hno] at hd'
    cases hd'
  rw [StreamedPart.commandStep_eq hcur.1 hcur.2 hcla, happ] at hd'
  cases hx : x ((entered d c).view m) with
  | ok a t =>
    rw [Fw.on_ok hx] at hd'
    cases hd'
    show P ⟨m.get (m.set t.ctx _), t.shared⟩
    rw [m.get_set]
    exact of_wp_ok hw hx
  | thrown e t =>
    rw [Fw.on_thrown hx] at hd'
    cases hd'

theorem begins_of_wp (hidle : Idle d) (hcla : c.cla = 0xE0)
    (happ : app.handler c true = Fw.on m x)
    (hw : wp x (fun _ t => P t) (fun _ _ => False) ((opened d c).view m)) :
    ∃ d', begins app c.ins d c d' ∧ P (d'.view m) := by
  obtain ⟨d', hd', hP⟩ := accepted_of_wp hw
  refine ⟨d', ⟨hidle, rfl, ?_⟩, hP⟩
  rw [dispatch_opened app hidle.instruction hcla, happ]
  exact hd'

end Accepted

end ConcordiumLedger
