import Mathlib.Logic.Function.Iterate
import Mathlib.Order.Bounds.Basic

/-!
# Lib.Loop

Loops of C whose number of rounds the code does not bound.

* `doWhile` — `do body while (again)`, run for at most `fuel` rounds. It returns the state after the
  first round that does not ask for another one, `none` if the fuel does not reach that far.
* `doWhile_eq_some_iff` — where it ends, for a body that does not fail.
-/

namespace CLoop

universe u v

variable {ε : Type v} {σ : Type u}

def doWhile (body : σ → Except ε σ) (again : σ → Bool) : Nat → σ → Except ε (Option σ)
  | 0, _ => .ok none
  | fuel + 1, s => do
    let s ← body s
    if again s then doWhile body again fuel s else return some s

variable {body : σ → Except ε σ} {again : σ → Bool} {f : σ → σ}

theorem doWhile_succ (hbody : ∀ s, body s = .ok (f s)) (fuel : Nat) (s : σ) :
    doWhile body again (fuel + 1) s =
      if again (f s) then doWhile body again fuel (f s) else .ok (some (f s)) := by
  rw [doWhile, hbody]
  rfl

/-- The loop ends after the first round `k` whose state does not ask for another round. -/
theorem doWhile_eq_some_iff (hbody : ∀ s, body s = .ok (f s)) (fuel : Nat) :
    ∀ s s', doWhile body again fuel s = .ok (some s') ↔
      ∃ k ≤ fuel, IsLeast {k | 1 ≤ k ∧ again (f^[k] s) = false} k ∧ s' = f^[k] s := by
  induction fuel with
  | zero =>
    intro s s'
    constructor
    · intro h
      cases h
    · rintro ⟨k, hk, hleast, _⟩
      have hone := hleast.1.1
      omega
  | succ fuel ih =>
    intro s s'
    rw [doWhile_succ hbody]
    cases hagain : again (f s) with
    | false =>
      have hone : IsLeast {k | 1 ≤ k ∧ again (f^[k] s) = false} 1 :=
        ⟨⟨Nat.le_refl 1, hagain⟩, fun k hk => hk.1⟩
      constructor
      · intro h
        cases h
        exact ⟨1, by omega, hone, rfl⟩
      · rintro ⟨k, _, hleast, rfl⟩
        rw [hleast.unique hone]
        rfl
    | true =>
      rw [if_pos rfl, ih]
      -- the rounds after the first one are those of the loop from `f s`
      have hshift : ∀ k, IsLeast {k | 1 ≤ k ∧ again (f^[k] (f s)) = false} k ↔
          IsLeast {k | 1 ≤ k ∧ again (f^[k] s) = false} (k + 1) ∧ 1 ≤ k := by
        intro k
        constructor
        · rintro ⟨⟨hk, hstop⟩, hmin⟩
          refine ⟨⟨⟨by omega, hstop⟩, ?_⟩, hk⟩
          rintro j ⟨hj, hj'⟩
          obtain _ | _ | j := j
          · omega
          · have htrue : again (f s) = false := hj'
            rw [hagain] at htrue
            cases htrue
          · have := hmin (show 1 ≤ j + 1 ∧ again (f^[j + 1] (f s)) = false from ⟨by omega, hj'⟩)
            omega
        · rintro ⟨⟨⟨_, hstop⟩, hmin⟩, hk⟩
          refine ⟨⟨hk, hstop⟩, ?_⟩
          rintro j ⟨hj, hj'⟩
          have := hmin (show 1 ≤ j + 1 ∧ again (f^[j + 1] s) = false from ⟨by omega, hj'⟩)
          omega
      constructor
      · rintro ⟨k, hk, hleast, rfl⟩
        exact ⟨k + 1, by omega, ((hshift k).mp hleast).1, rfl⟩
      · rintro ⟨k, hk, hleast, rfl⟩
        obtain _ | _ | k := k
        · have := hleast.1.1
          omega
        · have htrue : again (f s) = false := hleast.1.2
          rw [hagain] at htrue
          cases htrue
        · exact ⟨k + 1, by omega, (hshift (k + 1)).mpr ⟨hleast, by omega⟩, rfl⟩

end CLoop
