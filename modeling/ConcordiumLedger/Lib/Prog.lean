import Mathlib.Logic.Basic
import Mathlib.Tactic.TypeStar

/-!
# Lib.Prog

Programs with a mutable state and exceptions, in the way of C code that jumps out of a function
with a `THROW`: what was written before the jump stays written.

* `Outcome`  — a value or an exception, with the state it is reached in.
* `Prog`     — state transformers into outcomes, a monad.
* `Prog.wp`  — weakest preconditions with one postcondition for each way out, and their rules.
* `Prog.wp₂` — the same for two programs of which both return or both throw.
* `Prog.zoom` — a program over a part of the state, run on the whole state.
* `Member`   — one member of a union: a view of a memory that can be read and written. Writing a
  member may change what every other member reads, so nothing is said about those.
-/

namespace CProg

universe u v w

inductive Outcome (ε : Type v) (σ : Type w) (α : Type u) where
  | ok (a : α) (s : σ)
  | thrown (e : ε) (s : σ)

/-- A program over the state `σ` that returns an `α` or throws an `ε`. -/
def Prog (ε : Type v) (σ : Type w) (α : Type u) := σ → Outcome ε σ α

namespace Outcome

def state {ε : Type v} {σ : Type w} {α : Type u} : Outcome ε σ α → σ
  | .ok _ s => s
  | .thrown _ s => s

end Outcome

namespace Prog

variable {ε : Type v} {σ : Type w} {α β : Type u}

def pure (a : α) : Prog ε σ α := fun s => .ok a s

def bind (x : Prog ε σ α) (f : α → Prog ε σ β) : Prog ε σ β := fun s =>
  match x s with
  | .ok a s' => f a s'
  | .thrown e s' => .thrown e s'

instance : Monad (Prog ε σ) where
  pure := pure
  bind := bind

def throw (e : ε) : Prog ε σ α := fun s => .thrown e s

/-- Reads the part `f` of the state. -/
def gets (f : σ → α) : Prog ε σ α := fun s => .ok (f s) s

def modify (f : σ → σ) : Prog ε σ PUnit := fun s => .ok ⟨⟩ (f s)

/-- A pure computation that may fail, run as a program. -/
def ofExcept : Except ε α → Prog ε σ α
  | .ok a => pure a
  | .error e => throw e

/-- Runs a program over the part of the state that `get` reads and `put` writes back. -/
def zoom {τ : Type w} (get : σ → τ) (put : τ → σ → σ) (x : Prog ε τ α) : Prog ε σ α := fun s =>
  match x (get s) with
  | .ok a t => .ok a (put t s)
  | .thrown e t => .thrown e (put t s)

/-! ## Weakest preconditions -/

/-- `x` ends in `Q` if it returns and in `E` if it throws. -/
def wp (x : Prog ε σ α) (Q : α → σ → Prop) (E : ε → σ → Prop) (s : σ) : Prop :=
  match x s with
  | .ok a s' => Q a s'
  | .thrown e s' => E e s'

variable {Q : α → σ → Prop} {E : ε → σ → Prop} {s : σ}

@[simp] theorem wp_pure (a : α) : wp (Pure.pure a : Prog ε σ α) Q E s ↔ Q a s := Iff.rfl

@[simp] theorem wp_bind {Q : β → σ → Prop} (x : Prog ε σ α) (f : α → Prog ε σ β) :
    wp (x >>= f) Q E s ↔ wp x (fun a => wp (f a) Q E) E s := by
  show wp (bind x f) Q E s ↔ _
  unfold wp bind
  cases x s <;> rfl

@[simp] theorem wp_throw (e : ε) : wp (throw e : Prog ε σ α) Q E s ↔ E e s := Iff.rfl

@[simp] theorem wp_gets (f : σ → α) : wp (gets f : Prog ε σ α) Q E s ↔ Q (f s) s := Iff.rfl

@[simp] theorem wp_modify {Q : PUnit → σ → Prop} (f : σ → σ) :
    wp (modify f : Prog ε σ PUnit) Q E s ↔ Q ⟨⟩ (f s) := Iff.rfl

@[simp] theorem wp_ite (c : Prop) [Decidable c] (x y : Prog ε σ α) :
    wp (if c then x else y) Q E s ↔ (c → wp x Q E s) ∧ (¬ c → wp y Q E s) := by
  by_cases h : c <;> simp [h]

@[simp] theorem wp_ofExcept (r : Except ε α) :
    wp (ofExcept r : Prog ε σ α) Q E s ↔
      (∀ a, r = .ok a → Q a s) ∧ (∀ e, r = .error e → E e s) := by
  cases r with
  | ok a =>
    constructor
    · intro h
      refine ⟨?_, ?_⟩
      · intro b hb; cases hb; exact h
      · intro e he; cases he
    · intro h; exact h.1 a rfl
  | error e =>
    constructor
    · intro h
      refine ⟨?_, ?_⟩
      · intro b hb; cases hb
      · intro e' he; cases he; exact h
    · intro h; exact h.2 e rfl

@[simp] theorem wp_zoom {τ : Type w} (get : σ → τ) (put : τ → σ → σ) (x : Prog ε τ α) :
    wp (zoom get put x) Q E s ↔
      wp x (fun a t => Q a (put t s)) (fun e t => E e (put t s)) (get s) := by
  unfold wp zoom
  cases x (get s) <;> rfl

/-- The rule of consequence. -/
theorem wp_mono {x : Prog ε σ α} {Q' : α → σ → Prop} {E' : ε → σ → Prop}
    (h : wp x Q E s) (hQ : ∀ a t, Q a t → Q' a t) (hE : ∀ e t, E e t → E' e t) :
    wp x Q' E' s := by
  unfold wp at h ⊢
  cases hx : x s with
  | ok a t => rw [hx] at h; exact hQ a t h
  | thrown e t => rw [hx] at h; exact hE e t h

theorem wp_and {x : Prog ε σ α} {Q' : α → σ → Prop} {E' : ε → σ → Prop}
    (h : wp x Q E s) (h' : wp x Q' E' s) :
    wp x (fun a t => Q a t ∧ Q' a t) (fun e t => E e t ∧ E' e t) s := by
  unfold wp at h h' ⊢
  cases hx : x s with
  | ok a t => rw [hx] at h h'; exact ⟨h, h'⟩
  | thrown e t => rw [hx] at h h'; exact ⟨h, h'⟩

theorem of_wp_ok {x : Prog ε σ α} {a : α} {t : σ} (h : wp x Q E s) (hx : x s = .ok a t) :
    Q a t := by
  unfold wp at h; rw [hx] at h; exact h

theorem ok_of_wp {x : Prog ε σ α} {P : σ → Prop} {a : α} {t : σ} (h : wp x (fun _ => P) E s)
    (hx : x s = .ok a t) : P t := by
  unfold wp at h; rw [hx] at h; exact h

theorem of_wp_thrown {x : Prog ε σ α} {e : ε} {t : σ} (h : wp x Q E s)
    (hx : x s = .thrown e t) : E e t := by
  unfold wp at h; rw [hx] at h; exact h

theorem of_wp_state {x : Prog ε σ α} {P : σ → Prop}
    (h : wp x (fun _ => P) (fun _ => P) s) : P (x s).state := by
  unfold wp at h
  cases hx : x s with
  | ok a t => rw [hx] at h; exact h
  | thrown e t => rw [hx] at h; exact h

theorem bind_of_ok {x : Prog ε σ α} {f : α → Prog ε σ β} {a : α} {t : σ} (hx : x s = .ok a t) :
    (x >>= f) s = f a t := by
  show bind x f s = f a t
  unfold bind
  rw [hx]

theorem bind_of_thrown {x : Prog ε σ α} {f : α → Prog ε σ β} {e : ε} {t : σ}
    (hx : x s = .thrown e t) : (x >>= f) s = .thrown e t := by
  show bind x f s = .thrown e t
  unfold bind
  rw [hx]

/-- A program that cannot throw returns. -/
theorem exists_ok_of_wp {x : Prog ε σ α} (h : wp x Q E s) (hE : ∀ e t, ¬ E e t) :
    ∃ a t, x s = .ok a t ∧ Q a t := by
  unfold wp at h
  cases hx : x s with
  | ok a t => rw [hx] at h; exact ⟨a, t, rfl, h⟩
  | thrown e t => rw [hx] at h; exact absurd h (hE e t)

theorem wp_of_ok {x : Prog ε σ α} {a : α} {t : σ} (hx : x s = .ok a t) (h : Q a t) :
    wp x Q E s := by
  rw [wp, hx]
  exact h

theorem wp_of_run {x : Prog ε σ α}
    (hok : ∀ a t, x s = .ok a t → Q a t) (hthrown : ∀ e t, x s = .thrown e t → E e t) :
    wp x Q E s := by
  unfold wp
  cases hx : x s with
  | ok a t => exact hok a t hx
  | thrown e t => exact hthrown e t hx

/-! ## Two programs -/

/-- Both programs return, in `Q`, or both throw. -/
def wp₂ (x y : Prog ε σ α) (Q : α → α → σ → σ → Prop) (s t : σ) : Prop :=
  match x s, y t with
  | .ok a s', .ok b t' => Q a b s' t'
  | .thrown _ _, .thrown _ _ => True
  | _, _ => False

section Two

variable {x y : Prog ε σ α} {Q : α → α → σ → σ → Prop} {t : σ}

theorem wp₂_iff_wp : wp₂ x y Q s t ↔
    wp x (fun a s' => wp y (fun b t' => Q a b s' t') (fun _ _ => False) t)
      (fun _ _ => wp y (fun _ _ => False) (fun _ _ => True) t) s := by
  unfold wp₂ wp
  cases x s <;> cases y t <;> rfl

theorem wp₂_bind {f g : α → Prog ε σ β} {Q : β → β → σ → σ → Prop}
    (h : wp₂ x y (fun a b s t => wp₂ (f a) (g b) Q s t) s t) : wp₂ (x >>= f) (y >>= g) Q s t := by
  show wp₂ (bind x f) (bind y g) Q s t
  cases hx : x s with
  | ok a s' =>
    cases hy : y t with
    | ok b t' => simpa only [wp₂, bind, hx, hy] using h
    | thrown e t' => simp only [wp₂, hx, hy] at h
  | thrown e s' =>
    cases hy : y t with
    | ok b t' => simp only [wp₂, hx, hy] at h
    | thrown e' t' => simp only [wp₂, bind, hx, hy]

theorem wp₂_ite {c d : Prop} [Decidable c] [Decidable d] {x' y' : Prog ε σ α} (hcd : c ↔ d)
    (hthen : c → wp₂ x y Q s t) (helse : ¬ c → wp₂ x' y' Q s t) :
    wp₂ (if c then x else x') (if d then y else y') Q s t := by
  by_cases h : c
  · rw [if_pos h, if_pos (hcd.mp h)]
    exact hthen h
  · rw [if_neg h, if_neg fun hd => h (hcd.mpr hd)]
    exact helse h

theorem wp₂_mono {Q' : α → α → σ → σ → Prop} (h : wp₂ x y Q s t)
    (hQ : ∀ a b s t, Q a b s t → Q' a b s t) : wp₂ x y Q' s t := by
  unfold wp₂ at h ⊢
  cases hx : x s <;> cases hy : y t <;> simp only [hx, hy] at h ⊢
  exact hQ _ _ _ _ h

end Two

end Prog

/-! ## Members of a union -/

/-- A member of type `α` of the union `μ`. What was written is read back; what another member
reads afterwards is left open, since members of a union share their bytes. -/
structure Member (μ α : Type*) where
  get : μ → α
  set : α → μ → μ
  get_set : ∀ a m, get (set a m) = a

attribute [simp] Member.get_set

end CProg
