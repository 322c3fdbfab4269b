import ConcordiumLedger.Lib.Prog
import ConcordiumLedger.Lib.Bytes
import Mathlib.Logic.Function.Basic

/-!
# Lib.Stores

Programs that store single bytes, with the place of each store.

* `Stores`  — the bytes that were stored, in order. Places are counted from the pointer that the
  program was given, so a negative place lies in front of it.
* `after`   — the memory after some stores.
* `Fills`   — stores that leave a text in memory and touch nothing else.
* `Renders` — a program that throws, or fills the memory with a text and returns its length.
-/

namespace CMem

open CProg

abbrev Stores := List (Int × UInt8)

namespace Stores

/-- The memory after the stores. -/
def after (m : Int → UInt8) : Stores → Int → UInt8
  | [] => m
  | (i, b) :: st => after (Function.update m i b) st

theorem after_append (m : Int → UInt8) (st st' : Stores) :
    after m (st ++ st') = after (after m st) st' := by
  induction st generalizing m with
  | nil => rfl
  | cons p st ih => exact ih _

theorem after_of_forall_ne {m : Int → UInt8} {st : Stores} {j : Int} (h : ∀ p ∈ st, p.1 ≠ j) :
    after m st j = m j := by
  induction st generalizing m with
  | nil => rfl
  | cons p st ih =>
    show after (Function.update m p.1 p.2) st j = m j
    rw [ih fun q hq => h q (List.mem_cons_of_mem _ hq)]
    exact Function.update_of_ne (h p List.mem_cons_self).symm _ _

/-- What was stored last is found. -/
theorem after_concat (m : Int → UInt8) (st : Stores) (i : Int) (b : UInt8) :
    after m (st ++ [(i, b)]) i = b := by
  rw [after_append]
  exact Function.update_self _ _ _

/-- `n` bytes of a memory from `i` on. -/
def read (m : Int → UInt8) (i : Int) (n : Nat) : List UInt8 := (List.range n).map fun k : Nat => m (i + k)

theorem getElem_of_read {m : Int → UInt8} {i : Int} {text : List UInt8}
    (h : read m i text.length = text) {k : Nat} (hk : k < text.length) : text[k] = m (i + k) := by
  have hget := congrArg (fun l => l[k]?) h
  simp only [read, List.getElem?_map, List.getElem?_range hk, Option.map_some,
    List.getElem?_eq_getElem hk, Option.some.injEq] at hget
  exact hget.symm

/-- All stores lie in `lo .. hi`. -/
def Within (lo hi : Int) (st : Stores) : Prop := ∀ p ∈ st, lo ≤ p.1 ∧ p.1 < hi

instance (lo hi : Int) (st : Stores) : Decidable (Within lo hi st) :=
  inferInstanceAs (Decidable (∀ p ∈ st, lo ≤ p.1 ∧ p.1 < hi))

theorem Within.mono {lo hi lo' hi' : Int} {st : Stores} (h : Within lo hi st) (hlo : lo' ≤ lo)
    (hhi : hi ≤ hi') : Within lo' hi' st := by
  intro p hp
  have := h p hp
  omega

theorem Within.append {lo hi : Int} {st st' : Stores} (h : Within lo hi st)
    (h' : Within lo hi st') : Within lo hi (st ++ st') := by
  intro p hp
  rcases List.mem_append.mp hp with hp | hp
  · exact h p hp
  · exact h' p hp

/-- Stores within a range do not determine more than the range. -/
theorem Within.length_le_of_read {i : Int} {n : Nat} {st : Stores} (h : Within i (i + n) st)
    {text : List UInt8} (ht : ∀ m, read (after m st) i text.length = text) : text.length ≤ n := by
  by_contra hn
  have hk : n < text.length := by omega
  -- the byte behind the range is the same in two memories that differ there
  have hbyte (m : Int → UInt8) : text[n] = m (i + n) := by
    rw [getElem_of_read (ht m) hk]
    refine after_of_forall_ne fun p hp => ?_
    have := h p hp
    omega
  exact absurd ((hbyte fun _ => 0).symm.trans (hbyte fun _ => 1)) (by decide)

end Stores

open Stores

/-- The stores leave `text` from `i` on, and every byte of it is stored. -/
structure Fills (i : Int) (text : List UInt8) (st : Stores) : Prop where
  within : Within i (i + text.length) st
  stored : ∀ m (k : Nat) (h : k < text.length), after m st (i + k) = text[k]

namespace Fills

variable {i : Int} {a b : List UInt8} {st st' : Stores}

theorem nil (i : Int) : Fills i [] [] := ⟨by simp [Within], by simp⟩

theorem single (i : Int) (b : UInt8) : Fills i [b] [(i, b)] where
  within := by simp [Within]
  stored m k h := by
    have hk : k = 0 := by simpa using h
    subst hk
    simpa using after_concat m [] i b

/-- Two texts, the second stored behind the first. -/
theorem append (h : Fills i a st) (h' : Fills (i + a.length) b st') :
    Fills i (a ++ b) (st ++ st') where
  within := by
    rw [List.length_append]
    refine Within.append (h.within.mono (by omega) (by omega)) (h'.within.mono (by omega) ?_)
    rw [Nat.cast_add]
    omega
  stored m k hk := by
    rw [after_append]
    by_cases hka : k < a.length
    · rw [after_of_forall_ne, h.stored m k hka, List.getElem_append_left hka]
      intro p hp
      have := h'.within p hp
      omega
    · rw [List.length_append] at hk
      have hp := h'.stored (after m st) (k - a.length) (by omega)
      rw [show i + a.length + ((k - a.length : Nat) : Int) = i + k by omega] at hp
      rw [hp, List.getElem_append_right (by omega)]

/-- Two texts, the second stored first. -/
theorem append_swap (h : Fills i a st) (h' : Fills (i + a.length) b st') :
    Fills i (a ++ b) (st' ++ st) where
  within := by
    rw [List.length_append]
    refine Within.append (h'.within.mono (by omega) ?_) (h.within.mono (by omega) (by omega))
    rw [Nat.cast_add]
    omega
  stored m k hk := by
    rw [after_append]
    by_cases hka : k < a.length
    · rw [h.stored _ k hka, List.getElem_append_left hka]
    · rw [List.length_append] at hk
      rw [after_of_forall_ne, List.getElem_append_right (by omega)]
      · have hp := h'.stored m (k - a.length) (by omega)
        rwa [show i + a.length + ((k - a.length : Nat) : Int) = i + k by omega] at hp
      · intro p hp
        have := h.within p hp
        omega

/-- The text is read back from memory. -/
theorem read (h : Fills i a st) (m : Int → UInt8) : read (after m st) i a.length = a := by
  apply List.ext_getElem
  · simp [Stores.read]
  · intro k hk hk'
    simpa [Stores.read] using h.stored m k hk'

end Fills

/-! ## Programs that store -/

/-- Programs that store bytes. -/
abbrev Storing (ε : Type) := Prog ε Stores

variable {ε : Type}

def store (i : Int) (b : UInt8) : Storing ε PUnit := Prog.modify fun st => st ++ [(i, b)]

theorem store_ok (i : Int) (b : UInt8) (st : Stores) :
    (store i b : Storing ε PUnit) st = .ok ⟨⟩ (st ++ [(i, b)]) := rfl

/-- `memmove(dst, src, |src|)` for `src` in another place. -/
def storeAll : Int → List UInt8 → Storing ε PUnit
  | _, [] => pure ⟨⟩
  | i, b :: bs => do
    store i b
    storeAll (i + 1) bs

/-- The outcome is a throw, or it returns and the stores since `st` fill `text`. -/
def Renders {α : Type} (st : Stores) (i : Int) (n : List UInt8 → α) :
    Except ε (List UInt8) → Outcome ε Stores α → Prop
  | .ok text, o => ∃ st', o = .ok (n text) (st ++ st') ∧ Fills i text st'
  | .error e, o => ∃ st', o = .thrown e (st ++ st')

namespace Renders

open Prog

variable {α β : Type} {st s₁ : Stores} {i : Int} {n : List UInt8 → α} {n' : List UInt8 → β}
  {r : Except ε (List UInt8)} {x : Storing ε α}

/-- A program that renders behind a text which is already stored, and goes on with what it has
returned. -/
theorem bind {a : List UInt8} {g : List UInt8 → Except ε (List UInt8)} {k : α → Storing ε β}
    (ha : Fills i a s₁) (hx : Renders (st ++ s₁) (i + a.length) n r (x (st ++ s₁)))
    (hk : ∀ text st', r = .ok text → Fills i (a ++ text) st' →
      Renders st i n' (g text) (k (n text) (st ++ st'))) :
    Renders st i n' (r >>= g) ((x >>= k) (st ++ s₁)) := by
  cases r with
  | error e =>
    obtain ⟨st', hst⟩ := hx
    exact ⟨s₁ ++ st', by rw [bind_of_thrown hst, List.append_assoc]⟩
  | ok text =>
    obtain ⟨st', hst, hf⟩ := hx
    rw [bind_of_ok hst, List.append_assoc]
    exact hk text (s₁ ++ st') rfl (ha.append hf)

/-- A program that goes on with what a first one has rendered. -/
theorem andThen {g : List UInt8 → Except ε (List UInt8)} {k : α → Storing ε β}
    (hx : Renders st i n r (x st))
    (hk : ∀ text st', r = .ok text → Fills i text st' →
      Renders st i n' (g text) (k (n text) (st ++ st'))) :
    Renders st i n' (r >>= g) ((x >>= k) st) := by
  have hbind : Renders st i n' (r >>= g) ((x >>= k) (st ++ [])) :=
    Renders.bind (Fills.nil i) (by simpa using hx) hk
  rwa [List.append_nil] at hbind

/-- The same as `bind`, where the program only counts both texts. -/
theorem behind {a : List UInt8} {m : α → β} (ha : Fills i a s₁)
    (hx : Renders (st ++ s₁) (i + a.length) n r (x (st ++ s₁)))
    (hn : ∀ text, m (n text) = n' (a ++ text)) :
    Renders st i n' (r >>= fun text => Pure.pure (a ++ text))
      ((x >>= fun c => Pure.pure (m c)) (st ++ s₁)) := by
  refine Renders.bind ha hx fun text st' _ hf => ⟨st', ?_, hf⟩
  rw [← hn]
  rfl

end Renders

theorem storeAll_fills (i : Int) (bs : List UInt8) (st : Stores) :
    ∃ st', (storeAll i bs : Storing ε PUnit) st = .ok ⟨⟩ (st ++ st') ∧ Fills i bs st' := by
  induction bs generalizing i st with
  | nil => exact ⟨[], by rw [List.append_nil]; rfl, .nil i⟩
  | cons b bs ih =>
    obtain ⟨st', hst, hf⟩ := ih (i + 1) (st ++ [(i, b)])
    refine ⟨(i, b) :: st', ?_, (Fills.single i b).append hf⟩
    rw [← List.append_cons] at hst
    exact hst

end CMem
