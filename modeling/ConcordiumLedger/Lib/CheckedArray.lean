import ConcordiumLedger.Lib.Bytes
import ConcordiumLedger.Lib.Prog

/-!
# Lib.CheckedArray

Programs on an array of bytes in which every access is checked: one that is not inside the array
ends the program with the exception `none`. The exceptions of the code itself are `some e`.

* `ArrayProg`                — such programs.
* `load`, `store`, `memset`  — the accesses, with an equation for those that are inside.
-/

namespace CMem

open CProg

universe u v

/-- A program on an array, which may throw an `ε`. -/
abbrev ArrayProg (ε : Type v) (α : Type u) := Prog (Option ε) (List UInt8) α

namespace ArrayProg

variable {ε : Type v} {α β : Type u}

def load (i : Nat) : ArrayProg ε UInt8 := fun out =>
  if i < out.length then .ok (out.getD i 0) out else .thrown none out

def store (i : Nat) (b : UInt8) : ArrayProg ε PUnit := fun out =>
  if i < out.length then .ok ⟨⟩ (out.set i b) else .thrown none out

/-- `memset(out, b, n)` -/
def memset (b : UInt8) (n : Nat) : ArrayProg ε PUnit := fun out =>
  if n ≤ out.length then .ok ⟨⟩ (List.replicate n b ++ out.drop n) else .thrown none out

theorem bind_ok {x : ArrayProg ε α} {f : α → ArrayProg ε β} {out out' : List UInt8} {a : α}
    (h : x out = .ok a out') : (x >>= f) out = f a out' := by
  show Prog.bind x f out = _
  rw [Prog.bind, h]

theorem load_ok {i : Nat} {out : List UInt8} (h : i < out.length) :
    (load i : ArrayProg ε UInt8) out = .ok (out.getD i 0) out := if_pos h

theorem store_ok {i : Nat} {out : List UInt8} (b : UInt8) (h : i < out.length) :
    (store i b : ArrayProg ε PUnit) out = .ok ⟨⟩ (out.set i b) := if_pos h

theorem memset_ok {n : Nat} {out : List UInt8} (b : UInt8) (h : n ≤ out.length) :
    (memset b n : ArrayProg ε PUnit) out = .ok ⟨⟩ (List.replicate n b ++ out.drop n) := if_pos h

end ArrayProg

end CMem
