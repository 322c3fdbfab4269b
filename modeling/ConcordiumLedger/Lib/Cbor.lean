import ConcordiumLedger.Lib.Bytes

/-!
# Lib.Cbor

The part of the CBOR format that fits in a display: unsigned and negative integers and text
strings of known length.

* `head`   — the head of an item: the major type and the argument, with the bytes after it.
* `IsItem` — the bytes are exactly one integer or one text string.
-/

namespace Cbor

open CMem

structure Head where
  major : UInt8
  argument : Nat
deriving DecidableEq

/-- The number of bytes after the initial byte that hold the argument. -/
def argumentSize (short : UInt8) : Option Nat :=
  if short < 24 then some 0
  else if short = 24 then some 1
  else if short = 25 then some 2
  else if short = 26 then some 4
  else if short = 27 then some 8
  else none

/-- A short count below 24 is the argument itself. -/
def head : List UInt8 → Option (Head × List UInt8)
  | [] => none
  | b :: rest => do
    let short := b &&& 0x1F
    let size ← argumentSize short
    if rest.length < size then none
    else
      let argument := if size = 0 then short.toNat else beNat (rest.take size)
      return (⟨b >>> 5, argument⟩, rest.drop size)

/-- What comes after the head of an integer or a text string is nothing or the text. -/
def Head.Closes (h : Head) (rest : List UInt8) : Prop :=
  (h.major = 0 ∨ h.major = 1) ∧ rest = [] ∨ h.major = 3 ∧ rest.length = h.argument

instance (h : Head) (rest : List UInt8) : Decidable (h.Closes rest) :=
  inferInstanceAs (Decidable (_ ∨ _))

/-- The bytes are exactly one item of major type 0, 1 or 3. -/
def IsItem (bs : List UInt8) : Prop := ∃ h rest, head bs = some (h, rest) ∧ h.Closes rest

theorem head_eq {b : UInt8} {size : Nat} {argument rest : List UInt8}
    (hs : argumentSize (b &&& 0x1F) = some size) (ha : argument.length = size) :
    head (b :: (argument ++ rest)) =
      some (⟨b >>> 5, if size = 0 then (b &&& 0x1F).toNat else beNat argument⟩, rest) := by
  subst ha
  simp [head, hs]

/-- Bytes that follow a head do not change it. -/
theorem head_append {bs rest more : List UInt8} {h : Head} (hh : head bs = some (h, rest)) :
    head (bs ++ more) = some (h, rest ++ more) := by
  cases bs with
  | nil => cases hh
  | cons b tail =>
    simp only [head, List.cons_append] at hh ⊢
    cases hs : argumentSize (b &&& 0x1F) with
    | none => rw [hs] at hh; cases hh
    | some size =>
      rw [hs] at hh
      simp only [Option.bind_eq_bind, Option.bind_some, Option.pure_def] at hh ⊢
      split at hh
      · cases hh
      · rename_i hlen
        have hle : size ≤ tail.length := Nat.le_of_not_lt hlen
        cases hh
        rw [if_neg (by rw [List.length_append]; omega), List.take_append_of_le_length hle,
          List.drop_append_of_le_length hle]

end Cbor
