import ConcordiumLedger.Common.NumberStores

/-!
# Common.PaginatedHex

The text of `toPaginatedHex`, and for which lengths and sizes it is what the function leaves.

* `hexText`, `paginate` — lower-case hex, cut into pages of 16 characters.
* `unhex`               — reads the digits back.
* `paginatedHex_iff`    — the sizes that are enough, and the ones that are refused.
-/

namespace ConcordiumLedger

open CMem CProg CProg.Prog

/-! ## The text -/

def hexByte (b : UInt8) : List UInt8 := [hexDigit (b >>> 4 &&& 0x0F), hexDigit (b &&& 0x0F)]

def hexText (bs : List UInt8) : List UInt8 := bs.flatMap hexByte

/-- A space after every 16 characters, except at the end. -/
def paginate (cs : List UInt8) : List UInt8 :=
  if cs.length ≤ 16 then cs else cs.take 16 ++ 32 :: paginate (cs.drop 16)
termination_by cs.length

/-- The value of a digit. -/
def hexValue (c : UInt8) : Option UInt8 :=
  if 48 ≤ c ∧ c ≤ 57 then some (c - 48) else if 97 ≤ c ∧ c ≤ 102 then some (c - 87) else none

def unhex : List UInt8 → Option (List UInt8)
  | [] => some []
  | [_] => none
  | hi :: lo :: cs => do
    let hi ← hexValue hi
    let lo ← hexValue lo
    let bs ← unhex cs
    return (hi <<< 4 ||| lo) :: bs

@[simp] theorem hexText_length (bs : List UInt8) : (hexText bs).length = 2 * bs.length := by
  induction bs with
  | nil => rfl
  | cons b bs ih =>
    show (hexByte b ++ hexText bs).length = _
    rw [List.length_append, ih, List.length_cons]
    show 2 + _ = _
    omega

set_option maxRecDepth 8000 in
theorem hexByte_values (b : UInt8) :
    hexValue (hexDigit (b >>> 4 &&& 0x0F)) = some (b >>> 4 &&& 0x0F) ∧
      hexValue (hexDigit (b &&& 0x0F)) = some (b &&& 0x0F) ∧
      ((b >>> 4 &&& 0x0F) <<< 4 ||| (b &&& 0x0F)) = b := by
  have hall : ∀ n < 256, let b := UInt8.ofNat n
      hexValue (hexDigit (b >>> 4 &&& 0x0F)) = some (b >>> 4 &&& 0x0F) ∧
      hexValue (hexDigit (b &&& 0x0F)) = some (b &&& 0x0F) ∧
      ((b >>> 4 &&& 0x0F) <<< 4 ||| (b &&& 0x0F)) = b := by decide
  have h := hall b.toNat b.toNat_lt
  rwa [UInt8.ofNat_toNat] at h

/-- Decoding the digits gives the bytes back. -/
theorem unhex_hexText (bs : List UInt8) : unhex (hexText bs) = some bs := by
  induction bs with
  | nil => rfl
  | cons b bs ih =>
    obtain ⟨hhi, hlo, hb⟩ := hexByte_values b
    show unhex (hexDigit _ :: hexDigit _ :: hexText bs) = _
    rw [unhex, hhi, hlo, ih]
    show some (((b >>> 4 &&& 0x0F) <<< 4 ||| (b &&& 0x0F)) :: bs) = _
    rw [hb]

set_option maxRecDepth 8000 in
theorem hexDigit_ne {n : UInt8} : hexDigit (n &&& 0x0F) ≠ 32 ∧ hexDigit (n &&& 0x0F) ≠ 0 := by
  have hall : ∀ m < 256, hexDigit (UInt8.ofNat m &&& 0x0F) ≠ 32 ∧
      hexDigit (UInt8.ofNat m &&& 0x0F) ≠ 0 := by decide
  have h := hall n.toNat n.toNat_lt
  rwa [UInt8.ofNat_toNat] at h

theorem ne_of_mem_hexText {bs : List UInt8} {c : UInt8} (h : c ∈ hexText bs) : c ≠ 32 ∧ c ≠ 0 := by
  obtain ⟨b, _, hc⟩ := List.mem_flatMap.mp h
  simp only [hexByte, List.mem_cons, List.not_mem_nil, or_false] at hc
  rcases hc with rfl | rfl
  · exact hexDigit_ne
  · exact hexDigit_ne

/-- Without its spaces, a paginated text is the text. -/
theorem paginate_filter {cs : List UInt8} (h : ∀ c ∈ cs, c ≠ 32) :
    (paginate cs).filter (· ≠ 32) = cs := by
  fun_induction paginate cs with
  | case1 cs hlen =>
    rw [List.filter_eq_self]
    exact fun c hc => decide_eq_true (h c hc)
  | case2 cs hlen ih =>
    have htake : (cs.take 16).filter (· ≠ 32) = cs.take 16 := by
      rw [List.filter_eq_self]
      exact fun c hc => decide_eq_true (h c (List.mem_of_mem_take hc))
    rw [List.filter_append, List.filter_cons_of_neg (by decide), htake,
      ih fun c hc => h c (List.mem_of_mem_drop hc), List.take_append_drop]

theorem paginate_length (cs : List UInt8) :
    (paginate cs).length = cs.length + (cs.length - 1) / 16 := by
  fun_induction paginate cs with
  | case1 cs hlen => omega
  | case2 cs hlen ih =>
    rw [List.length_append, List.length_cons, ih, List.length_take, List.length_drop]
    omega

theorem zero_not_mem_paginate {cs : List UInt8} (h : 0 ∉ cs) : 0 ∉ paginate cs := by
  fun_induction paginate cs with
  | case1 cs hlen => exact h
  | case2 cs hlen ih =>
    rw [List.mem_append, List.mem_cons]
    rintro (hm | hm | hm)
    · exact h (List.mem_of_mem_take hm)
    · cases hm
    · exact ih (fun hd => h (List.mem_of_mem_drop hd)) hm

/-! ## The loop -/

/-- The characters of the remaining bytes, `k` characters after the last space. -/
def pagesFrom : Nat → List UInt8 → List UInt8
  | _, [] => []
  | k, b :: bs => hexByte b ++
    if k + 2 = 16 ∧ bs ≠ [] then 32 :: pagesFrom 0 bs else pagesFrom (k + 2) bs

theorem paginate_hexText (bs : List UInt8) :
    paginate (hexText bs) = if 2 * bs.length ≤ 16 then hexText bs
      else (hexText bs).take 16 ++ 32 :: paginate ((hexText bs).drop 16) := by
  rw [paginate, hexText_length]

/-- A page that has begun is filled up first. -/
theorem pagesFrom_eq (bs : List UInt8) : ∀ k, k < 16 → 2 ∣ k →
    pagesFrom k bs = if 2 * bs.length ≤ 16 - k then hexText bs
      else (hexText bs).take (16 - k) ++ 32 :: paginate ((hexText bs).drop (16 - k)) := by
  induction bs with
  | nil =>
    intro k _ _
    rw [if_pos (by simp)]
    rfl
  | cons b bs ih =>
    intro k hk hdvd
    have htext : hexText (b :: bs) = hexByte b ++ hexText bs := rfl
    have hlen : (hexByte b).length = 2 := rfl
    rw [pagesFrom, htext, List.length_cons]
    by_cases hpage : k + 2 = 16
    · by_cases hbs : bs = []
      · subst hbs
        rw [if_neg (fun h => h.2 rfl), if_pos (by simp only [List.length_nil]; omega)]
        rfl
      · have hpos : 0 < bs.length := List.length_pos_iff.mpr hbs
        rw [if_pos ⟨hpage, hbs⟩, if_neg (by omega), show 16 - k = (hexByte b).length by omega,
          List.take_left, List.drop_left, ih 0 (by decide) (by decide)]
        rw [paginate_hexText]
    · rw [if_neg (fun h => hpage h.1), ih (k + 2) (by omega) (by omega)]
      by_cases hle : 2 * bs.length ≤ 16 - (k + 2)
      · rw [if_pos hle, if_pos (by omega)]
      · rw [if_neg hle, if_neg (by omega), show 16 - k = (hexByte b).length + (16 - (k + 2)) by omega,
          List.take_length_add_append, List.drop_length_add_append, List.append_assoc]

theorem pagesFrom_zero (bs : List UInt8) : pagesFrom 0 bs = paginate (hexText bs) := by
  rw [pagesFrom_eq bs 0 (by decide) (by decide), paginate_hexText]

/-- What one round stores before the separator. -/
def hexStores (p : Nat) (b : UInt8) : Stores :=
  [(Int.ofNat p, hexDigit (b >>> 4 &&& 0x0F)), (Int.ofNat (p + 1), hexDigit (b &&& 0x0F))]

theorem hexStores_fills (p : Nat) (b : UInt8) : Fills p (hexByte b) (hexStores p b) :=
  (Fills.single p _).append (Fills.single (p + 1) _)

/-- The separators before byte `i`; there is none behind the last byte. -/
def separators (len i : Nat) : Nat := min (i / 8) ((len - 1) / 8)

/-- A separator comes behind every eighth byte that is not the last one. -/
theorem separators_succ {len i rounds : Nat} (h : rounds + 1 + i = len) :
    separators len (i + 1) = separators len i + if i % 8 = 7 ∧ rounds ≠ 0 then 1 else 0 := by
  unfold separators
  split <;> omega

/-- The characters of one byte, the separator behind them and the pages of the bytes that follow. -/
theorem pagesFrom_cons (b : UInt8) (bs : List UInt8) (i : Nat) :
    pagesFrom (2 * (i % 8)) (b :: bs) =
      hexByte b ++ ((if i % 8 = 7 ∧ bs.length ≠ 0 then [32] else []) ++
        pagesFrom (2 * ((i + 1) % 8)) bs) := by
  have hnil : bs ≠ [] ↔ bs.length ≠ 0 := by rw [Ne, Ne, List.length_eq_zero_iff]
  rw [pagesFrom]
  by_cases hc : i % 8 = 7 ∧ bs.length ≠ 0
  · rw [if_pos ⟨by omega, hnil.mpr hc.2⟩, if_pos hc, show 2 * ((i + 1) % 8) = 0 by omega]
    rfl
  · rw [if_neg (fun h => hc ⟨by omega, hnil.mp h.2⟩), if_neg hc]
    by_cases hr : bs.length = 0
    · rw [List.length_eq_zero_iff.mp hr]
      rfl
    · rw [show 2 * (i % 8) + 2 = 2 * ((i + 1) % 8) by omega]
      rfl

/-! ## In an array -/

section Array

variable {n len i : Nat} {b : UInt8} {bs acc : List UInt8} {offset : UInt8}

/-- The two digits are written behind what is in the array. -/
theorem memmove_hexByte (asHex : Buffer n) (hacc : acc.length = 2 * i + offset.toNat)
    (hn : (acc ++ hexByte b).length ≤ n) :
    ((asHex.memmove 0 acc).memmove (2 * i + offset.toNat)
        [hexDigit (b >>> 4 &&& 0x0F)]).memmove (2 * i + (offset.toNat + 1)) [hexDigit (b &&& 0x0F)] =
      asHex.memmove 0 (acc ++ hexByte b) := by
  have hsplit : acc ++ hexByte b =
      acc ++ [hexDigit (b >>> 4 &&& 0x0F)] ++ [hexDigit (b &&& 0x0F)] := by
    rw [List.append_assoc]
    rfl
  have hlen1 : (acc ++ [hexDigit (b >>> 4 &&& 0x0F)]).length = 2 * i + (offset.toNat + 1) := by
    rw [List.length_append, hacc, List.length_singleton, Nat.add_assoc]
  rw [hsplit] at hn ⊢
  rw [List.length_append] at hn
  rw [← hacc, Buffer.memmove_memmove _ _ _ (by omega), ← hlen1,
    Buffer.memmove_memmove _ _ _ (by rw [List.length_append]; exact hn)]

/-- One round of the loop on an array that already holds `acc`. -/
theorem hexLoop_cons (asHex : Buffer n) (hi : i + (b :: bs).length = len)
    (hacc : acc.length = 2 * i + offset.toNat)
    (hn : (acc ++ (hexByte b ++ if i % 8 = 7 ∧ bs.length ≠ 0 then [32] else [])).length ≤ n) :
    hexLoop len (b :: bs) i offset (asHex.memmove 0 acc) =
      if i % 8 = 7 ∧ bs.length ≠ 0 then
        hexLoop len bs (i + 1) (offset + 1) (asHex.memmove 0 (acc ++ hexByte b ++ [32]))
      else hexLoop len bs (i + 1) offset (asHex.memmove 0 (acc ++ hexByte b)) := by
  rw [List.length_cons] at hi
  have hcond : 2 * (i + 1) % 16 = 0 ∧ i ≠ len - 1 ↔ i % 8 = 7 ∧ bs.length ≠ 0 := by omega
  have htwo : (acc ++ hexByte b).length = 2 * i + (offset.toNat + 2) := by
    rw [List.length_append, hacc]
    rfl
  rw [← List.append_assoc] at hn
  rw [hexLoop]
  simp only [hcond]
  by_cases hc : i % 8 = 7 ∧ bs.length ≠ 0
  · rw [if_pos hc] at hn
    have hdigits : (acc ++ hexByte b).length ≤ n := by
      rw [List.length_append] at hn
      omega
    rw [if_pos hc, if_pos hc, memmove_hexByte asHex hacc hdigits, ← htwo,
      Buffer.memmove_memmove _ _ _ hn]
  · rw [if_neg hc, List.append_nil] at hn
    rw [if_neg hc, if_neg hc, memmove_hexByte asHex hacc hn]

/-- The loop on an array that already holds `acc`. -/
theorem hexLoop_memmove (hlen : len ≤ 2048) {bs : List UInt8} :
    ∀ {i : Nat} {offset : UInt8} {acc : List UInt8} (asHex : Buffer n), i + bs.length = len →
      offset.toNat = separators len i → acc.length = 2 * i + offset.toNat →
      (acc ++ pagesFrom (2 * (i % 8)) bs).length ≤ n →
      ∃ offset' : UInt8, hexLoop len bs i offset (asHex.memmove 0 acc) =
          (asHex.memmove 0 (acc ++ pagesFrom (2 * (i % 8)) bs), offset') ∧
        (acc ++ pagesFrom (2 * (i % 8)) bs).length = 2 * len + offset'.toNat := by
  induction bs with
  | nil =>
    intro i offset acc asHex hi ho hacc _
    have hpages : pagesFrom (2 * (i % 8)) [] = [] := rfl
    refine ⟨offset, ?_, ?_⟩
    · rw [hpages, List.append_nil]
      rfl
    · rw [hpages, List.append_nil, hacc, ← hi, List.length_nil, Nat.add_zero]
  | cons b bs ih =>
    intro i offset acc asHex hi ho hacc hn
    have hcount : bs.length + 1 + i = len := by
      rw [List.length_cons] at hi
      omega
    have hsep := separators_succ hcount
    have hround := hexLoop_cons asHex hi hacc
    rw [pagesFrom_cons, ← List.append_assoc (hexByte b), ← List.append_assoc acc] at hn ⊢
    rw [hround (by rw [List.length_append] at hn; omega)]
    have htwo : (acc ++ hexByte b).length = 2 * i + offset.toNat + 2 := by
      rw [List.length_append, hacc]
      rfl
    rw [List.length_cons] at hi
    by_cases hc : i % 8 = 7 ∧ bs.length ≠ 0
    · rw [if_pos hc] at hsep
      rw [if_pos hc, ← List.append_assoc acc] at hn
      rw [if_pos hc, if_pos hc, ← List.append_assoc acc]
      have ho' : (offset + 1).toNat = offset.toNat + 1 := by
        have hsmall : separators len i < 255 := by
          unfold separators
          omega
        rw [UInt8.toNat_add]
        show (_ + 1) % 256 = _
        omega
      refine ih asHex (by omega) (by rw [ho', ho, hsep]) ?_ hn
      rw [List.length_append, htwo, ho']
      show _ + 1 = _
      omega
    · rw [if_neg hc] at hsep
      rw [if_neg hc, List.append_nil] at hn
      rw [if_neg hc, if_neg hc, List.append_nil]
      refine ih asHex (by omega) (by rw [ho, hsep, Nat.add_zero]) ?_ hn
      rw [htwo]
      omega

end Array

/-- In an array with room for the separators that are written, the text is terminated. -/
theorem toPaginatedHex_eq {n : Nat} (bs : List UInt8) (asHex : Buffer n) (hlen : bs.length ≤ 2048)
    (hn : 2 * bs.length + (2 * bs.length - 1) / 16 + 1 ≤ n) :
    toPaginatedHex bs asHex = .ok (asHex.memmove 0 (paginate (hexText bs) ++ [0])) := by
  have htext : pagesFrom (2 * (0 % 8)) bs = paginate (hexText bs) := pagesFrom_zero bs
  have hplen := paginate_length (hexText bs)
  rw [hexText_length] at hplen
  have hnil : asHex.memmove 0 [] = asHex := by
    apply Buffer.ext
    rw [Buffer.memmove_bytes _ _ (Nat.zero_le _)]
    rfl
  obtain ⟨offset, hloop, hout⟩ := hexLoop_memmove hlen asHex
    (Nat.zero_add _) (show (0 : UInt8).toNat = separators bs.length 0 by unfold separators; simp)
    (show ([] : List UInt8).length = _ from rfl) (by
      rw [htext, List.nil_append, hplen]
      omega)
  rw [hnil, htext, List.nil_append] at hloop
  rw [htext, List.nil_append] at hout
  rw [toPaginatedHex, if_neg (by omega), hloop]
  show Except.ok ((asHex.memmove 0 (paginate (hexText bs))).memmove (2 * bs.length + offset.toNat) [0]) = _
  rw [← hout, Buffer.memmove_memmove _ _ _ (by
    rw [List.length_append, hplen]
    exact hn)]

theorem cString_hex {n : Nat} (bs : List UInt8) (asHex : Buffer n)
    (hn : 2 * bs.length + (2 * bs.length - 1) / 16 + 1 ≤ n) :
    cString (asHex.memmove 0 (paginate (hexText bs) ++ [0])).bytes =
      some (paginate (hexText bs)) := by
  have hplen := paginate_length (hexText bs)
  rw [hexText_length] at hplen
  exact cString_memmove _ _ (zero_not_mem_paginate fun h => (ne_of_mem_hexText h).2 rfl) (by omega)

namespace Stored

theorem pagesFrom_slice (p : Ptr) (i rounds : Nat) :
    pagesFrom (2 * (i % 8)) ((p.advance i).slice (rounds + 1)) =
      hexByte (p i) ++ ((if i % 8 = 7 ∧ rounds ≠ 0 then [32] else []) ++
        pagesFrom (2 * ((i + 1) % 8)) ((p.advance (i + 1)).slice rounds)) := by
  have hslice : (p.advance i).slice (rounds + 1) = p i :: (p.advance (i + 1)).slice rounds := by
    rw [Ptr.slice_succ, Ptr.advance_advance]
    rfl
  rw [hslice, pagesFrom_cons, Ptr.slice_length]

theorem succ_toNat {i : UInt64} (h : i.toNat < 2 ^ 60) : (i + 1).toNat = i.toNat + 1 := by
  rw [UInt64.toNat_add]
  exact Nat.mod_eq_of_lt (show i.toNat + 1 < 2 ^ 64 by omega)

/-- The index of a character, `j` behind the first one of its byte. -/
theorem place_toNat {i j : UInt64} (offset : UInt8) (hi : i.toNat < 2 ^ 60) (hj : j.toNat ≤ 2) :
    (2 * i + (offset.toUInt64 + j)).toNat = 2 * i.toNat + offset.toNat + j.toNat := by
  have hoff := offset.toNat_lt
  rw [← UInt64.add_assoc, UInt64.toNat_add, UInt64.toNat_add, UInt64.toNat_mul,
    UInt8.toNat_toUInt64]
  show ((2 * i.toNat % 2 ^ 64 + offset.toNat) % 2 ^ 64 + j.toNat) % 2 ^ 64 = _
  omega

/-- When a separator is stored. -/
theorem separates_iff {len i : UInt64} {rounds : Nat} (hlen : len.toNat < 2 ^ 60)
    (hi : rounds + 1 + i.toNat = len.toNat) :
    (2 * (i + 1) % 16 = 0 ∧ i ≠ len - 1) ↔ i.toNat % 8 = 7 ∧ rounds ≠ 0 := by
  have hmul : (2 * (i + 1) % 16).toNat = 2 * (i.toNat + 1) % 16 := by
    rw [UInt64.toNat_mod, UInt64.toNat_mul, succ_toNat (by omega)]
    show 2 * (i.toNat + 1) % 2 ^ 64 % 16 = _
    omega
  have hone : (1 : UInt64).toNat = 1 := rfl
  have hlast : (len - 1).toNat = len.toNat - 1 := by
    rw [UInt64.toNat_sub_of_le _ _ (UInt64.le_iff_toNat_le.mpr (by rw [hone]; omega)), hone]
  rw [← UInt64.toNat_inj, hmul, ne_eq, ← UInt64.toNat_inj, hlast]
  show 2 * (i.toNat + 1) % 16 = 0 ∧ _ ↔ _
  omega

/-- One round of the loop: the two digits, and the separator behind them. -/
theorem hexLoop_succ (byteArray : Ptr) {len i : UInt64} {rounds : Nat} (offset : UInt8)
    (st : Stores) (hlen : len.toNat < 2 ^ 60) (hi : rounds + 1 + i.toNat = len.toNat) :
    let place := 2 * i.toNat + offset.toNat
    hexLoop byteArray len (rounds + 1) i offset st =
      if i.toNat % 8 = 7 ∧ rounds ≠ 0 then
        hexLoop byteArray len rounds (i + 1) (offset + 1)
          (st ++ (hexStores place (byteArray i.toNat) ++ [(Int.ofNat (place + 2), 32)]))
      else
        hexLoop byteArray len rounds (i + 1) offset
          (st ++ hexStores place (byteArray i.toNat)) := by
  intro place
  have hlt : i.toNat < 2 ^ 60 := by omega
  have hplace : (2 * i + offset.toUInt64).toNat = place := by
    rw [← UInt64.add_zero offset.toUInt64]
    exact place_toNat offset hlt (by decide)
  have hplace1 : (2 * i + (offset.toUInt64 + 1)).toNat = place + 1 :=
    place_toNat offset hlt (by decide)
  have hplace2 : (2 * i + (offset.toUInt64 + 2)).toNat = place + 2 :=
    place_toNat offset hlt (by decide)
  rw [hexLoop]
  simp only [hplace, hplace1, hplace2]
  rw [bind_of_ok (store_ok _ _ _), bind_of_ok (store_ok _ _ _)]
  by_cases hc : i.toNat % 8 = 7 ∧ rounds ≠ 0
  · rw [if_pos ((separates_iff hlen hi).mpr hc), if_pos hc, bind_of_ok (store_ok _ _ _)]
    simp only [hexStores, List.append_assoc]
    rfl
  · rw [if_neg fun h => hc ((separates_iff hlen hi).mp h), if_neg hc]
    simp only [hexStores, List.append_assoc]
    rfl

/-- The loop always ends. The offset counts the separators modulo 256, and as long as there are
fewer, the pages lie one behind the other. -/
theorem hexLoop_fills (byteArray : Ptr) (len : UInt64) (hlen : len.toNat < 2 ^ 60) :
    ∀ (rounds : Nat) (i : UInt64) (offset : UInt8) (st : Stores), rounds + i.toNat = len.toNat →
      offset.toNat = separators len.toNat i.toNat % 256 →
      ∃ offset' st', hexLoop byteArray len rounds i offset st = .ok offset' (st ++ st') ∧
        offset'.toNat = separators len.toNat len.toNat % 256 ∧
        (len.toNat ≤ 2048 → Fills (2 * i.toNat + offset.toNat : Nat)
          (pagesFrom (2 * (i.toNat % 8)) ((byteArray.advance i.toNat).slice rounds)) st') := by
  intro rounds
  induction rounds with
  | zero =>
    intro i offset st hi ho
    rw [Nat.zero_add] at hi
    refine ⟨offset, [], by rw [List.append_nil]; rfl, by rw [ho, hi], fun _ => ?_⟩
    exact Fills.nil _
  | succ rounds ih =>
    intro i offset st hi ho
    have hnext : (i + 1).toNat = i.toNat + 1 := succ_toNat (by omega)
    have hsep := separators_succ hi
    have hbyte := hexStores_fills (2 * i.toNat + offset.toNat) (byteArray i.toNat)
    rw [hexLoop_succ byteArray offset st hlen hi, pagesFrom_slice, ← hnext]
    by_cases hc : i.toNat % 8 = 7 ∧ rounds ≠ 0
    · rw [if_pos hc] at hsep ⊢
      rw [if_pos hc]
      have ho' : (offset + 1).toNat = separators len.toNat (i + 1).toNat % 256 := by
        rw [UInt8.toNat_add, ho, hnext, hsep]
        show (_ + 1) % 256 = _
        omega
      obtain ⟨offset', st', hst, hoff', hf⟩ := ih _ _ _ (by omega) ho'
      refine ⟨offset', _, by rw [hst, List.append_assoc], hoff', fun h2048 => ?_⟩
      have hsmall : separators len.toNat (i.toNat + 1) ≤ 255 := by
        unfold separators
        omega
      have hplace : 2 * (i + 1).toNat + (offset + 1).toNat =
          2 * i.toNat + offset.toNat + 2 + 1 := by
        rw [ho', ho, hnext]
        omega
      have hf := hf h2048
      rw [hplace] at hf
      rw [List.append_assoc]
      exact hbyte.append ((Fills.single _ 32).append hf)
    · rw [if_neg hc] at hsep ⊢
      rw [if_neg hc]
      have ho' : offset.toNat = separators len.toNat (i + 1).toNat % 256 := by
        rw [ho, hnext, hsep, Nat.add_zero]
      obtain ⟨offset', st', hst, hoff', hf⟩ := ih _ _ _ (by omega) ho'
      refine ⟨offset', _, by rw [hst, List.append_assoc], hoff', fun h2048 => ?_⟩
      have hplace : 2 * (i + 1).toNat + offset.toNat = 2 * i.toNat + offset.toNat + 2 := by
        rw [hnext]
        omega
      have hf := hf h2048
      rw [hplace] at hf
      exact hbyte.append hf

theorem hexLoop_ok (byteArray : Ptr) (len : UInt64) :
    ∀ (rounds : Nat) (i : UInt64) (offset : UInt8) (st : Stores),
      ∃ offset' st', hexLoop byteArray len rounds i offset st = .ok offset' st' := by
  intro rounds
  induction rounds with
  | zero => exact fun _ offset st => ⟨offset, st, rfl⟩
  | succ rounds ih =>
    intro i offset st
    rw [hexLoop, bind_of_ok (store_ok _ _ _), bind_of_ok (store_ok _ _ _)]
    split
    · rw [bind_of_ok (store_ok _ _ _)]
      exact ih _ _ _
    · exact ih _ _ _

/-- The function throws before it stores anything, or stores within `asHex` only and leaves the
pages there with a NUL behind them, whatever the memory was. -/
def Paginates (byteArray : Ptr) (len : UInt64) (asHexSize : UInt32) : Prop :=
  let text := paginate (hexText (byteArray.slice len.toNat)) ++ [0]
  match toPaginatedHex byteArray len asHexSize [] with
  | .ok _ st => Stores.Within 0 asHexSize.toNat st ∧
      ∀ m, Stores.read (Stores.after m st) 0 text.length = text
  | .thrown _ st => st = []

/-- The text that has to fit. -/
theorem text_length (byteArray : Ptr) (len : UInt64) :
    (paginate (hexText (byteArray.slice len.toNat)) ++ [0]).length =
      2 * len.toNat + (len.toNat - 1) / 8 + 1 := by
  rw [List.length_append, paginate_length, hexText_length, Ptr.slice_length, List.length_singleton]
  omega

/-- Where there is room and the offset does not overflow. -/
theorem paginates_of_room {byteArray : Ptr} {len : UInt64} {asHexSize : UInt32}
    (hlen : len.toNat ≤ 2048) (hroom : 2 * len.toNat + (len.toNat - 1) / 8 + 1 ≤ asHexSize.toNat) :
    Paginates byteArray len asHexSize := by
  have htext := text_length byteArray len
  obtain ⟨offset, st, hst, hoff, hf⟩ := hexLoop_fills byteArray len (by omega)
    len.toNat 0 0 [] rfl rfl
  have hf := hf hlen
  rw [show byteArray.advance (UInt64.toNat 0) = byteArray from Ptr.advance_zero _] at hf
  have hf : Fills 0 (pagesFrom 0 (byteArray.slice len.toNat)) st := hf
  rw [pagesFrom_zero] at hf
  have hsep : separators len.toNat len.toNat = (len.toNat - 1) / 8 := by
    unfold separators
    omega
  have hplace : (2 * len + offset.toUInt64).toNat =
      (paginate (hexText (byteArray.slice len.toNat))).length := by
    have h256 : (len.toNat - 1) / 8 % 256 = (len.toNat - 1) / 8 := Nat.mod_eq_of_lt (by omega)
    rw [List.length_append, List.length_singleton] at htext
    rw [UInt64.toNat_add, UInt64.toNat_mul, UInt8.toNat_toUInt64, hoff, hsep, h256]
    show (2 * len.toNat % 2 ^ 64 + _) % 2 ^ 64 = _
    omega
  have hall : Fills 0 (paginate (hexText (byteArray.slice len.toNat)) ++ [0])
      (st ++ [(((2 * len + offset.toUInt64).toNat : Int), 0)]) := by
    refine hf.append ?_
    rw [hplace, Int.zero_add]
    exact Fills.single _ _
  unfold Paginates toPaginatedHex
  split
  · rename_i hok
    split at hok
    · cases hok
    · rw [bind_of_ok hst] at hok
      cases hok
      refine ⟨hall.within.mono (by omega) (by omega), hall.read⟩
  · rename_i hthrown
    split at hthrown
    · cases hthrown
      rfl
    · rw [bind_of_ok hst] at hthrown
      cases hthrown

end Stored

/-- `toPaginatedHex` is right exactly where it refuses the size, in 64-bit arithmetic, or where the
size is enough and the separators can be counted in eight bits. Without the spaces, the text decodes
to the bytes. -/
theorem paginatedHex_iff (byteArray : Ptr) (len : UInt64) (asHexSize : UInt32) :
    (Stored.Paginates byteArray len asHexSize ↔
      asHexSize.toUInt64 < len * 2 + len / 16 + 1 ∨
        len.toNat ≤ 2048 ∧ 2 * len.toNat + (len.toNat - 1) / 8 + 1 ≤ asHexSize.toNat) ∧
    unhex ((paginate (hexText (byteArray.slice len.toNat))).filter (· ≠ 32)) =
      some (byteArray.slice len.toNat) := by
  refine ⟨?_, by rw [paginate_filter fun c hc => (ne_of_mem_hexText hc).1, unhex_hexText]⟩
  constructor
  · intro h
    by_cases hthrow : asHexSize.toUInt64 < len * 2 + len / 16 + 1
    · exact .inl hthrow
    right
    have htext := Stored.text_length byteArray len
    obtain ⟨offset, st, hst⟩ := Stored.hexLoop_ok byteArray len len.toNat 0 0 []
    have hrun : Stored.toPaginatedHex byteArray len asHexSize [] =
        .ok ⟨⟩ (st ++ [(((2 * len + offset.toUInt64).toNat : Int), 0)]) := by
      unfold Stored.toPaginatedHex
      rw [if_neg hthrow, bind_of_ok hst]
      rfl
    unfold Stored.Paginates at h
    simp only [hrun] at h
    obtain ⟨hwithin, hread⟩ := h
    rw [← Int.zero_add (asHexSize.toNat : Int)] at hwithin
    have hroom := hwithin.length_le_of_read hread
    have hsize := asHexSize.toNat_lt
    refine ⟨?_, by omega⟩
    -- the NUL is stored too early when the offset has overflowed
    by_contra hlen
    obtain ⟨offset', st', hst', hoff, _⟩ := Stored.hexLoop_fills byteArray len (by omega)
      len.toNat 0 0 [] rfl rfl
    rw [hst] at hst'
    cases hst'
    have hsep : separators len.toNat len.toNat = (len.toNat - 1) / 8 := by
      unfold separators
      omega
    have hplace : (2 * len + offset.toUInt64).toNat = 2 * len.toNat + (len.toNat - 1) / 8 % 256 := by
      rw [UInt64.toNat_add, UInt64.toNat_mul, UInt8.toNat_toUInt64, hoff, hsep]
      show (2 * len.toNat % 2 ^ 64 + _) % 2 ^ 64 = _
      omega
    have hpages : (2 * len + offset.toUInt64).toNat <
        (paginate (hexText (byteArray.slice len.toNat))).length := by
      rw [List.length_append, List.length_singleton] at htext
      omega
    have hbyte := Stores.getElem_of_read (hread fun _ => 0)
      (Nat.lt_of_lt_of_le hpages (by rw [List.length_append]; omega))
    rw [List.getElem_append_left hpages, Int.zero_add, Stores.after_concat] at hbyte
    have hmem := List.getElem_mem hpages
    rw [hbyte] at hmem
    exact zero_not_mem_paginate (fun h => (ne_of_mem_hexText h).2 rfl) hmem
  · rintro (h | ⟨hlen, hroom⟩)
    · unfold Stored.Paginates Stored.toPaginatedHex
      rw [if_pos h]
      rfl
    · exact Stored.paginates_of_room hlen hroom

/-- Nine bytes take 18 digits, a space and a NUL; 19 places are accepted. -/
theorem nine_bytes_overrun : ¬ Stored.Paginates (fun _ => 0) 9 19 := by
  intro h
  have hout : (match Stored.toPaginatedHex (fun _ => 0) 9 19 [] with
    | .ok _ st => decide (Stores.Within 0 19 st)
    | .thrown _ st => decide (st = [])) = false := by decide
  unfold Stored.Paginates at h
  cases hrun : Stored.toPaginatedHex (fun _ => 0) 9 19 [] with
  | ok a st =>
    rw [hrun] at h hout
    exact absurd h.1 (of_decide_eq_false hout)
  | thrown e st =>
    rw [hrun] at h hout
    exact absurd h (of_decide_eq_false hout)

end ConcordiumLedger
