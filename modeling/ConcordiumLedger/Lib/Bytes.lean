import Mathlib.Data.List.Basic
import Mathlib.Data.List.TakeDrop
import Mathlib.Data.List.TakeWhile
import Mathlib.Tactic.Ring

/-!
# Lib.Bytes

Memory as C code sees it through its pointers and arrays.

* `Ptr`      — the bytes found from a pointer on; `slice` reads a range and `advance` is `p += n`.
* `beNat`    — a big-endian number, with `u2be`, `u4be` and `u8be` for the usual widths.
* `Buffer n` — an array of `n` bytes, written by `memmove`.
* `cString`  — the NUL-terminated string that an array starts with, if it is terminated.
-/

namespace CMem

/-! ## Pointers -/

/-- The bytes from a pointer on. -/
abbrev Ptr := Nat → UInt8

def Ptr.advance (p : Ptr) (n : Nat) : Ptr := fun i => p (n + i)

def Ptr.slice (p : Ptr) (n : Nat) : List UInt8 := (List.range n).map p

/-- A pointer to the given bytes, with zeroes after them. -/
def Ptr.ofBytes (bs : List UInt8) : Ptr := fun i => bs.getD i 0

@[simp] theorem Ptr.slice_length (p : Ptr) (n : Nat) : (p.slice n).length = n := by
  simp [Ptr.slice]

@[simp] theorem Ptr.slice_zero (p : Ptr) : p.slice 0 = [] := rfl

theorem Ptr.slice_succ (p : Ptr) (n : Nat) : p.slice (n + 1) = p 0 :: (p.advance 1).slice n := by
  simp only [Ptr.slice, List.range_succ_eq_map, List.map_cons, List.map_map]
  congr 1
  apply List.map_congr_left
  intro i _
  show p (i + 1) = p (1 + i)
  rw [Nat.add_comm]

theorem Ptr.slice_add (p : Ptr) (m n : Nat) :
    p.slice (m + n) = p.slice m ++ (p.advance m).slice n := by
  simp only [Ptr.slice, List.range_add, List.map_append, List.map_map]
  congr 1

@[simp] theorem Ptr.advance_advance (p : Ptr) (m n : Nat) :
    (p.advance m).advance n = p.advance (m + n) := by
  funext i; simp only [Ptr.advance]; rw [Nat.add_assoc]

@[simp] theorem Ptr.advance_zero (p : Ptr) : p.advance 0 = p := by
  funext i; simp [Ptr.advance]

/-! ## Big-endian numbers -/

def beNat (bs : List UInt8) : Nat := bs.foldl (fun acc b => 256 * acc + b.toNat) 0

theorem beNat_foldl (bs : List UInt8) : ∀ acc : Nat,
    bs.foldl (fun acc b => 256 * acc + b.toNat) acc = acc * 256 ^ bs.length + beNat bs := by
  induction bs with
  | nil => intro acc; simp [beNat]
  | cons b bs ih =>
    intro acc
    simp only [List.foldl_cons, List.length_cons, beNat]
    rw [ih, ih (256 * 0 + b.toNat)]
    ring

theorem beNat_cons (b : UInt8) (bs : List UInt8) :
    beNat (b :: bs) = b.toNat * 256 ^ bs.length + beNat bs := by
  simp only [beNat, List.foldl_cons]
  rw [beNat_foldl bs (256 * 0 + b.toNat)]
  simp [beNat]

theorem beNat_lt (bs : List UInt8) : beNat bs < 256 ^ bs.length := by
  induction bs with
  | nil => simp [beNat]
  | cons b bs ih =>
    rw [beNat_cons, List.length_cons, pow_succ]
    have hb : b.toNat ≤ 255 := by have := b.toNat_lt; omega
    have := Nat.mul_le_mul_right (256 ^ bs.length) hb
    omega

def Ptr.u2be (p : Ptr) (off : Nat) : UInt16 := .ofNat (beNat ((p.advance off).slice 2))

def Ptr.u4be (p : Ptr) (off : Nat) : UInt32 := .ofNat (beNat ((p.advance off).slice 4))

def Ptr.u8be (p : Ptr) (off : Nat) : UInt64 := .ofNat (beNat ((p.advance off).slice 8))

theorem Ptr.u2be_toNat (p : Ptr) (off : Nat) :
    (p.u2be off).toNat = beNat ((p.advance off).slice 2) := by
  have h := beNat_lt ((p.advance off).slice 2)
  rw [Ptr.slice_length] at h
  simp only [Ptr.u2be, UInt16.toNat_ofNat']
  exact Nat.mod_eq_of_lt (by simpa using h)

theorem Ptr.u4be_toNat (p : Ptr) (off : Nat) :
    (p.u4be off).toNat = beNat ((p.advance off).slice 4) := by
  have h := beNat_lt ((p.advance off).slice 4)
  rw [Ptr.slice_length] at h
  simp only [Ptr.u4be, UInt32.toNat_ofNat']
  exact Nat.mod_eq_of_lt (by simpa using h)

theorem Ptr.u8be_toNat (p : Ptr) (off : Nat) :
    (p.u8be off).toNat = beNat ((p.advance off).slice 8) := by
  have h := beNat_lt ((p.advance off).slice 8)
  rw [Ptr.slice_length] at h
  simp only [Ptr.u8be, UInt64.toNat_ofNat']
  exact Nat.mod_eq_of_lt (by simpa using h)

/-! ## Arrays -/

/-- An array of `n` bytes. -/
@[ext]
structure Buffer (n : Nat) where
  bytes : List UInt8
  length_eq : bytes.length = n
deriving DecidableEq

namespace Buffer

variable {n : Nat}

/-- An array of zeroes, as a static variable starts out. -/
def zero (n : Nat) : Buffer n := ⟨List.replicate n 0, by simp⟩

instance : Inhabited (Buffer n) := ⟨zero n⟩

/-- `memmove(b + off, src, |src|)`. Only the array itself is modelled: what would be written
after its end is cut off. -/
def memmove (b : Buffer n) (off : Nat) (src : List UInt8) : Buffer n :=
  ⟨(b.bytes.take off ++ src ++ b.bytes.drop (off + src.length)).take n, by
    have := b.length_eq
    simp only [List.length_take, List.length_append, List.length_drop]
    omega⟩

def ptr (b : Buffer n) : Ptr := Ptr.ofBytes b.bytes

/-- The array of `m` bytes from `off` on, which lies inside. -/
def part (b : Buffer n) (off m : Nat) (h : off + m ≤ n := by decide) : Buffer m :=
  ⟨(b.bytes.drop off).take m, by
    have := b.length_eq
    simp only [List.length_take, List.length_drop]
    omega⟩

/-- A copy leaves what is in front of it. -/
theorem getElem?_memmove_of_lt (b : Buffer n) (src : List UInt8) {off i : Nat} (hi : i < off) :
    (b.memmove off src).bytes[i]? = b.bytes[i]? := by
  have hb := b.length_eq
  by_cases hn : i < n
  · show (List.take n _)[i]? = _
    rw [List.getElem?_take_of_lt hn, List.append_assoc, List.getElem?_append_left
      (by rw [List.length_take]; omega), List.getElem?_take_of_lt hi]
  · rw [List.getElem?_eq_none (by rw [(b.memmove off src).length_eq]; omega),
      List.getElem?_eq_none (by omega)]

/-- A copy to an array that lies inside. -/
theorem part_memmove (b : Buffer n) (src : List UInt8) {off m : Nat} (h : off + m ≤ n) :
    (b.memmove off src).part off m h = (b.part off m h).memmove 0 src := by
  have hb := b.length_eq
  have hoff : (b.bytes.take off).length = off := by
    rw [List.length_take]
    omega
  have hdrop : (List.take n (b.bytes.take off ++ src ++ b.bytes.drop (off + src.length))).drop off =
      List.take (n - off) (src ++ b.bytes.drop (off + src.length)) := by
    rw [List.drop_take, List.append_assoc, List.drop_append, hoff, Nat.sub_self, List.drop_zero,
      List.drop_eq_nil_of_le (Nat.le_of_eq hoff), List.nil_append]
  apply Buffer.ext
  show List.take m (List.drop off (List.take n _)) =
    List.take m ([] ++ src ++ List.drop (0 + src.length) (List.take m (b.bytes.drop off)))
  rw [hdrop, List.take_take, Nat.min_eq_left (by omega), List.nil_append, Nat.zero_add,
    List.drop_take, List.drop_drop, List.take_append, List.take_append, List.take_take,
    Nat.min_self]

/-- Arrays that agree up to the end of a part have the same part. -/
theorem part_congr {b c : Buffer n} {off m : Nat} (h : off + m ≤ n)
    (hbytes : ∀ i < off + m, b.bytes[i]? = c.bytes[i]?) : b.part off m h = c.part off m h := by
  apply Buffer.ext
  apply List.ext_getElem?
  intro i
  show ((b.bytes.drop off).take m)[i]? = ((c.bytes.drop off).take m)[i]?
  rw [List.getElem?_take, List.getElem?_take]
  split
  · rename_i hi
    rw [List.getElem?_drop, List.getElem?_drop, hbytes _ (by omega)]
  · rfl

theorem memmove_bytes (b : Buffer n) (src : List UInt8) (h : src.length ≤ n) :
    (b.memmove 0 src).bytes = src ++ b.bytes.drop src.length := by
  have hb := b.length_eq
  simp only [memmove, List.take_zero, List.nil_append, Nat.zero_add]
  apply List.take_of_length_le
  simp only [List.length_append, List.length_drop]
  omega

/-- A second write over the end `u` of the first one. -/
theorem memmove_over (b : Buffer n) (s t : List UInt8) {u : List UInt8} (hu : u.length ≤ t.length)
    (h : (s ++ t).length ≤ n) :
    (b.memmove 0 (s ++ u)).memmove s.length t = b.memmove 0 (s ++ t) := by
  have hb := b.length_eq
  rw [List.length_append] at h
  have hsu := memmove_bytes b (s ++ u) (by rw [List.length_append]; omega)
  have hst := memmove_bytes b (s ++ t) (by rw [List.length_append]; omega)
  have htake : (s ++ u ++ b.bytes.drop (s ++ u).length).take s.length = s := by
    rw [List.append_assoc, List.take_left]
  have hdrop : (s ++ u ++ b.bytes.drop (s ++ u).length).drop (s.length + t.length) =
      b.bytes.drop (s ++ t).length := by
    rw [List.drop_append, List.drop_eq_nil_of_le (by rw [List.length_append]; omega),
      List.nil_append, List.drop_drop, List.length_append, List.length_append]
    congr 1
    omega
  apply Buffer.ext
  show List.take n ((b.memmove 0 (s ++ u)).bytes.take s.length ++ t ++
    (b.memmove 0 (s ++ u)).bytes.drop (s.length + t.length)) = _
  rw [hst, hsu, htake, hdrop, List.take_of_length_le]
  simp only [List.length_append, List.length_drop]
  omega

/-- A copy of a whole array. -/
theorem memmove_all (b c : Buffer n) : b.memmove 0 c.bytes = c := by
  have hc := c.length_eq
  have hb := b.length_eq
  apply Buffer.ext
  rw [memmove_bytes b c.bytes (Nat.le_of_eq hc), List.drop_eq_nil_of_le (by omega), List.append_nil]

/-- Two writes in a row, the second where the first ends. -/
theorem memmove_memmove (b : Buffer n) (s t : List UInt8) (h : (s ++ t).length ≤ n) :
    (b.memmove 0 s).memmove s.length t = b.memmove 0 (s ++ t) := by
  have hover := memmove_over b s t (show ([] : List UInt8).length ≤ t.length from Nat.zero_le _) h
  rwa [List.append_nil] at hover

/-- What is copied to the start of an array is found there. -/
theorem prefix_memmove (b : Buffer n) {src : List UInt8} (h : src.length ≤ n) :
    src <+: (b.memmove 0 src).bytes := by
  rw [memmove_bytes b src h]
  exact List.prefix_append _ _

/-- A copy behind what the array starts with. -/
theorem append_prefix_memmove {b : Buffer n} {s t : List UInt8} (hs : s <+: b.bytes)
    (h : (s ++ t).length ≤ n) : s ++ t <+: (b.memmove s.length t).bytes := by
  obtain ⟨rest, hrest⟩ := hs
  have hover : b.bytes.take s.length = s := by rw [← hrest, List.take_left]
  show s ++ t <+: List.take n (b.bytes.take s.length ++ t ++ b.bytes.drop (s.length + t.length))
  rw [hover]
  exact List.prefix_take_iff.mpr ⟨List.prefix_append _ _, h⟩

/-- What an array starts with, seen from inside. -/
theorem prefix_part {b : Buffer n} {s t : List UInt8} {m : Nat} (h : s.length + m ≤ n)
    (hst : s ++ t <+: b.bytes) (ht : t.length ≤ m) : t <+: (b.part s.length m h).bytes := by
  obtain ⟨rest, hrest⟩ := hst
  show t <+: (b.bytes.drop s.length).take m
  rw [← hrest, List.append_assoc, List.drop_left]
  exact List.prefix_take_iff.mpr ⟨List.prefix_append _ _, ht⟩

/-- The bytes of a copy that fits are read back through a pointer. -/
theorem ptr_memmove (b : Buffer n) (src : List UInt8) (h : src.length ≤ n) (i : Nat)
    (hi : i < src.length) : (b.memmove 0 src).ptr i = src.getD i 0 := by
  unfold ptr Ptr.ofBytes
  rw [memmove_bytes b src h, List.getD_eq_getElem?_getD, List.getElem?_append_left hi,
    ← List.getD_eq_getElem?_getD]

end Buffer

/-! ## Parsing -/

/-- The first `n` bytes and the rest, if there are that many. -/
def takeBytes (n : Nat) (bs : List UInt8) : Option (List UInt8 × List UInt8) :=
  if n ≤ bs.length then some (bs.take n, bs.drop n) else none

theorem takeBytes_append {n : Nat} {a : List UInt8} (b : List UInt8) (h : a.length = n) :
    takeBytes n (a ++ b) = some (a, b) := by
  subst h
  rw [takeBytes, if_pos (by rw [List.length_append]; omega), List.take_left, List.drop_left]

/-! ## Strings -/

/-- The string at the start of an array: its bytes before the first NUL. `none` if there is no
NUL, when reading the string would run past the array. -/
def cString (bs : List UInt8) : Option (List UInt8) :=
  if 0 ∈ bs then some (bs.takeWhile (· != 0)) else none

theorem cString_append_nul (t rest : List UInt8) (h : 0 ∉ t) :
    cString (t ++ 0 :: rest) = some t := by
  have hm : (0 : UInt8) ∈ t ++ 0 :: rest := by simp
  rw [cString, if_pos hm, List.takeWhile_append_of_pos]
  · simp
  · intro b hb
    have : b ≠ 0 := fun e => h (e ▸ hb)
    simpa using this

/-- A text without a NUL is the string iff a NUL follows it. -/
theorem cString_append_iff {t rest : List UInt8} (h : 0 ∉ t) :
    cString (t ++ rest) = some t ↔ rest.head? = some 0 := by
  cases rest with
  | nil =>
    rw [List.append_nil, cString, if_neg h]
    simp
  | cons b rest =>
    rw [List.head?_cons, Option.some.injEq]
    constructor
    · intro hs
      by_contra hb
      rw [cString] at hs
      split at hs
      · have htake : (t ++ b :: rest).takeWhile (· != 0) = t := Option.some.inj hs
        have hall : ∀ x ∈ t, (x != 0) = true := by
          intro x hx
          have : x ≠ 0 := fun e => h (e ▸ hx)
          simpa using this
        rw [List.takeWhile_append_of_pos hall, List.takeWhile_cons_of_pos (by simpa using hb)] at htake
        have hlen := congrArg List.length htake
        rw [List.length_append, List.length_cons] at hlen
        omega
      · cases hs
    · intro hb
      rw [hb]
      exact cString_append_nul t rest h

/-- A string has no NUL in it. -/
theorem zero_not_mem_of_cString {bs t : List UInt8} (h : cString bs = some t) : 0 ∉ t := by
  unfold cString at h
  split at h
  · cases h
    intro hz
    have := List.mem_takeWhile_imp hz
    simp at this
  · cases h

/-- What comes after a terminated text is not part of the string. -/
theorem cString_append {t : List UInt8} (rest : List UInt8) (h : 0 ∈ t) :
    cString (t ++ rest) = cString t := by
  rw [cString, cString, if_pos h, if_pos (List.mem_append_left _ h), List.takeWhile_append,
    if_neg]
  intro hlen
  have hall := List.takeWhile_eq_self_iff.mp ((List.takeWhile_prefix _).eq_of_length hlen)
  exact absurd (hall 0 h) (by decide)

/-- A terminated text that was copied to the start of an array is the string the array shows. -/
theorem cString_memmove_mem {n : Nat} (b : Buffer n) {t : List UInt8} (h : 0 ∈ t)
    (hn : t.length ≤ n) : cString (b.memmove 0 t).bytes = cString t := by
  rw [Buffer.memmove_bytes _ _ hn, cString_append _ h]

/-- A terminated text that was copied to the start of an array is the string found there. -/
theorem cString_memmove {n : Nat} (b : Buffer n) (t : List UInt8) (h : 0 ∉ t)
    (hn : t.length < n) : cString (b.memmove 0 (t ++ [0])).bytes = some t := by
  rw [Buffer.memmove_bytes _ _ (by simp; omega), List.append_assoc]
  exact cString_append_nul t _ h

/-- What the string of an array begins with, if it is not NUL. -/
theorem prefix_cString {t bs str : List UInt8} (h : t <+: bs) (h0 : 0 ∉ t)
    (hs : cString bs = some str) : t <+: str := by
  obtain ⟨rest, rfl⟩ := h
  unfold cString at hs
  split at hs
  · cases hs
    rw [List.takeWhile_append_of_pos]
    · exact List.prefix_append _ _
    · intro b hb
      have hne : b ≠ 0 := fun e => h0 (e ▸ hb)
      simpa using hne
  · cases hs

theorem cString_prefix_iff {t bs : List UInt8} (h : t <+: bs) (h0 : 0 ∉ t) :
    cString bs = some t ↔ bs[t.length]? = some 0 := by
  obtain ⟨rest, rfl⟩ := h
  rw [cString_append_iff h0, List.getElem?_append_right (Nat.le_refl _), Nat.sub_self,
    List.head?_eq_getElem?]

/-- Arrays that begin with the given texts have strings that are not shorter. -/
theorem strings_length {pages : List (List UInt8 × List UInt8)} (hp : ∀ p ∈ pages, p.1 <+: p.2)
    (h0 : 0 ∉ (pages.map Prod.fst).flatten) {strs : List (List UInt8)}
    (hs : (pages.map Prod.snd).mapM cString = some strs) :
    (pages.map Prod.fst).flatten.length ≤ strs.flatten.length := by
  induction pages generalizing strs with
  | nil => exact Nat.zero_le _
  | cons p pages ih =>
    simp only [List.map_cons, List.flatten_cons, List.mem_append, not_or] at h0
    simp only [List.map_cons, List.mapM_cons, Option.bind_eq_bind, Option.bind_eq_some_iff,
      Option.pure_def, Option.some.injEq] at hs
    obtain ⟨str, hstr, strs', hstrs, rfl⟩ := hs
    have hhead := (prefix_cString (hp p List.mem_cons_self) h0.1 hstr).length_le
    have htail := ih (fun q hq => hp q (List.mem_cons_of_mem _ hq)) h0.2 hstrs
    simp only [List.map_cons, List.flatten_cons, List.length_append]
    omega

/-- The strings of some arrays spell the texts that the arrays begin with exactly if a NUL follows
each of the texts. -/
theorem strings_flatten_iff {pages : List (List UInt8 × List UInt8)}
    (hp : ∀ p ∈ pages, p.1 <+: p.2) (h0 : 0 ∉ (pages.map Prod.fst).flatten) :
    ((pages.map Prod.snd).mapM cString).map List.flatten = some (pages.map Prod.fst).flatten ↔
      ∀ p ∈ pages, p.2[p.1.length]? = some 0 := by
  induction pages with
  | nil => simp
  | cons p pages ih =>
    have hrest : ∀ q ∈ pages, q.1 <+: q.2 := fun q hq => hp q (List.mem_cons_of_mem _ hq)
    have hpre := hp p List.mem_cons_self
    simp only [List.map_cons, List.flatten_cons, List.mem_append, not_or] at h0
    rw [List.forall_mem_cons, ← cString_prefix_iff hpre h0.1, ← ih hrest h0.2]
    simp only [List.map_cons, List.mapM_cons, Option.bind_eq_bind, Option.pure_def,
      Option.map_eq_some_iff, Option.bind_eq_some_iff, Option.some.injEq, List.flatten_cons]
    constructor
    · rintro ⟨_, ⟨str, hstr, strs, hstrs, rfl⟩, hflat⟩
      have hle := (prefix_cString hpre h0.1 hstr).length_le
      have hle' := strings_length hrest h0.2 hstrs
      have hlen := congrArg List.length hflat
      simp only [List.flatten_cons, List.length_append] at hlen
      -- neither side of the first page is the longer one
      obtain ⟨hhead, htail⟩ := List.append_inj hflat (by omega)
      exact ⟨by rw [hstr, hhead], strs, hstrs, htail⟩
    · rintro ⟨hstr, strs, hstrs, hflat⟩
      exact ⟨p.1 :: strs, ⟨p.1, hstr, strs, hstrs, rfl⟩, by rw [List.flatten_cons, hflat]⟩

/-- The bytes of an ASCII text. -/
def ascii (s : String) : List UInt8 := s.toList.map fun c => UInt8.ofNat c.toNat

/-- The bytes of a string literal, with the NUL that C puts after it. -/
def literal (s : String) : List UInt8 := ascii s ++ [0]

theorem cString_literal (s : String) (h : 0 ∉ ascii s) : cString (literal s) = some (ascii s) := by
  rw [literal]
  exact cString_append_nul _ [] h

end CMem
