import ConcordiumLedger.Common.MainHelpers
import ConcordiumLedger.Lib.Loop

/-!
# Common.BlsKeygen

`blsKeygen` of `util.c`, and that it computes the `KeyGen` of the BLS signature draft.

* the code: the local variables as `Keygen`, one round of the loop as `keygenRound`, and
  `blsKeygen`. The loop has no bound, so the model takes one as fuel. `Sdk.blsKey` is the call of
  `getBlsPrivateKey`.
* the draft: `keyGenSalt`, `keyGenValue`, the number that the `k`-th round of the algorithm gives.

`blsKeygen_stops_iff` says that the loop ends in the first round whose number is not zero, with the
32 bytes of that number; `Sdk.blsKey_iff` says so of the keys that the application derives.
-/

namespace ConcordiumLedger

open CMem CLoop

/-! ## The code -/

/-- `r`, the order of the subgroup -/
def r : List UInt8 :=
  [0x73, 0xed, 0xa7, 0x53, 0x29, 0x9d, 0x7d, 0x48, 0x33, 0x39, 0xd8,
   0x08, 0x09, 0xa1, 0xd8, 0x05, 0x53, 0xbd, 0xa4, 0x02, 0xff, 0xfe,
   0x5b, 0xfe, 0xff, 0xff, 0xff, 0xff, 0x00, 0x00, 0x00, 0x01]

/-- `l_CONST` -/
def lConst : Nat := 48

/-- `BLS_KEY_LENGTH` -/
def blsKeyLength : Nat := 32

/-- `SEED_LENGTH` -/
def seedLength : Nat := 32

def lBytes : List UInt8 := [0, .ofNat lConst]

/-- The local variables of `blsKeygen`. -/
structure Keygen where
  sk : Buffer lConst
  prk : Buffer 32
  salt : Buffer 32
  saltSize : Nat
  ikm : Buffer (seedLength + 1)

/-- The salt that `blsKeygen` starts with, filled up with zeroes. -/
def initialSalt : Buffer 32 :=
  (Buffer.zero 32).memmove 0
    [66, 76, 83, 45, 83, 73, 71, 45, 75, 69, 89, 71, 69, 78, 45, 83, 65, 76, 84, 45]

/-- The body of the loop. -/
def keygenRound (sdk : BlsSdk) (l : Keygen) : Except Error Keygen := do
  let l := { l with salt := l.salt.memmove 0 (sdk.cxHashSha256 (l.salt.bytes.take l.saltSize)).bytes }
  let l := { l with saltSize := 32 }
  let l := { l with prk := sdk.cxHkdfExtract l.ikm.bytes l.salt.bytes }
  let l := { l with sk := sdk.cxHkdfExpand l.prk.bytes lBytes lConst }
  match sdk.cxMathModmNoThrow l.sk r with
  | none => .error .failedCxOperation
  | some sk => .ok { l with sk }

/-- `uninitialised` is what the stack holds when the local variables come into scope. The result is
`none` where the fuel ends before the loop does. -/
def blsKeygen {n : Nat} (sdk : BlsSdk) (uninitialised : Keygen) (fuel : Nat) (seed : List UInt8)
    (dst : Buffer n) : Except Error (Option (Buffer n)) :=
  if n < blsKeyLength then .error .bufferOverflow
  else if seed.length ≠ seedLength then .error .invalidTransaction
  else do
    let l := { uninitialised with salt := initialSalt, saltSize := 20 }
    let l := { l with ikm := l.ikm.memmove 0 seed }
    let l := { l with ikm := l.ikm.memmove seedLength [0] }
    let l ← doWhile (keygenRound sdk) (fun l => sdk.cxMathIsZero l.sk) fuel l
    return l.map fun l =>
      dst.memmove 0 ((l.sk.bytes.drop (lConst - blsKeyLength)).take blsKeyLength)

def Keygen.zero : Keygen := ⟨Buffer.zero _, Buffer.zero _, Buffer.zero _, 0, Buffer.zero _⟩

/-- `blsKeygen` as `getBlsPrivateKey` calls it, with an array of 32 bytes for the key. What the
arrays hold at first is not seen in the key. A loop that goes on for longer than `keygenRounds` is
given up with an error, where the device would not answer. -/
def Sdk.blsKey (sdk : Sdk) (seed : List UInt8) : Except Error (List UInt8) := do
  match ← blsKeygen sdk.bls Keygen.zero sdk.keygenRounds seed (Buffer.zero 32) with
  | none => .error .failedCxOperation
  | some dst => .ok dst.bytes

/-! ## The draft -/

/-- The `k`-fold hash of the first salt. -/
def keyGenSalt (sdk : BlsSdk) (k : Nat) : List UInt8 :=
  (fun salt => (sdk.cxHashSha256 salt).bytes)^[k] (ascii "BLS-SIG-KEYGEN-SALT-")

/-- The candidate for the secret key in the `k`-th round of `KeyGen`, without a key info:
`OS2IP(HKDF-Expand(HKDF-Extract(salt, IKM || I2OSP(0, 1)), I2OSP(L, 2), L)) mod r`. -/
def keyGenValue (sdk : BlsSdk) (seed : List UInt8) (k : Nat) : Nat :=
  let prk := sdk.cxHkdfExtract (seed ++ beBytes 1 0) (keyGenSalt sdk k)
  beNat (sdk.cxHkdfExpand prk.bytes (beBytes 2 48) 48).bytes % beNat r

theorem keyGenValue_lt (sdk : BlsSdk) (seed : List UInt8) (k : Nat) :
    keyGenValue sdk seed k < beNat r :=
  Nat.mod_lt _ (by decide)

/-! ## One round -/

/-- The functions of the SDK on big-endian numbers: the one reduces in place, by a modulus that is
not zero, and the other finds out whether a number is zero. -/
structure BlsSdk.Computes (sdk : BlsSdk) : Prop where
  modm : ∀ {n : Nat} (v : Buffer n) (m : List UInt8), beNat m ≠ 0 →
    ∃ v', sdk.cxMathModmNoThrow v m = some v' ∧ beNat v'.bytes = beNat v.bytes % beNat m
  isZero : ∀ {n : Nat} (v : Buffer n), sdk.cxMathIsZero v = true ↔ beNat v.bytes = 0

theorem oneBlsSdk_computes : oneBlsSdk.Computes where
  modm v m hm := by
    refine ⟨_, if_neg hm, ?_⟩
    have hlt := beNat_lt v.bytes
    have hle := Nat.mod_le (beNat v.bytes) (beNat m)
    rw [v.length_eq] at hlt
    rw [beNat_beBytes, Nat.mod_eq_of_lt (Nat.lt_of_le_of_lt hle hlt)]
  isZero v := decide_eq_true_iff

/-- The array holds the big-endian bytes of the rest. -/
theorem BlsSdk.Computes.modm_eq {sdk : BlsSdk} (h : sdk.Computes) {n : Nat} (v : Buffer n)
    {m : List UInt8} (hm : beNat m ≠ 0) :
    sdk.cxMathModmNoThrow v m =
      some ⟨beBytes n (beNat v.bytes % beNat m), beBytes_length _ _⟩ := by
  obtain ⟨v', hv, hrest⟩ := h.modm v m hm
  have hbytes := beBytes_beNat v'.bytes
  rw [v'.length_eq, hrest] at hbytes
  rw [hv]
  exact congrArg some (Buffer.ext hbytes.symm)

/-- What the round does: the salt is hashed, and `sk` is the candidate it gives. -/
def keygenNext (sdk : BlsSdk) (l : Keygen) : Keygen :=
  let salt := sdk.cxHashSha256 (l.salt.bytes.take l.saltSize)
  let prk := sdk.cxHkdfExtract l.ikm.bytes salt.bytes
  let value := beNat (sdk.cxHkdfExpand prk.bytes lBytes lConst).bytes % beNat r
  { l with salt, saltSize := 32, prk, sk := ⟨beBytes lConst value, beBytes_length _ _⟩ }

theorem keygenRound_eq {sdk : BlsSdk} (hsdk : sdk.Computes) (l : Keygen) :
    keygenRound sdk l = .ok (keygenNext sdk l) := by
  have hr : beNat r ≠ 0 := by decide
  simp only [keygenRound, hsdk.modm_eq _ hr, Buffer.memmove_all, keygenNext]

/-- The salt of the draft is what lies in the first `saltSize` bytes of the array. -/
structure Keygen.AtRound (sdk : BlsSdk) (seed : List UInt8) (k : Nat) (l : Keygen) : Prop where
  salt : l.salt.bytes.take l.saltSize = keyGenSalt sdk k
  ikm : l.ikm.bytes = seed ++ beBytes 1 0

theorem keygenNext_atRound {sdk : BlsSdk} {seed : List UInt8} {k : Nat} {l : Keygen}
    (h : l.AtRound sdk seed k) : (keygenNext sdk l).AtRound sdk seed (k + 1) where
  salt := by
    have hfull := (sdk.cxHashSha256 (keyGenSalt sdk k)).length_eq
    rw [keyGenSalt, Function.iterate_succ_apply']
    simp only [keygenNext, h.salt]
    exact List.take_of_length_le (by omega)
  ikm := h.ikm

theorem keygenNext_sk {sdk : BlsSdk} {seed : List UInt8} {k : Nat} {l : Keygen}
    (h : l.AtRound sdk seed k) :
    (keygenNext sdk l).sk.bytes = beBytes 48 (keyGenValue sdk seed (k + 1)) := by
  have hl : lBytes = beBytes 2 48 := rfl
  have hsalt := (keygenNext_atRound h).salt
  have hfull := (sdk.cxHashSha256 (l.salt.bytes.take l.saltSize)).length_eq
  have hall : (sdk.cxHashSha256 (l.salt.bytes.take l.saltSize)).bytes = keyGenSalt sdk (k + 1) := by
    rw [← hsalt]
    exact (List.take_of_length_le (by show _ ≤ 32; omega)).symm
  simp only [keygenNext, hall, h.ikm, hl, lConst]
  rfl

theorem keygenNext_iterate {sdk : BlsSdk} {seed : List UInt8} {l : Keygen}
    (h : l.AtRound sdk seed 0) (k : Nat) : ((keygenNext sdk)^[k] l).AtRound sdk seed k := by
  induction k with
  | zero => exact h
  | succ k ih =>
    rw [Function.iterate_succ_apply']
    exact keygenNext_atRound ih

/-! ## The loop -/

/-- The state in front of the loop. -/
def Keygen.start (uninitialised : Keygen) (seed : List UInt8) : Keygen :=
  { uninitialised with
    salt := initialSalt
    saltSize := 20
    ikm := (uninitialised.ikm.memmove 0 seed).memmove seedLength [0] }

theorem start_atRound (sdk : BlsSdk) (uninitialised : Keygen) {seed : List UInt8}
    (h : seed.length = seedLength) : (uninitialised.start seed).AtRound sdk seed 0 where
  salt := rfl
  ikm := by
    have hzero : ([0] : List UInt8) = beBytes 1 0 := rfl
    have hlen : (seed ++ [0]).length = seedLength + 1 := by
      rw [List.length_append, h]
      rfl
    have hmove := Buffer.memmove_memmove uninitialised.ikm seed [0] (Nat.le_of_eq hlen)
    rw [h] at hmove
    rw [Keygen.start, hmove, Buffer.memmove_bytes _ _ (Nat.le_of_eq hlen),
      List.drop_eq_nil_of_le (by rw [hlen, Buffer.length_eq]), List.append_nil, hzero]

theorem blsKeygen_eq {n : Nat} (sdk : BlsSdk) (uninitialised : Keygen) (fuel : Nat)
    {seed : List UInt8} (dst : Buffer n) (hn : blsKeyLength ≤ n) (h : seed.length = seedLength) :
    blsKeygen sdk uninitialised fuel seed dst =
      (doWhile (keygenRound sdk) (fun l => sdk.cxMathIsZero l.sk) fuel
        (uninitialised.start seed)).map
        fun l => l.map fun l => dst.memmove 0 ((l.sk.bytes.drop 16).take 32) := by
  rw [blsKeygen, if_neg (by omega), if_neg (by simp [h])]
  rfl

/-- The loop goes on after the `k`-th round exactly if the number of that round is zero. -/
theorem iterate_isZero_iff {sdk : BlsSdk} (hsdk : sdk.Computes) {seed : List UInt8} {l : Keygen}
    (h : l.AtRound sdk seed 0) {k : Nat} (hk : 1 ≤ k) :
    sdk.cxMathIsZero ((keygenNext sdk)^[k] l).sk = false ↔ keyGenValue sdk seed k ≠ 0 := by
  obtain ⟨k, rfl⟩ : ∃ j, k = j + 1 := ⟨k - 1, by omega⟩
  have hsk := keygenNext_sk (keygenNext_iterate h k)
  have hlt := keyGenValue_lt sdk seed (k + 1)
  have hr : beNat r < 256 ^ 48 := by decide
  rw [Function.iterate_succ_apply', ← Bool.not_eq_true, hsdk.isZero, hsk, beNat_beBytes,
    Nat.mod_eq_of_lt (by omega)]

/-- What lies behind the first 16 bytes of `sk` is the number that the round gives. -/
theorem iterate_sk {sdk : BlsSdk} {seed : List UInt8} {l : Keygen} (h : l.AtRound sdk seed 0)
    {k : Nat} (hk : 1 ≤ k) :
    (((keygenNext sdk)^[k] l).sk.bytes.drop 16).take 32 = beBytes 32 (keyGenValue sdk seed k) := by
  obtain ⟨k, rfl⟩ : ∃ j, k = j + 1 := ⟨k - 1, by omega⟩
  rw [Function.iterate_succ_apply', keygenNext_sk (keygenNext_iterate h k), drop_beBytes 16 32,
    List.take_of_length_le (Nat.le_of_eq (beBytes_length _ _))]

/-- With enough fuel the loop ends in the first round whose number is not zero, and the 32 bytes of
that number are written. -/
theorem blsKeygen_eq_some_iff {sdk : BlsSdk} (hsdk : sdk.Computes) {n : Nat}
    (uninitialised : Keygen) (fuel : Nat) (seed : List UInt8) (dst dst' : Buffer n) :
    blsKeygen sdk uninitialised fuel seed dst = .ok (some dst') ↔
      32 ≤ n ∧ seed.length = 32 ∧ ∃ k ≤ fuel,
        IsLeast {k | 1 ≤ k ∧ keyGenValue sdk seed k ≠ 0} k ∧
        dst'.bytes = beBytes 32 (keyGenValue sdk seed k) ++ dst.bytes.drop 32 := by
  by_cases hn : n < blsKeyLength
  · rw [blsKeygen, if_pos hn]
    have hn' : ¬ 32 ≤ n := Nat.not_le.mpr hn
    simp [hn']
  by_cases hs : seed.length ≠ seedLength
  · rw [blsKeygen, if_neg hn, if_pos hs]
    have hs' : ¬ seed.length = 32 := hs
    simp [hs']
  have hn' : 32 ≤ n := Nat.not_lt.mp hn
  have hs' : seed.length = 32 := not_not.mp hs
  have hstart := start_atRound sdk uninitialised hs'
  have hset : {k | 1 ≤ k ∧
        sdk.cxMathIsZero ((keygenNext sdk)^[k] (uninitialised.start seed)).sk = false} =
      {k | 1 ≤ k ∧ keyGenValue sdk seed k ≠ 0} := by
    ext k
    exact and_congr_right fun hk => iterate_isZero_iff hsdk hstart hk
  have hloop := @doWhile_eq_some_iff _ _ _ (fun l : Keygen => sdk.cxMathIsZero l.sk) _
    (keygenRound_eq hsdk) fuel (uninitialised.start seed)
  rw [hset] at hloop
  have hbytes : ∀ k, (dst.memmove 0 (beBytes 32 (keyGenValue sdk seed k))).bytes =
      beBytes 32 (keyGenValue sdk seed k) ++ dst.bytes.drop 32 := by
    intro k
    rw [Buffer.memmove_bytes _ _ (by rw [beBytes_length]; exact hn'), beBytes_length]
  rw [blsKeygen_eq sdk uninitialised fuel dst hn' hs']
  constructor
  · intro h
    cases hl : doWhile (keygenRound sdk) (fun l => sdk.cxMathIsZero l.sk) fuel
      (uninitialised.start seed) with
    | error e =>
      rw [hl] at h
      cases h
    | ok l =>
      cases l with
      | none =>
        rw [hl] at h
        cases h
      | some l =>
        rw [hl] at h
        obtain ⟨k, hk, hleast, rfl⟩ := (hloop l).mp hl
        cases h
        refine ⟨hn', hs', k, hk, hleast, ?_⟩
        simp only [iterate_sk hstart hleast.1.1, hbytes]
  · rintro ⟨_, _, k, hk, hleast, hdst⟩
    rw [(hloop _).mpr ⟨k, hk, hleast, rfl⟩]
    have hdst' : dst' = dst.memmove 0 (beBytes 32 (keyGenValue sdk seed k)) :=
      Buffer.ext (by rw [hdst, hbytes])
    rw [hdst', ← iterate_sk hstart hleast.1.1]
    rfl

/-- The keys that the application derives are those of the draft. -/
theorem Sdk.blsKey_iff {sdk : Sdk} (hsdk : sdk.bls.Computes) (seed key : List UInt8) :
    sdk.blsKey seed = .ok key ↔
      seed.length = 32 ∧ ∃ k ≤ sdk.keygenRounds,
        IsLeast {k | 1 ≤ k ∧ keyGenValue sdk.bls seed k ≠ 0} k ∧
        key = beBytes 32 (keyGenValue sdk.bls seed k) := by
  have hiff := blsKeygen_eq_some_iff hsdk Keygen.zero sdk.keygenRounds seed (Buffer.zero 32)
  have hdrop : (Buffer.zero 32).bytes.drop 32 = [] := rfl
  simp only [hdrop, List.append_nil] at hiff
  have hkey : sdk.blsKey seed = .ok key ↔
      ∃ dst', blsKeygen sdk.bls Keygen.zero sdk.keygenRounds seed (Buffer.zero 32) =
        .ok (some dst') ∧ dst'.bytes = key := by
    unfold Sdk.blsKey
    cases blsKeygen sdk.bls Keygen.zero sdk.keygenRounds seed (Buffer.zero 32) with
    | error e =>
      constructor
      · intro h
        cases h
      · rintro ⟨_, h, _⟩
        cases h
    | ok dst =>
      cases dst with
      | none =>
        constructor
        · intro h
          cases h
        · rintro ⟨_, h, _⟩
          cases h
      | some dst =>
        constructor
        · intro h
          exact ⟨dst, rfl, Except.ok.inj h⟩
        · rintro ⟨_, ⟨⟩, hdst⟩
          exact congrArg Except.ok hdst
  rw [hkey]
  constructor
  · rintro ⟨dst', hok, rfl⟩
    exact ((hiff dst').mp hok).2
  · rintro ⟨hs, k, hk, hleast, rfl⟩
    exact ⟨⟨_, beBytes_length _ _⟩, (hiff _).mpr ⟨Nat.le_refl 32, hs, k, hk, hleast, rfl⟩, rfl⟩

/-- With enough fuel the loop ends in the first round whose number is not zero, and the 32 bytes of
that number are written; with less fuel, and where there is no such round, it does not end. -/
theorem blsKeygen_stops_iff {sdk : BlsSdk} (hsdk : sdk.Computes) {n : Nat}
    (uninitialised : Keygen) (fuel : Nat) (seed : List UInt8) (dst dst' : Buffer n) :
    blsKeygen sdk uninitialised fuel seed dst = .ok (some dst') ↔
      32 ≤ n ∧ seed.length = 32 ∧ ∃ k ≤ fuel,
        IsLeast {k | 1 ≤ k ∧ keyGenValue sdk seed k ≠ 0} k ∧
        dst'.bytes = beBytes 32 (keyGenValue sdk seed k) ++ dst.bytes.drop 32 ∧
        beNat (beBytes 32 (keyGenValue sdk seed k)) = keyGenValue sdk seed k ∧
        0 < keyGenValue sdk seed k ∧ keyGenValue sdk seed k < beNat r := by
  rw [blsKeygen_eq_some_iff hsdk]
  have hr : beNat r < 256 ^ 32 := by decide
  refine and_congr_right fun _ => and_congr_right fun _ => exists_congr fun k =>
    and_congr_right fun _ => and_congr_right fun hleast => ?_
  have hlt := keyGenValue_lt sdk seed k
  have hvalue : beNat (beBytes 32 (keyGenValue sdk seed k)) = keyGenValue sdk seed k := by
    rw [beNat_beBytes, Nat.mod_eq_of_lt (by omega)]
  constructor
  · intro hdst
    exact ⟨hdst, hvalue, Nat.pos_of_ne_zero hleast.1.2, hlt⟩
  · rintro ⟨hdst, _⟩
    exact hdst

/-- A seed of zeroes, where every round gives the number 1. -/
theorem blsKeygen_stops_one :
    ∃ dst' : Buffer 32,
      blsKeygen oneBlsSdk Keygen.zero 1 (List.replicate 32 0) (Buffer.zero 32) = .ok (some dst') ∧
      dst'.bytes = beBytes 32 1 ∧
      IsLeast {k | 1 ≤ k ∧ keyGenValue oneBlsSdk (List.replicate 32 0) k ≠ 0} 1 := by
  have hvalue : keyGenValue oneBlsSdk (List.replicate 32 0) 1 = 1 := by decide
  have hleast : IsLeast {k | 1 ≤ k ∧ keyGenValue oneBlsSdk (List.replicate 32 0) k ≠ 0} 1 :=
    ⟨⟨Nat.le_refl 1, by rw [hvalue]; decide⟩, fun k hk => hk.1⟩
  refine ⟨⟨beBytes 32 1, beBytes_length _ _⟩, ?_, rfl, hleast⟩
  refine (blsKeygen_stops_iff oneBlsSdk_computes Keygen.zero 1 _ _ _).mpr
    ⟨Nat.le_refl 32, List.length_replicate, 1, Nat.le_refl 1, hleast, ?_, ?_⟩
  · rw [hvalue]
    rfl
  · rw [hvalue]
    decide

end ConcordiumLedger
