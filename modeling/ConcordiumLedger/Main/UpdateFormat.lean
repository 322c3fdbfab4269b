import ConcordiumLedger.Lib.Encoding
import ConcordiumLedger.Lib.Transition
import ConcordiumLedger.Main.SignCredentialDeployment

/-!
# Main.UpdateFormat

The format of an update of credentials, as bytes and as the commands that bring them.

* `Credential`, `Update` — what an update says, with the bounds of its lengths.
* `Piece`, `Update.pieces` — a command with what it hashes, and those of an update.
* `Awaits`, `next` — reads the pieces one after the other, counting down as the lists need.
* `Completes.update` — pieces that are read to the end are those of an update.
-/

namespace ConcordiumLedger

open CMem Transition

namespace SignCredentialDeployment

/-! ## The format -/

structure Attribute where
  tag : UInt8
  value : List UInt8
  value_length : value.length < 2 ^ 8

structure Credential where
  keys : List (List UInt8)
  signatureThreshold : UInt8
  regId : List UInt8
  ipIdentity : List UInt8
  arThreshold : UInt8
  arIdentities : List (List UInt8)
  dates : List UInt8
  attributes : List Attribute
  proofs : List UInt8
  keys_length : keys.length < 2 ^ 8
  key_length : ∀ key ∈ keys, key.length = 34
  regId_length : regId.length = 48
  ipIdentity_length : ipIdentity.length = 4
  arIdentities_length : arIdentities.length < 2 ^ 16
  arIdentity_length : ∀ ar ∈ arIdentities, ar.length = 100
  dates_length : dates.length = 6
  attributes_length : attributes.length < 2 ^ 16
  proofs_length : proofs.length < 2 ^ 32

/-- The new credentials with their indices, the ids of those removed, and the new threshold. -/
structure Update where
  header : List UInt8
  credentials : List (UInt8 × Credential)
  removed : List (List UInt8)
  threshold : UInt8
  header_length : header.length = 60
  credentials_length : credentials.length < 2 ^ 8
  removed_length : removed.length < 2 ^ 8
  id_length : ∀ id ∈ removed, id.length = 48

def Attribute.bytes (a : Attribute) : List UInt8 := [a.tag] ++ beBytes 1 a.value.length ++ a.value

def Credential.bytes (c : Credential) : List UInt8 :=
  beBytes 1 c.keys.length ++ c.keys.flatten ++ [c.signatureThreshold] ++ c.regId ++ c.ipIdentity ++
    [c.arThreshold] ++ beBytes 2 c.arIdentities.length ++ c.arIdentities.flatten ++ c.dates ++
    beBytes 2 c.attributes.length ++ c.attributes.flatMap Attribute.bytes ++
    beBytes 4 c.proofs.length ++ c.proofs

def Update.bytes (u : Update) : List UInt8 :=
  u.header ++ [updateCredentials] ++ beBytes 1 u.credentials.length ++
    u.credentials.flatMap (fun c => c.1 :: c.2.bytes) ++
    beBytes 1 u.removed.length ++ u.removed.flatten ++ [u.threshold]

/-! ## The commands -/

inductive Command where
  /-- A command of the update, by its P2. -/
  | update (p2 : UInt8)
  /-- A packet of a credential, by its P1. -/
  | credential (p1 : UInt8)
deriving DecidableEq

/-- A command, and what it hashes. -/
structure Piece where
  command : Command
  bytes : List UInt8
deriving DecidableEq

/-- The proofs as their packets bring them: 255 bytes in each but the last one. -/
def proofChunks (proofs : List UInt8) : List (List UInt8) :=
  if maxCdataLength < proofs.length then
    proofs.take maxCdataLength :: proofChunks (proofs.drop maxCdataLength)
  else [proofs]
termination_by proofs.length
decreasing_by
  rw [List.length_drop, maxCdataLength]
  omega

def Attribute.pieces (a : Attribute) : List Piece :=
  [ ⟨.credential p1AttributeTag, [a.tag] ++ beBytes 1 a.value.length⟩,
    ⟨.credential p1AttributeValue, a.value⟩ ]

def Credential.pieces (c : Credential) : List Piece :=
  ⟨.credential p1VerificationKeyLength, beBytes 1 c.keys.length⟩ ::
    c.keys.map (.mk (.credential p1VerificationKey)) ++
  ⟨.credential p1SignatureThreshold, [c.signatureThreshold] ++ c.regId ++ c.ipIdentity ++
      [c.arThreshold] ++ beBytes 2 c.arIdentities.length⟩ ::
    c.arIdentities.map (.mk (.credential p1ArIdentity)) ++
  ⟨.credential p1CredentialDates, c.dates ++ beBytes 2 c.attributes.length⟩ ::
    c.attributes.flatMap Attribute.pieces ++
  ⟨.credential p1LengthOfProofs, beBytes 4 c.proofs.length⟩ ::
    (proofChunks c.proofs).map (.mk (.credential p1Proofs))

/-- A new credential, after its index. -/
def indexed (c : UInt8 × Credential) : List Piece :=
  ⟨.update p2CredentialCredentialIndex, [c.1]⟩ :: c.2.pieces

/-- What the first command hashes. -/
def initialPiece (header : List UInt8) (count : Nat) : Piece :=
  ⟨.update p2CredentialInitial, header ++ [updateCredentials] ++ beBytes 1 count⟩

def Update.pieces (u : Update) : List Piece :=
  initialPiece u.header u.credentials.length :: u.credentials.flatMap indexed ++
  ⟨.update p2CredentialIdCount, beBytes 1 u.removed.length⟩ ::
    u.removed.map (.mk (.update p2CredentialId)) ++
  [⟨.update p2Threshold, [u.threshold]⟩]

/-! ### The commands bring the bytes -/

theorem flatMap_bytes_map (command : Command) (bs : List (List UInt8)) :
    (bs.map (Piece.mk command)).flatMap Piece.bytes = bs.flatten := by
  rw [List.flatMap_map, ← List.flatMap_id']

theorem proofChunks_flatten (proofs : List UInt8) : (proofChunks proofs).flatten = proofs := by
  induction proofs using proofChunks.induct with
  | case1 proofs h ih => rw [proofChunks, if_pos h, List.flatten_cons, ih, List.take_append_drop]
  | case2 proofs h => rw [proofChunks, if_neg h, List.flatten_singleton]

theorem proofChunks_append {chunk proofs : List UInt8} (h : chunk.length = maxCdataLength)
    (hmore : maxCdataLength < (chunk ++ proofs).length) :
    proofChunks (chunk ++ proofs) = chunk :: proofChunks proofs := by
  rw [proofChunks, if_pos hmore, List.take_left' h, List.drop_left' h]

theorem Attribute.pieces_bytes (as : List Attribute) :
    (as.flatMap Attribute.pieces).flatMap Piece.bytes = as.flatMap Attribute.bytes := by
  rw [List.flatMap_assoc]
  congr
  funext a
  simp [Attribute.pieces, Attribute.bytes]

theorem Credential.pieces_bytes (c : Credential) :
    c.pieces.flatMap Piece.bytes = c.bytes := by
  simp only [Credential.pieces, Credential.bytes, List.flatMap_append, List.flatMap_cons,
    flatMap_bytes_map, Attribute.pieces_bytes, proofChunks_flatten, List.append_assoc]

theorem Update.pieces_bytes (u : Update) : u.pieces.flatMap Piece.bytes = u.bytes := by
  have hcredentials : (u.credentials.flatMap indexed).flatMap Piece.bytes =
      u.credentials.flatMap fun c => c.1 :: c.2.bytes := by
    rw [List.flatMap_assoc]
    congr
    funext c
    rw [indexed, List.flatMap_cons, Credential.pieces_bytes, List.singleton_append]
  simp only [Update.pieces, Update.bytes, initialPiece, List.flatMap_append, List.flatMap_cons,
    List.flatMap_nil, List.append_nil, hcredentials, flatMap_bytes_map, List.append_assoc]

/-! ## Reading the commands -/

/-- What comes next. The first number counts the credentials after the one at hand, the second one
what is left of a list. -/
inductive Awaits where
  | index (more : Nat)
  | keysLength (more : Nat)
  | keys (more left : Nat)
  | arIdentities (more left : Nat)
  | attributes (more left : Nat)
  | value (more left length : Nat)
  | proofs (more left : Nat)
  | idCount
  | ids (left : Nat)
  | nothing
deriving DecidableEq

namespace Awaits

/-- After a credential. -/
def after : Nat → Awaits
  | 0 => .idCount
  | more + 1 => .index more

end Awaits

namespace Piece

/-- Leads to `s` if the piece is of the command, with the number of bytes. -/
def expect (p : Piece) (command : Command) (length : Nat) (s : Awaits) : Option Awaits :=
  if p.command = command ∧ p.bytes.length = length then some s else none

theorem expect_eq_some {p : Piece} {command : Command} {length : Nat} {s s' : Awaits} :
    p.expect command length s = some s' ↔
      p.command = command ∧ p.bytes.length = length ∧ s = s' := by
  unfold expect
  constructor
  · intro h
    split at h
    · rename_i hp
      exact ⟨hp.1, hp.2, Option.some.inj h⟩
    · cases h
  · rintro ⟨hc, hl, rfl⟩
    exact if_pos ⟨hc, hl⟩

end Piece

def Awaits.next : Awaits → Piece → Option Awaits
  | .index more, p => p.expect (.update p2CredentialCredentialIndex) 1 (.keysLength more)
  | .keysLength more, p =>
    p.expect (.credential p1VerificationKeyLength) 1 (.keys more (beNat p.bytes))
  | .keys more (left + 1), p => p.expect (.credential p1VerificationKey) 34 (.keys more left)
  | .keys more 0, p => p.expect (.credential p1SignatureThreshold) 56
      (.arIdentities more (beNat (p.bytes.drop 54)))
  | .arIdentities more (left + 1), p =>
    p.expect (.credential p1ArIdentity) 100 (.arIdentities more left)
  | .arIdentities more 0, p => p.expect (.credential p1CredentialDates) 8
      (.attributes more (beNat (p.bytes.drop 6)))
  | .attributes more (left + 1), p => p.expect (.credential p1AttributeTag) 2
      (.value more left (beNat (p.bytes.drop 1)))
  | .attributes more 0, p =>
    p.expect (.credential p1LengthOfProofs) 4 (.proofs more (beNat p.bytes))
  | .value more left length, p =>
    p.expect (.credential p1AttributeValue) length (.attributes more left)
  | .proofs more left, p =>
    if maxCdataLength < left then
      p.expect (.credential p1Proofs) maxCdataLength (.proofs more (left - maxCdataLength))
    else p.expect (.credential p1Proofs) left (.after more)
  | .idCount, p => p.expect (.update p2CredentialIdCount) 1 (.ids (beNat p.bytes))
  | .ids (left + 1), p => p.expect (.update p2CredentialId) 48 (.ids left)
  | .ids 0, p => p.expect (.update p2Threshold) 1 .nothing
  | .nothing, _ => none

/-- The pieces lead from `s` to the end. -/
def Completes (s : Awaits) (ps : List Piece) : Prop := exec Awaits.next s ps = some .nothing

/-! ### What leads to the end -/

namespace Completes

variable {s : Awaits} {ps : List Piece} {more left : Nat}

theorem cons (h : Completes s ps) (hs : s ≠ .nothing) :
    ∃ p rest s', ps = p :: rest ∧ s.next p = some s' ∧ Completes s' rest := by
  cases ps with
  | nil => exact absurd (Option.some.inj h) hs
  | cons p rest =>
    obtain ⟨s', hs', hrest⟩ := Option.bind_eq_some_iff.mp h
    exact ⟨p, rest, s', rfl, hs', hrest⟩

/-- A piece that only one command can bring. -/
theorem expect {command : Command} {length : Nat} {f : Piece → Awaits} (h : Completes s ps)
    (hs : s ≠ .nothing) (hnext : ∀ p, s.next p = p.expect command length (f p)) :
    ∃ bytes rest, bytes.length = length ∧ ps = ⟨command, bytes⟩ :: rest ∧
      Completes (f ⟨command, bytes⟩) rest := by
  obtain ⟨⟨c, bytes⟩, rest, s', rfl, hp, hrest⟩ := h.cons hs
  rw [hnext] at hp
  obtain ⟨rfl, hlen, rfl⟩ := Piece.expect_eq_some.mp hp
  exact ⟨bytes, rest, hlen, rfl, hrest⟩

/-- A list of items of one length. -/
theorem items {command : Command} {length : Nat} {f : Nat → Awaits}
    (hf : ∀ left, f left ≠ .nothing)
    (hnext : ∀ left p, (f (left + 1)).next p = p.expect command length (f left))
    (h : Completes (f left) ps) :
    ∃ (items : List (List UInt8)) (rest : List Piece), items.length = left ∧
      (∀ item ∈ items, item.length = length) ∧ ps = items.map (.mk command) ++ rest ∧
      Completes (f 0) rest := by
  induction left generalizing ps with
  | zero => exact ⟨[], ps, rfl, by simp, rfl, h⟩
  | succ left ih =>
    obtain ⟨item, rest, hlen, rfl, hrest⟩ := h.expect (hf _) (hnext left)
    obtain ⟨items, rest', hcount, hitems, rfl, hrest'⟩ := ih hrest
    refine ⟨item :: items, rest', by rw [List.length_cons, hcount], ?_, rfl, hrest'⟩
    intro i hi
    rcases List.mem_cons.mp hi with rfl | hi
    · exact hlen
    · exact hitems i hi

/-- Bytes of a fixed length, cut in two. -/
theorem split_bytes {bytes : List UInt8} {m n : Nat} (h : bytes.length = m + n) :
    ∃ a b, bytes = a ++ b ∧ a.length = m ∧ b.length = n :=
  ⟨bytes.take m, bytes.drop m, (List.take_append_drop m bytes).symm,
    List.length_take_of_le (by omega), by rw [List.length_drop]; omega⟩

theorem eq_beBytes {bytes : List UInt8} {k n : Nat} (hlen : bytes.length = k)
    (h : n = beNat bytes) : bytes = beBytes k n := by
  rw [h, ← hlen, beBytes_beNat]

theorem eq_singleton {bytes : List UInt8} (h : bytes.length = 1) : ∃ b, bytes = [b] :=
  List.length_eq_one_iff.mp h

/-- The attributes, a tag and a value each. -/
theorem attributes (h : Completes (.attributes more left) ps) :
    ∃ (as : List Attribute) (rest : List Piece), as.length = left ∧
      ps = as.flatMap Attribute.pieces ++ rest ∧ Completes (.attributes more 0) rest := by
  induction left generalizing ps with
  | zero => exact ⟨[], ps, rfl, rfl, h⟩
  | succ left ih =>
    obtain ⟨head, _, hhead, rfl, htail⟩ := h.expect (by simp) fun _ => rfl
    obtain ⟨tag, len, rfl, htag, hlen⟩ := split_bytes (m := 1) (n := 1) hhead
    obtain ⟨tag, rfl⟩ := eq_singleton htag
    obtain ⟨value, _, hvalue, rfl, hmore⟩ := htail.expect (by simp) fun _ => rfl
    obtain ⟨as, rest, hcount, rfl, hrest⟩ := ih hmore
    have hvalue : value.length = beNat len := hvalue
    have hlt := beNat_lt len
    rw [hlen] at hlt
    let a : Attribute := ⟨tag, value, by rw [hvalue]; exact hlt⟩
    refine ⟨a :: as, rest, by rw [List.length_cons, hcount], ?_, hrest⟩
    rw [eq_beBytes hlen hvalue]
    rfl

/-- The proofs. -/
theorem proofs (h : Completes (.proofs more left) ps) :
    ∃ (proofs : List UInt8) (rest : List Piece), proofs.length = left ∧
      ps = (proofChunks proofs).map (.mk (.credential p1Proofs)) ++ rest ∧
      Completes (.after more) rest := by
  induction left using Nat.strong_induction_on generalizing ps with
  | h left ih =>
    by_cases hmore : maxCdataLength < left
    · obtain ⟨chunk, _, hchunk, rfl, htail⟩ := h.expect (by simp)
        fun _ => by rw [Awaits.next, if_pos hmore]
      have hless : left - maxCdataLength < left := Nat.sub_lt (by omega) (by decide)
      obtain ⟨proofs, rest, hcount, rfl, hrest⟩ := ih _ hless htail
      have hlen : (chunk ++ proofs).length = left := by
        rw [List.length_append, hchunk, hcount]
        omega
      refine ⟨chunk ++ proofs, rest, hlen, ?_, hrest⟩
      rw [proofChunks_append hchunk (by rw [hlen]; exact hmore)]
      rfl
    · obtain ⟨chunk, rest, hchunk, rfl, hrest⟩ := h.expect (f := fun _ => .after more) (by simp)
        fun _ => by rw [Awaits.next, if_neg hmore]
      refine ⟨chunk, rest, hchunk, ?_, hrest⟩
      rw [proofChunks, if_neg (by rw [hchunk]; exact hmore)]
      rfl

/-- A credential. -/
theorem credential (h : Completes (.keysLength more) ps) :
    ∃ (c : Credential) (rest : List Piece), ps = c.pieces ++ rest ∧
      Completes (.after more) rest := by
  obtain ⟨count, ps₁, hcount, rfl, h₁⟩ := h.expect (by simp) fun _ => rfl
  obtain ⟨keys, ps₂, hkeys, hkey, rfl, h₂⟩ := h₁.items (f := .keys more) (by simp) fun _ _ => rfl
  obtain ⟨thresholds, ps₃, ht, rfl, h₃⟩ := h₂.expect (by simp) fun _ => rfl
  obtain ⟨ars, ps₄, hars, har, rfl, h₄⟩ :=
    h₃.items (f := .arIdentities more) (by simp) fun _ _ => rfl
  obtain ⟨valid, ps₅, hvalid, rfl, h₅⟩ := h₄.expect (by simp) fun _ => rfl
  obtain ⟨as, ps₆, has, rfl, h₆⟩ := h₅.attributes
  obtain ⟨length, ps₇, hlength, rfl, h₇⟩ := h₆.expect (by simp) fun _ => rfl
  obtain ⟨proofs, rest, hproofs, rfl, hrest⟩ := h₇.proofs
  -- the packets that have several fields
  obtain ⟨fields, total, rfl, hfields, htotal⟩ := split_bytes (m := 54) (n := 2) ht
  obtain ⟨dates, number, rfl, hdates, hnumber⟩ := split_bytes (m := 6) (n := 2) hvalid
  have hkeys : keys.length = beNat count := hkeys
  have htotals : ars.length = beNat total := hars.trans (congrArg beNat (List.drop_left' hfields))
  have hnumbers : as.length = beNat number := has.trans (congrArg beNat (List.drop_left' hdates))
  obtain ⟨signatureThreshold, b₁, rfl, hs, hb₁⟩ := split_bytes (m := 1) (n := 53) hfields
  obtain ⟨signatureThreshold, rfl⟩ := eq_singleton hs
  obtain ⟨regId, b₂, rfl, hregId, hb₂⟩ := split_bytes (m := 48) (n := 5) hb₁
  obtain ⟨ipIdentity, b₃, rfl, hip, hb₃⟩ := split_bytes (m := 4) (n := 1) hb₂
  obtain ⟨arThreshold, rfl⟩ := eq_singleton hb₃
  have hproofs : proofs.length = beNat length := hproofs
  have hlt {bytes : List UInt8} {n k : Nat} (hlen : bytes.length = k) (h : n = beNat bytes) :
      n < 256 ^ k := by
    rw [h, ← hlen]
    exact beNat_lt bytes
  let c : Credential := {
    keys, signatureThreshold, regId, ipIdentity, arThreshold
    arIdentities := ars
    dates
    attributes := as
    proofs
    keys_length := hlt hcount hkeys
    key_length := hkey
    regId_length := hregId
    ipIdentity_length := hip
    arIdentities_length := hlt htotal htotals
    arIdentity_length := har
    dates_length := hdates
    attributes_length := hlt hnumber hnumbers
    proofs_length := hlt hlength hproofs }
  refine ⟨c, rest, ?_, hrest⟩
  rw [eq_beBytes hcount hkeys, eq_beBytes htotal htotals, eq_beBytes hnumber hnumbers,
    eq_beBytes hlength hproofs]
  simp [c, Credential.pieces]

/-- The credentials that are left, the first of them with its index. -/
theorem credentials {count : Nat} (h : Completes (.after count) ps) :
    ∃ (cs : List (UInt8 × Credential)) (rest : List Piece), cs.length = count ∧
      ps = cs.flatMap indexed ++ rest ∧ Completes .idCount rest := by
  induction count generalizing ps with
  | zero => exact ⟨[], ps, rfl, rfl, h⟩
  | succ count ih =>
    obtain ⟨index, _, hindex, rfl, hcredential⟩ :=
      expect (s := .index count) h (by simp) fun _ => rfl
    obtain ⟨index, rfl⟩ := eq_singleton hindex
    obtain ⟨c, _, rfl, hmore⟩ := hcredential.credential
    obtain ⟨cs, rest, hcount, rfl, hrest⟩ := ih hmore
    refine ⟨(index, c) :: cs, rest, by rw [List.length_cons, hcount], ?_, hrest⟩
    simp [indexed]

theorem nothing (h : Completes .nothing ps) : ps = [] := by
  cases ps with
  | nil => rfl
  | cons p rest => cases h

/-- The pieces after the first one, which announces the number of credentials, are those of an
update. -/
theorem update {count : Nat} {header : List UInt8} (hheader : header.length = 60)
    (hcount : count < 2 ^ 8) (h : Completes (.after count) ps) :
    ∃ u : Update, u.header = header ∧ initialPiece header count :: ps = u.pieces := by
  obtain ⟨cs, ps₁, hcs, rfl, h₁⟩ := h.credentials
  obtain ⟨number, ps₂, hnumber, rfl, h₂⟩ := h₁.expect (by simp) fun _ => rfl
  obtain ⟨ids, ps₃, hids, hid, rfl, h₃⟩ := h₂.items (f := .ids) (by simp) fun _ _ => rfl
  obtain ⟨threshold, ps₄, ht, rfl, h₄⟩ := h₃.expect (f := fun _ => .nothing) (by simp) fun _ => rfl
  obtain ⟨threshold, rfl⟩ := eq_singleton ht
  obtain rfl := h₄.nothing
  have hids : ids.length = beNat number := hids
  have hlt := beNat_lt number
  rw [hnumber] at hlt
  let u : Update := {
    header
    credentials := cs
    removed := ids
    threshold
    header_length := hheader
    credentials_length := by rw [hcs]; exact hcount
    removed_length := by rw [hids]; exact hlt
    id_length := hid }
  refine ⟨u, rfl, ?_⟩
  rw [eq_beBytes hnumber hids, ← hcs]
  simp [u, Update.pieces]

end Completes

end SignCredentialDeployment

end ConcordiumLedger
