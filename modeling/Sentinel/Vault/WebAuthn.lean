import Sentinel.Lib.Cbor
import Sentinel.Vault.RecoveryCode

/-!
# Attestation of passkeys

`crates/core/src/vault/webauthn.rs` with the keys of `passkey.rs`: what a registration hands a
relying party. The writer of CBOR is the source's own; it is compared with the items of `Cbor`, which
knows nothing of it. Base64, P-256 and SHA-256 are parameters.

`AuthData` is the authenticator data by its parts, the credential's key as the item it decodes to.
Every part but the credential id has a fixed length and the id's stands before it, so the parts are
known from the bytes (`AuthData.layout_unique`).
-/

namespace Sentinel.Vault

open Wire

/-! ## The writer -/

/-- `AAGUID`. -/
def aaguid : Bytes := List.replicate 16 0

def flagUp : UInt8 := 0x01
def flagUv : UInt8 := 0x04
def flagAt : UInt8 := 0x40

/-- `to_be_bytes`. -/
def toBeBytes (k n : Nat) : Bytes := Cbor.beBytes k n

def cborHead (out : Bytes) (major : UInt8) (arg : UInt64) : Bytes :=
  let mt := major <<< 5
  if arg < 24 then out ++ [mt ||| arg.toUInt8]
  else if arg < 0x100 then out ++ [mt ||| 24] ++ [arg.toUInt8]
  else if arg < 0x10000 then out ++ [mt ||| 25] ++ toBeBytes 2 arg.toUInt16.toNat
  else if arg < 0x100000000 then out ++ [mt ||| 26] ++ toBeBytes 4 arg.toUInt32.toNat
  else out ++ [mt ||| 27] ++ toBeBytes 8 arg.toNat

def cborInt (out : Bytes) (v : Int64) : Bytes :=
  if v < 0 then cborHead out 1 (-1 - v).toUInt64 else cborHead out 0 v.toUInt64

def cborBytes (out b : Bytes) : Bytes := cborHead out 2 (UInt64.ofNat b.length) ++ b

def cborText (out : Bytes) (s : String) : Bytes :=
  cborHead out 3 (UInt64.ofNat (Utf8.bytes s).length) ++ Utf8.bytes s

def cborMapHead (out : Bytes) (entries : UInt64) : Bytes := cborHead out 5 entries

/-- The COSE key of an ES256 public key. -/
def coseEs256Key (sec1 : Bytes) : Except CoreError Bytes :=
  if sec1.length ≠ 65 ∨ sec1[0]? ≠ some 0x04 then
    .error (.format "passkey public key" "expected 65-byte uncompressed SEC1 point")
  else
    let x := (sec1.drop 1).take 32
    let y := (sec1.drop 33).take 32
    let out := cborMapHead [] 5
    let out := cborInt out 1
    let out := cborInt out 2
    let out := cborInt out 3
    let out := cborInt out (-7)
    let out := cborInt out (-1)
    let out := cborInt out 1
    let out := cborInt out (-2)
    let out := cborBytes out x
    let out := cborInt out (-3)
    let out := cborBytes out y
    .ok out

/-- `aaguid(16) || credIdLen(2 BE) || credId || cosePublicKey`. -/
def attestedCredentialData (credId coseKey : Bytes) : Bytes :=
  aaguid ++ toBeBytes 2 (UInt16.ofNat credId.length).toNat ++ credId ++ coseKey

def attestationObject (authData : Bytes) : Bytes :=
  let out := cborMapHead [] 3
  let out := cborText out "fmt"
  let out := cborText out "none"
  let out := cborText out "attStmt"
  let out := cborMapHead out 0
  let out := cborText out "authData"
  cborBytes out authData

section Registration

variable (standardDecode urlSafeDecode : String → Option Bytes)
variable (encodedPoint : Bytes → Option Bytes) (sha256 : Bytes → Digest32)

/-- `passkey::public_key_sec1` over `signing_key`; `encodedPoint` is the point of a scalar. -/
def publicKeySec1 (pk : Passkey) : Except CoreError Bytes :=
  match standardDecode pk.privateKey with
  | none => .error (.format "passkey private key" "not valid base64")
  | some raw =>
      if raw.length ≠ 32 then
        .error (.format "passkey private key" s!"expected 32 bytes, got {raw.length}")
      else
        match encodedPoint raw with
        | none => .error (.format "passkey private key" "not a valid P-256 scalar")
        | some point => .ok point

def rpIdHash (rpId : String) : Digest32 := sha256 (Utf8.bytes rpId)

/-- `rpIdHash(32) || flags(1) || signCount(4 BE) || [attestedCredentialData]`. -/
def authenticatorData (rpId : String) (flags : UInt8) (signCount : UInt32)
    (attested : Option Bytes) : Bytes :=
  let d := (rpIdHash sha256 rpId).bytes ++ [flags] ++ toBeBytes 4 signCount.toNat
  match attested with
  | some a => d ++ a
  | none => d

def credentialIdBytes (pk : Passkey) : Except CoreError Bytes :=
  match urlSafeDecode pk.credentialId with
  | some b => .ok b
  | none => .error (.format "passkey credential id" "not valid base64url")

/-- The authenticator data and the attestation object of a new passkey. -/
def registrationAttestation (pk : Passkey) : Except CoreError (Bytes × Bytes) := do
  let sec1 ← publicKeySec1 standardDecode encodedPoint pk
  let cose ← coseEs256Key sec1
  let credId ← credentialIdBytes urlSafeDecode pk
  let acd := attestedCredentialData credId cose
  let authData := authenticatorData sha256 pk.rpId (flagUp ||| flagUv ||| flagAt)
    (UInt32.ofNat pk.signCount) (some acd)
  .ok (authData, attestationObject authData)

end Registration

/-! ## Heads and integers -/

theorem cborHead_byte {major arg : Nat} (few : major < 8) (small : arg < 32) :
    UInt8.ofNat major <<< 5 ||| UInt8.ofNat arg = UInt8.ofNat (32 * major + arg) := by
  have every : ∀ major < 8, ∀ arg < 32,
      UInt8.ofNat major <<< 5 ||| UInt8.ofNat arg = UInt8.ofNat (32 * major + arg) := by
    decide
  exact every major few arg small

theorem toUInt8_eq_ofNat (arg : UInt64) : arg.toUInt8 = UInt8.ofNat arg.toNat := by
  apply UInt8.toNat_inj.mp
  rw [UInt64.toNat_toUInt8, UInt8.toNat_ofNat']

theorem beBytes_one (n : Nat) : Cbor.beBytes 1 n = [UInt8.ofNat n] := by
  have same : UInt8.ofNat (n % 256) = UInt8.ofNat n := by
    apply UInt8.toNat_inj.mp
    rw [UInt8.toNat_ofNat', UInt8.toNat_ofNat', Nat.mod_mod]
  exact congrArg (fun b => [b]) same

/-- `cbor_head` writes the shortest head. -/
theorem cborHead_eq {major : UInt8} (few : major < 8) (out : Bytes) (arg : UInt64) :
    cborHead out major arg = out ++ Cbor.encodeHead major.toNat arg.toNat := by
  have few : major.toNat < 8 := UInt8.lt_iff_toNat_lt.mp few
  have first : ∀ low < 32,
      major <<< 5 ||| UInt8.ofNat low = UInt8.ofNat (32 * major.toNat + low) := by
    intro low small
    have byte := cborHead_byte few small
    rwa [UInt8.ofNat_toNat] at byte
  have least : arg < 24 ↔ arg.toNat < 24 := UInt64.lt_iff_toNat_lt
  have one : arg < 0x100 ↔ arg.toNat < 2 ^ 8 := UInt64.lt_iff_toNat_lt
  have two : arg < 0x10000 ↔ arg.toNat < 2 ^ 16 := UInt64.lt_iff_toNat_lt
  have four : arg < 0x100000000 ↔ arg.toNat < 2 ^ 32 := UInt64.lt_iff_toNat_lt
  rw [cborHead, Cbor.encodeHead]
  by_cases small : arg.toNat < 24
  · rw [if_pos (least.mpr small), if_pos small, toUInt8_eq_ofNat, first _ (by omega)]
  · rw [if_neg (fun lt => small (least.mp lt)), if_neg small]
    by_cases small : arg.toNat < 2 ^ 8
    · rw [if_pos (one.mpr small), if_pos small, beBytes_one, toUInt8_eq_ofNat, List.append_assoc]
      exact congrArg (fun b => out ++ (b :: [UInt8.ofNat arg.toNat])) (first 24 (by norm_num))
    · rw [if_neg (fun lt => small (one.mp lt)), if_neg small]
      by_cases small : arg.toNat < 2 ^ 16
      · have whole : arg.toUInt16.toNat = arg.toNat := by
          rw [UInt64.toNat_toUInt16, Nat.mod_eq_of_lt small]
        rw [if_pos (two.mpr small), if_pos small, whole, List.append_assoc]
        exact congrArg (fun b => out ++ (b :: Cbor.beBytes 2 arg.toNat)) (first 25 (by norm_num))
      · rw [if_neg (fun lt => small (two.mp lt)), if_neg small]
        by_cases small : arg.toNat < 2 ^ 32
        · have whole : arg.toUInt32.toNat = arg.toNat := by
            rw [UInt64.toNat_toUInt32, Nat.mod_eq_of_lt small]
          rw [if_pos (four.mpr small), if_pos small, whole, List.append_assoc]
          exact congrArg (fun b => out ++ (b :: Cbor.beBytes 4 arg.toNat)) (first 26 (by norm_num))
        · rw [if_neg (fun lt => small (four.mp lt)), if_neg small, List.append_assoc]
          exact congrArg (fun b => out ++ (b :: Cbor.beBytes 8 arg.toNat)) (first 27 (by norm_num))

theorem toNat_toUInt64 {v : Int64} (natural : 0 ≤ v.toInt) :
    v.toUInt64.toNat = v.toInt.toNat := by
  have bits : v.toInt = v.toBitVec.toInt := rfl
  have same : v.toUInt64.toNat = v.toBitVec.toNat := rfl
  have small := v.toBitVec.isLt
  rw [bits] at natural ⊢
  rw [same]
  rw [BitVec.toInt_eq_toNat_cond] at natural ⊢
  split at natural <;> omega

theorem toInt_complement {v : Int64} (below : v.toInt < 0) :
    (-1 - v).toInt = -1 - v.toInt := by
  have low := v.le_toInt
  have one : (-1 : Int64).toInt = -1 := rfl
  rw [Int64.toInt_sub, one]
  exact Int.bmod_eq_of_le (by omega) (by omega)

/-- `cbor_int` writes the integer. -/
theorem cborInt_eq (out : Bytes) (v : Int64) :
    cborInt out v = out ++ Cbor.encode (.int v.toInt) := by
  have sign : v < 0 ↔ v.toInt < 0 := Int64.lt_iff_toInt_lt
  rw [cborInt, Cbor.encode]
  by_cases below : v.toInt < 0
  · have value := toInt_complement below
    have whole := toNat_toUInt64 (v := -1 - v) (by omega)
    rw [if_pos (sign.mpr below), if_pos below, cborHead_eq (by decide), whole, value]
    rfl
  · have whole := toNat_toUInt64 (v := v) (by omega)
    rw [if_neg (fun lt => below (sign.mp lt)), if_neg below, cborHead_eq (by decide), whole]
    rfl

theorem cborBytes_eq {b : Bytes} (fits : b.length < 2 ^ 64) (out : Bytes) :
    cborBytes out b = out ++ Cbor.encode (.bytes b) := by
  rw [cborBytes, cborHead_eq (by decide), UInt64.toNat_ofNat_of_lt' fits, List.append_assoc]
  rfl

theorem cborText_eq {s : String} (fits : (Utf8.bytes s).length < 2 ^ 64) (out : Bytes) :
    cborText out s = out ++ Cbor.encode (.text s) := by
  rw [cborText, cborHead_eq (by decide), UInt64.toNat_ofNat_of_lt' fits, List.append_assoc]
  rfl

/-! ## The two maps -/

/-- The COSE key of a point on P-256. -/
def coseItem (x y : Bytes) : Cbor.Item :=
  .map [(.int 1, .int 2), (.int 3, .int (-7)), (.int (-1), .int 1), (.int (-2), .bytes x),
    (.int (-3), .bytes y)]

/-- The attestation object on authenticator data, with no statement. -/
def attestationItem (authData : Bytes) : Cbor.Item :=
  .map [(.text "fmt", .text "none"), (.text "attStmt", .map []),
    (.text "authData", .bytes authData)]

theorem coseItem_sorted : [Cbor.encode (.int 1), Cbor.encode (.int 3), Cbor.encode (.int (-1)),
    Cbor.encode (.int (-2)), Cbor.encode (.int (-3))].Pairwise Cbor.KeyBefore := by
  decide

theorem attestationItem_sorted : [Cbor.encode (.text "fmt"), Cbor.encode (.text "attStmt"),
    Cbor.encode (.text "authData")].Pairwise Cbor.KeyBefore := by
  decide

theorem length_keys : (Utf8.bytes "fmt").length = 3 ∧ (Utf8.bytes "none").length = 4 ∧
    (Utf8.bytes "attStmt").length = 7 ∧ (Utf8.bytes "authData").length = 8 :=
  ⟨rfl, rfl, rfl, rfl⟩

theorem coseItem_canonical (x y : Bytes) : Cbor.Canonical (coseItem x y) := by
  rw [coseItem, Cbor.Canonical]
  refine ⟨coseItem_sorted, ?_⟩
  simp only [Cbor.CanonicalPairs, Cbor.CanonicalPair, Cbor.Canonical, and_self]

theorem attestationItem_canonical (authData : Bytes) :
    Cbor.Canonical (attestationItem authData) := by
  rw [attestationItem, Cbor.Canonical]
  refine ⟨attestationItem_sorted, ?_⟩
  simp only [Cbor.CanonicalPairs, Cbor.CanonicalPair, Cbor.Canonical, Cbor.Sorted, List.map_nil,
    List.Pairwise.nil, and_self]

theorem coseItem_fits {x y : Bytes} (left : x.length = 32) (right : y.length = 32) :
    Cbor.Fits (coseItem x y) := by
  simp only [coseItem, Cbor.Fits, Cbor.FitPairs, Cbor.FitPair, left, right]
  norm_num

theorem attestationItem_fits {authData : Bytes} (fits : authData.length < 2 ^ 64) :
    Cbor.Fits (attestationItem authData) := by
  obtain ⟨fmt, none', attStmt, authDataKey⟩ := length_keys
  simp only [attestationItem, Cbor.Fits, Cbor.FitPairs, Cbor.FitPair, fmt, none', attStmt,
    authDataKey, fits]
  norm_num

theorem coseEs256Key_eq {sec1 : Bytes} (length : sec1.length = 65)
    (uncompressed : sec1[0]? = some 0x04) :
    coseEs256Key sec1 =
      .ok (Cbor.encode (coseItem ((sec1.drop 1).take 32) ((sec1.drop 33).take 32))) := by
  have left : ((sec1.drop 1).take 32).length < 2 ^ 64 := by
    rw [List.length_take]
    omega
  have right : ((sec1.drop 33).take 32).length < 2 ^ 64 := by
    rw [List.length_take]
    omega
  have accepted : ¬(sec1.length ≠ 65 ∨ sec1[0]? ≠ some 0x04) := by
    rintro (wrong | wrong)
    · exact wrong length
    · exact wrong uncompressed
  rw [coseEs256Key, if_neg accepted]
  simp only [cborBytes_eq left, cborBytes_eq right, cborInt_eq, cborMapHead,
    cborHead_eq (show (5 : UInt8) < 8 by decide), List.append_assoc, List.nil_append]
  simp only [coseItem, Cbor.encode, Cbor.encodePairs, Cbor.encodePair, List.append_assoc,
    List.append_nil]
  rfl

theorem attestationObject_eq {authData : Bytes} (fits : authData.length < 2 ^ 64) :
    attestationObject authData = Cbor.encode (attestationItem authData) := by
  obtain ⟨three, four, seven, eight⟩ := length_keys
  have fmt : (Utf8.bytes "fmt").length < 2 ^ 64 := by omega
  have none' : (Utf8.bytes "none").length < 2 ^ 64 := by omega
  have attStmt : (Utf8.bytes "attStmt").length < 2 ^ 64 := by omega
  have authDataKey : (Utf8.bytes "authData").length < 2 ^ 64 := by omega
  rw [attestationObject]
  simp only [cborText_eq fmt, cborText_eq none', cborText_eq attStmt, cborText_eq authDataKey,
    cborBytes_eq fits, cborMapHead, cborHead_eq (show (5 : UInt8) < 8 by decide),
    List.append_assoc, List.nil_append]
  simp only [attestationItem, Cbor.encode, Cbor.encodePairs, Cbor.encodePair, List.append_assoc,
    List.append_nil]
  rfl

/-! ## Authenticator data -/

/-- Authenticator data with a credential, by its parts. -/
structure AuthData where
  rpIdHash : Digest32
  flags : UInt8
  counter : UInt32
  aaguid : Bytes
  credId : Bytes
  cose : Cbor.Item

/-- These bytes split into these parts, the key read to the last byte. -/
def AuthData.Layout (parts : AuthData) (d : Bytes) : Prop :=
  parts.aaguid.length = 16 ∧ parts.credId.length < 2 ^ 16 ∧
    ∃ coseKey, Cbor.decodeAll coseKey = some parts.cose ∧
      d = parts.rpIdHash.bytes ++ ([parts.flags] ++ (toBeBytes 4 parts.counter.toNat ++
        (parts.aaguid ++ (toBeBytes 2 parts.credId.length ++ (parts.credId ++ coseKey)))))

theorem toBeBytes_inj {k m n : Nat} (left : m < 256 ^ k) (right : n < 256 ^ k)
    (same : toBeBytes k m = toBeBytes k n) : m = n := by
  have values := congrArg Cbor.beNat same
  rwa [toBeBytes, toBeBytes, Cbor.beNat_beBytes left, Cbor.beNat_beBytes right] at values

/-- The parts are known from the bytes. -/
theorem AuthData.layout_unique {p q : AuthData} {d : Bytes} (first : p.Layout d)
    (second : q.Layout d) : p = q := by
  obtain ⟨zeros, short, coseKey, read, layout⟩ := first
  obtain ⟨zeros', short', coseKey', read', layout'⟩ := second
  obtain ⟨hash, rest⟩ := List.append_inj (layout.symm.trans layout')
    (p.rpIdHash.length.trans q.rpIdHash.length.symm)
  obtain ⟨flags, rest⟩ := List.append_inj rest rfl
  obtain ⟨counter, rest⟩ := List.append_inj rest
    ((Cbor.length_beBytes _ _).trans (Cbor.length_beBytes _ _).symm)
  obtain ⟨ids, rest⟩ := List.append_inj rest (zeros.trans zeros'.symm)
  obtain ⟨size, rest⟩ := List.append_inj rest
    ((Cbor.length_beBytes _ _).trans (Cbor.length_beBytes _ _).symm)
  have same := toBeBytes_inj (k := 2) short short' size
  obtain ⟨credId, key'⟩ := List.append_inj rest same
  have counter := UInt32.toNat_inj.mp
    (toBeBytes_inj (k := 4) p.counter.toNat_lt q.counter.toNat_lt counter)
  have flags := List.singleton_inj.mp flags
  have cose : p.cose = q.cose := by
    rw [key', read'] at read
    exact Option.some.inj read.symm
  obtain ⟨⟨hashBytes, hashLength⟩, _, _, _, _, _⟩ := p
  obtain ⟨⟨hashBytes', hashLength'⟩, _, _, _, _, _⟩ := q
  cases hash
  cases flags
  cases counter
  cases ids
  cases credId
  cases cose
  rfl

section Registration

variable (standardDecode urlSafeDecode : String → Option Bytes)
variable (encodedPoint : Bytes → Option Bytes) (sha256 : Bytes → Digest32)

/-- The parts of what a registration attests. -/
def registered (pk : Passkey) (sec1 credId : Bytes) : AuthData where
  rpIdHash := sha256 (Utf8.bytes pk.rpId)
  flags := 0x45
  counter := UInt32.ofNat pk.signCount
  aaguid := List.replicate 16 0
  credId := credId
  cose := coseItem ((sec1.drop 1).take 32) ((sec1.drop 33).take 32)

/-- The authenticator data of a registration. -/
def registeredData (pk : Passkey) (sec1 credId : Bytes) : Bytes :=
  authenticatorData sha256 pk.rpId (flagUp ||| flagUv ||| flagAt) (UInt32.ofNat pk.signCount)
    (some (attestedCredentialData credId
      (Cbor.encode (coseItem ((sec1.drop 1).take 32) ((sec1.drop 33).take 32)))))

variable {pk : Passkey} {sec1 credId : Bytes}

theorem registered_layout (pk : Passkey) (length : sec1.length = 65) (short : credId.length ≤ 65535) :
    (registered sha256 pk sec1 credId).Layout
      (registeredData sha256 pk sec1 credId) := by
  have left : ((sec1.drop 1).take 32).length = 32 := by
    rw [List.length_take, List.length_drop, length]
    rfl
  have right : ((sec1.drop 33).take 32).length = 32 := by
    rw [List.length_take, List.length_drop, length]
    rfl
  have whole : (UInt16.ofNat credId.length).toNat = credId.length :=
    UInt16.toNat_ofNat_of_lt' (Nat.lt_succ_of_le short)
  refine ⟨rfl, Nat.lt_succ_of_le short, _, Cbor.decodeAll_encode (coseItem_fits left right), ?_⟩
  rw [registeredData, authenticatorData, attestedCredentialData, whole]
  simp only [List.append_assoc]
  rfl

theorem length_coseKey {x y : Bytes} (left : x.length = 32) (right : y.length = 32) :
    (Cbor.encode (coseItem x y)).length = 77 := by
  simp only [coseItem, Cbor.encode, Cbor.encodePairs, Cbor.encodePair, List.length_append, left,
    right]
  rfl

theorem length_registeredData (pk : Passkey) (length : sec1.length = 65) (short : credId.length ≤ 65535) :
    (registeredData sha256 pk sec1 credId).length < 2 ^ 64 := by
  have left : ((sec1.drop 1).take 32).length = 32 := by
    rw [List.length_take, List.length_drop, length]
    rfl
  have right : ((sec1.drop 33).take 32).length = 32 := by
    rw [List.length_take, List.length_drop, length]
    rfl
  have hash := (rpIdHash sha256 pk.rpId).length
  rw [registeredData, authenticatorData, attestedCredentialData]
  simp only [List.length_append, List.length_singleton, hash, toBeBytes, Cbor.length_beBytes,
    aaguid, List.length_replicate, length_coseKey left right]
  omega

theorem registrationAttestation_eq
    (point : publicKeySec1 standardDecode encodedPoint pk = .ok sec1)
    (length : sec1.length = 65) (uncompressed : sec1[0]? = some 0x04)
    (id : credentialIdBytes urlSafeDecode pk = .ok credId) (short : credId.length ≤ 65535) :
    registrationAttestation standardDecode urlSafeDecode encodedPoint sha256 pk =
      .ok (registeredData sha256 pk sec1 credId,
        Cbor.encode (attestationItem (registeredData sha256 pk sec1 credId))) := by
  have fits := length_registeredData sha256 pk length short
  rw [← attestationObject_eq fits]
  simp only [registrationAttestation, point, id, coseEs256Key_eq length uncompressed, bind,
    Except.bind, registeredData]

/-- A registration of a passkey with an uncompressed point and an id of 16 bits is an attestation
object in canonical CBOR, and its authenticator data is the parts of the passkey and no other; every
head is the shortest and every integer reads back. -/
theorem attestation_canonical (point : publicKeySec1 standardDecode encodedPoint pk = .ok sec1)
    (length : sec1.length = 65) (uncompressed : sec1[0]? = some 0x04)
    (id : credentialIdBytes urlSafeDecode pk = .ok credId) (short : credId.length ≤ 65535) :
    (∃ authData att, registrationAttestation standardDecode urlSafeDecode encodedPoint sha256 pk =
        .ok (authData, att) ∧
      Cbor.decodeAll att = some (attestationItem authData) ∧
      att = Cbor.encode (attestationItem authData) ∧
      Cbor.Canonical (attestationItem authData) ∧
      Cbor.Canonical (registered sha256 pk sec1 credId).cose ∧
      ∀ parts : AuthData, parts.Layout authData ↔ parts = registered sha256 pk sec1 credId) ∧
    (∀ (major : UInt8) (arg : UInt64) (rest : Bytes), major < 8 →
      Cbor.decodeHead (cborHead [] major arg ++ rest) = some (major.toNat, arg.toNat, rest) ∧
        ∀ b, Cbor.decodeHead b = some (major.toNat, arg.toNat, rest) →
          (cborHead [] major arg ++ rest).length ≤ b.length) ∧
    ∀ (v : Int64) (rest : Bytes),
      Cbor.decode 1 (cborInt [] v ++ rest) = some (.int v.toInt, rest) := by
  refine ⟨?_, ?_, ?_⟩
  · have fits := length_registeredData sha256 pk length short
    have layout := registered_layout sha256 pk length short
    have returned := registrationAttestation_eq standardDecode urlSafeDecode encodedPoint sha256
      point length uncompressed id short
    refine ⟨_, _, returned, Cbor.decodeAll_encode (attestationItem_fits fits), rfl,
      attestationItem_canonical _, coseItem_canonical _ _, ?_⟩
    intro parts
    constructor
    · intro split
      exact AuthData.layout_unique split layout
    · rintro rfl
      exact layout
  · intro major arg rest few
    have small : major.toNat < 8 := UInt8.lt_iff_toNat_lt.mp few
    rw [cborHead_eq few, List.nil_append]
    refine ⟨Cbor.decodeHead_encodeHead small arg.toNat_lt rest, ?_⟩
    intro b read
    rw [List.length_append]
    exact Cbor.encodeHead_shortest read
  · intro v rest
    have low := v.le_toInt
    have high := v.toInt_lt
    rw [cborInt_eq, List.nil_append]
    exact Cbor.decode_int (by omega) (by omega) 0 rest

end Registration

/-! A passkey whose scalar is 1, so that its key is the generator of the curve. -/

namespace UnitScalar

def passkey : Passkey where
  rpId := "example.com"
  rpName := none
  userName := "alice"
  userDisplayName := none
  userHandle := "AQIDBA"
  credentialId := "AAECAwQFBgcICQoLDA0ODw"
  privateKey := "AAAAAAAAAAAAAAAAAAAAAAAAAAAAAAAAAAAAAAAAAAE="
  algorithm := -7
  signCount := 0

def scalar : Bytes := List.replicate 31 0 ++ [1]

def generator : Bytes :=
  [0x04,
    0x6b, 0x17, 0xd1, 0xf2, 0xe1, 0x2c, 0x42, 0x47, 0xf8, 0xbc, 0xe6, 0xe5, 0x63, 0xa4, 0x40,
    0xf2, 0x77, 0x03, 0x7d, 0x81, 0x2d, 0xeb, 0x33, 0xa0, 0xf4, 0xa1, 0x39, 0x45, 0xd8, 0x98,
    0xc2, 0x96,
    0x4f, 0xe3, 0x42, 0xe2, 0xfe, 0x1a, 0x7f, 0x9b, 0x8e, 0xe7, 0xeb, 0x4a, 0x7c, 0x0f, 0x9e,
    0x16, 0x2b, 0xce, 0x33, 0x57, 0x6b, 0x31, 0x5e, 0xce, 0xcb, 0xb6, 0x40, 0x68, 0x37, 0xbf,
    0x51, 0xf5]

def credId : Bytes := (List.range 16).map UInt8.ofNat

def standardDecode (s : String) : Option Bytes :=
  if s = passkey.privateKey then some scalar else none

def urlSafeDecode (s : String) : Option Bytes :=
  if s = passkey.credentialId then some credId else none

def encodedPoint (b : Bytes) : Option Bytes :=
  if b = scalar then some generator else none

def sha256 (b : Bytes) : Digest32 :=
  if b = Utf8.bytes "example.com" then
    ⟨[0xa3, 0x79, 0xa6, 0xf6, 0xee, 0xaf, 0xb9, 0xa5, 0x5e, 0x37, 0x8c, 0x11, 0x80, 0x34, 0xe2,
      0x75, 0x1e, 0x68, 0x2f, 0xab, 0x9f, 0x2d, 0x30, 0xab, 0x13, 0xd2, 0x12, 0x55, 0x86, 0xce,
      0x19, 0x47], rfl⟩
  else ⟨List.replicate 32 0, rfl⟩

end UnitScalar

theorem attestation_canonical_unitScalar :
    ∃ authData att, registrationAttestation UnitScalar.standardDecode UnitScalar.urlSafeDecode
        UnitScalar.encodedPoint UnitScalar.sha256 UnitScalar.passkey = .ok (authData, att) ∧
      Cbor.decodeAll att = some (attestationItem authData) ∧
      (registered UnitScalar.sha256 UnitScalar.passkey UnitScalar.generator
        UnitScalar.credId).Layout authData := by
  have point : publicKeySec1 UnitScalar.standardDecode UnitScalar.encodedPoint UnitScalar.passkey =
      .ok UnitScalar.generator := rfl
  have id : credentialIdBytes UnitScalar.urlSafeDecode UnitScalar.passkey =
      .ok UnitScalar.credId := rfl
  obtain ⟨⟨authData, att, returned, read, -, -, -, parts⟩, -, -⟩ :=
    attestation_canonical UnitScalar.standardDecode UnitScalar.urlSafeDecode
      UnitScalar.encodedPoint UnitScalar.sha256 point rfl rfl id (by decide)
  exact ⟨authData, att, returned, read, (parts _).mpr rfl⟩

end Sentinel.Vault
