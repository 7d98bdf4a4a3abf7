import Mathlib

/-!
# Sealed items

`crates/core/src/vault/envelope.rs`: an item is sealed as
`0x01 | item_id(16) | updated_at i64 LE (8) | nonce(24) | ct`, where the first 25 bytes are
the associated data. The store and the merge read only those 25 bytes (`envelopeMeta`).

The key derivation, the AEAD and the serializer of items are third-party code: `Crypto`
collects them, `Crypto.Correct` says what the round trip needs of them.
-/

namespace Sentinel.Vault

abbrev Bytes := List UInt8

/-- The variants of `error::CoreError` that the vault produces. -/
inductive CoreError where
  | decrypt
  | format (what detail : String)
  | state (what : String)
  | io (detail : String)
  | serde (detail : String)
  | storage (detail : String)
  deriving DecidableEq, Repr

/-- The little-endian bytes of a number, `k` of them. -/
def leBytes : Nat → Nat → Bytes
  | 0, _ => []
  | k + 1, n => UInt8.ofNat (n % 256) :: leBytes k (n / 256)

/-- The number with these little-endian bytes. -/
def leNat : Bytes → Nat
  | [] => 0
  | b :: bs => b.toNat + 256 * leNat bs

@[simp] theorem length_leBytes (k n : Nat) : (leBytes k n).length = k := by
  induction k generalizing n with
  | zero => rfl
  | succ k ih => rw [leBytes, List.length_cons, ih]

theorem leNat_leBytes (k n : Nat) : leNat (leBytes k n) = n % 256 ^ k := by
  induction k generalizing n with
  | zero => rw [leBytes, leNat, pow_zero, Nat.mod_one]
  | succ k ih =>
      have byte : (UInt8.ofNat (n % 256)).toNat = n % 256 := by
        rw [UInt8.toNat_ofNat']
        omega
      rw [leBytes, leNat, ih, byte, pow_succ', Nat.mod_mul]

theorem leNat_lt (b : Bytes) : leNat b < 256 ^ b.length := by
  induction b with
  | nil => exact Nat.one_pos
  | cons x b ih =>
      have byte := x.toNat_lt
      rw [leNat, List.length_cons, pow_succ]
      omega

/-- `i64::to_le_bytes`. -/
def i64ToLe (n : Int) : Bytes := leBytes 8 (n % 2 ^ 64).toNat

/-- `i64::from_le_bytes`. -/
def i64FromLe (b : Bytes) : Int := Int.bmod (leNat b) (2 ^ 64)

theorem leNat_i64ToLe (n : Int) : (leNat (i64ToLe n) : Int) = n % 2 ^ 64 := by
  have nonneg : 0 ≤ n % 2 ^ 64 := Int.emod_nonneg n (by norm_num)
  have small : (n % 2 ^ 64).toNat < 256 ^ 8 := by
    have := Int.emod_lt_of_pos n (b := 2 ^ 64) (by norm_num)
    omega
  rw [i64ToLe, leNat_leBytes, Nat.mod_eq_of_lt small, Int.toNat_of_nonneg nonneg]

theorem bmod_of_emod {n : Int} (low : -(2 ^ 63) ≤ n) (high : n < 2 ^ 63) {m : Nat}
    (h : (m : Int) = n % 2 ^ 64) : Int.bmod m (2 ^ 64) = n := by
  rw [Int.bmod_def]
  split <;> omega

theorem i64FromLe_i64ToLe {n : Int} (low : -(2 ^ 63) ≤ n) (high : n < 2 ^ 63) :
    i64FromLe (i64ToLe n) = n :=
  bmod_of_emod low high (leNat_i64ToLe n)

/-- `uuid::Uuid` as its sixteen bytes. -/
structure ItemId where
  bytes : Bytes
  length : bytes.length = 16
  deriving DecidableEq, Repr

/-- A key of 32 bytes. -/
abbrev Key32 := Bytes

abbrev VaultKey := Key32

@[ext] structure Nonce24 where
  bytes : Bytes
  length : bytes.length = 24
  deriving DecidableEq, Repr

/-- The purposes of `hkdf32` that the vault and its wrappers use. -/
inductive Info where
  | vaultItem | vaultOuter | wrapRecovery | authLogin
  deriving DecidableEq, Repr

/-- `model::ItemType`. -/
inductive ItemType where
  | login | note | card | identity | passkey
  deriving DecidableEq, Repr

inductive UrlMode where
  | domain | host
  deriving DecidableEq, Repr

structure UrlMatch where
  url : String
  mode : UrlMode
  deriving DecidableEq, Repr

structure CustomField where
  name : String
  value : String
  isSecret : Bool
  deriving DecidableEq, Repr

structure Login where
  username : Option String := none
  password : Option String := none
  totp : Option String := none
  deriving DecidableEq, Repr

structure Card where
  cardholder : Option String := none
  number : Option String := none
  brand : Option String := none
  expMonth : Option Nat := none
  expYear : Option Nat := none
  cvv : Option String := none
  deriving DecidableEq, Repr

structure Identity where
  fullName : Option String := none
  email : Option String := none
  phone : Option String := none
  address : Option String := none
  deriving DecidableEq, Repr

structure Passkey where
  rpId : String
  rpName : Option String
  userName : String
  userDisplayName : Option String
  userHandle : String
  credentialId : String
  privateKey : String
  algorithm : Int
  signCount : Nat
  deriving Repr

/-- `model::Item`: the plaintext of an item. -/
structure Item where
  id : ItemId
  itemType : ItemType
  title : String
  tags : List String
  urls : List UrlMatch
  notes : Option String
  customFields : List CustomField
  login : Option Login
  card : Option Card
  identity : Option Identity
  passkey : Option Passkey
  createdAt : Int
  updatedAt : Int
  passwordChangedAt : Option Int
  deriving Repr

/-- The third-party code under the envelope. -/
structure Crypto where
  hkdf32 : Bytes → Option Bytes → Info → Key32
  aeadSeal : Key32 → Bytes → Nonce24 → Bytes → Bytes
  aeadOpen : Key32 → Bytes → Nonce24 → Bytes → Option Bytes
  itemToJson : Item → Except String Bytes
  itemFromJson : Bytes → Except String Item

/-- What the round trips need: the AEAD opens what it sealed and appends a tag of
sixteen bytes, and the serializer loses nothing. -/
structure Crypto.Correct (c : Crypto) : Prop where
  open_seal : ∀ key aad nonce pt, c.aeadOpen key aad nonce (c.aeadSeal key aad nonce pt) = some pt
  seal_length : ∀ key aad nonce pt, (c.aeadSeal key aad nonce pt).length = pt.length + 16
  item_json : ∀ item json, c.itemToJson item = .ok json → c.itemFromJson json = .ok item

/-- A sealed item: the bytes stored per row in the local vault. -/
structure ItemEnvelope where
  bytes : Bytes
  deriving DecidableEq, Repr

/-- The first 25 bytes of an envelope. -/
def itemHeader (id : ItemId) (updatedAt : Int) : Bytes := 0x01 :: (id.bytes ++ i64ToLe updatedAt)

@[simp] theorem length_itemHeader (id : ItemId) (updatedAt : Int) :
    (itemHeader id updatedAt).length = 25 := by
  simp [itemHeader, i64ToLe, id.length]

def itemKey (c : Crypto) (vk : VaultKey) (id : ItemId) : Key32 :=
  c.hkdf32 vk (some id.bytes) .vaultItem

/-- `seal_item`; the nonce is the one the random source gave. -/
def sealItem (c : Crypto) (vk : VaultKey) (nonce : Nonce24) (item : Item) :
    Except CoreError ItemEnvelope := do
  let plaintext ← (c.itemToJson item).mapError .serde
  let hdr := itemHeader item.id item.updatedAt
  pure ⟨hdr ++ nonce.bytes ++ c.aeadSeal (itemKey c vk item.id) hdr nonce plaintext⟩

/-- The id at bytes 1 to 16. -/
def idAt (b : Bytes) (long : 25 ≤ b.length) : ItemId :=
  ⟨(b.drop 1).take 16, by simp only [List.length_take, List.length_drop]; omega⟩

/-- The nonce at bytes 25 to 48. -/
def nonceAt (b : Bytes) (long : 49 ≤ b.length) : Nonce24 :=
  ⟨(b.drop 25).take 24, by simp only [List.length_take, List.length_drop]; omega⟩

/-- `open_item`. -/
def openItem (c : Crypto) (vk : VaultKey) (env : ItemEnvelope) : Except CoreError Item :=
  let b := env.bytes
  if long : 25 + 24 + 16 ≤ b.length then do
    if b.head? ≠ some 0x01 then
      throw (.format "item envelope" s!"unsupported version {b.head?.getD 0}")
    let id := idAt b (by omega)
    let pt ← (c.aeadOpen (itemKey c vk id) (b.take 25) (nonceAt b (by omega)) (b.drop 49)).elim
      (.error .decrypt) .ok
    let item ← (c.itemFromJson pt).mapError .serde
    -- bind the decoded item to the header
    if item.id ≠ id then throw (.format "item envelope" "item id mismatch")
    pure item
  else throw (.format "item envelope" "too short")

/-- `envelope_meta`: id and time from the header, without decrypting. -/
def envelopeMeta (env : ItemEnvelope) : Except CoreError (ItemId × Int) :=
  if long : 25 ≤ env.bytes.length then
    .ok (idAt env.bytes long, i64FromLe ((env.bytes.drop 17).take 8))
  else .error (.format "item envelope" "too short for meta")

theorem envelopeMeta_header {id : ItemId} {updatedAt : Int} (low : -(2 ^ 63) ≤ updatedAt)
    (high : updatedAt < 2 ^ 63) (rest : Bytes) :
    envelopeMeta ⟨itemHeader id updatedAt ++ rest⟩ = .ok (id, updatedAt) := by
  have long : 25 ≤ (itemHeader id updatedAt ++ rest).length := by
    rw [List.length_append, length_itemHeader]
    omega
  have time : ((itemHeader id updatedAt ++ rest).drop 17).take 8 = i64ToLe updatedAt := by
    have len : (i64ToLe updatedAt).length = 8 := length_leBytes 8 _
    rw [itemHeader, List.cons_append, List.drop_succ_cons, List.append_assoc,
      ← id.length, List.drop_left, ← len, List.take_left]
  have sixteen : idAt (itemHeader id updatedAt ++ rest) long = id := by
    simp only [idAt, itemHeader, List.cons_append, List.drop_succ_cons, List.drop_zero,
      List.append_assoc, ← id.length, List.take_left]
  rw [envelopeMeta, dif_pos long, time, i64FromLe_i64ToLe low high, sixteen]

/-- The header of a sealed item names the item's id and time. -/
theorem envelopeMeta_sealItem {c : Crypto} {vk : VaultKey} {nonce : Nonce24} {item : Item}
    {env : ItemEnvelope} (sealed_ : sealItem c vk nonce item = .ok env)
    (low : -(2 ^ 63) ≤ item.updatedAt) (high : item.updatedAt < 2 ^ 63) :
    envelopeMeta env = .ok (item.id, item.updatedAt) := by
  unfold sealItem at sealed_
  cases json : c.itemToJson item with
  | error e =>
      rw [json] at sealed_
      cases sealed_
  | ok pt =>
      rw [json] at sealed_
      cases sealed_
      rw [List.append_assoc]
      exact envelopeMeta_header low high _

end Sentinel.Vault
