import Sentinel.Desktop.Wrapper
import Sentinel.Phone.FileBlob
import Sentinel.Phone.VaultModels
import Sentinel.Vault.Sealed

/-!
# The phone's vault crypto

`apps/ios-key/NorthKey/Crypto/VaultCrypto.swift`: the wrapped key of a master password, the sync
blob and the item envelope on the phone. Key derivation and AEAD are those of the core.

`Platforms` is the third-party code of both programs: the primitives they share, and for each its
JSON text, its compressor and its text of ids. `Platforms.codec` is the core's part of it.
-/

namespace Sentinel.Phone

open Serial Vault

structure Platforms where
  hkdf32 : Bytes → Option Bytes → Info → Key32
  aeadSeal : Key32 → Bytes → Nonce24 → Bytes → Bytes
  aeadOpen : Key32 → Bytes → Nonce24 → Bytes → Option Bytes
  uuid : UuidText
  print : Side → Value → Except String Bytes
  parse : Side → Bytes → Except String Value
  /-- The message for a value of another shape. -/
  shape : Side → String
  compress : Side → Bytes → Except String Bytes
  decompress : Side → Bytes → Except String Bytes

namespace Platforms

variable (p : Platforms)

/-- `JSONDecoder.decode`, `serde_json::from_slice`. -/
def decode {α : Type} (reader : Side) (r : Reader α) (text : Bytes) : Except String α := do
  let v ← p.parse reader text
  (r.read v).elim (.error (p.shape reader)) .ok

/-- The core's codec. -/
def codec : Codec where
  hkdf32 := p.hkdf32
  aeadSeal := p.aeadSeal
  aeadOpen := p.aeadOpen
  itemToJson item := p.print .desktop (item.json p.uuid)
  itemFromJson := p.decode .desktop (Vault.itemReader p.uuid)
  compress := p.compress .desktop
  decompress := p.decompress .desktop
  documentToJson doc := p.print .desktop (doc.json p.uuid)
  documentFromJson := p.decode .desktop (Vault.documentReader p.uuid)

/-- Each side reads what either side wrote: JSON up to the order of members. -/
structure Lossless : Prop where
  uuid : p.uuid.Correct
  json : ∀ writer v, ∃ text, p.print writer v = .ok text ∧
    ∀ reader, ∃ w, p.parse reader text = .ok w ∧ w.canon = v.canon
  zstd : ∀ side b, ∃ z, p.compress side b = .ok z ∧ ∀ reader, p.decompress reader z = .ok b

variable {p}

/-- What a reader makes of a value it makes of its text. -/
theorem Lossless.decode_print (lossless : p.Lossless) {α : Type} {r : Reader α} {v : Value} {a : α}
    (read : r.read v = some a) {writer : Side} {text : Bytes} (written : p.print writer v = .ok text)
    (reader : Side) : p.decode reader r text = .ok a := by
  obtain ⟨text', written', parsed⟩ := lossless.json writer v
  rw [written, Except.ok.injEq] at written'
  subst written'
  obtain ⟨w, parse, same⟩ := parsed reader
  rw [decode, parse]
  change (r.read w).elim _ _ = _
  rw [r.read_congr same, read]
  rfl

theorem Lossless.decompress_compress (lossless : p.Lossless) {b z : Bytes} {side : Side}
    (packed : p.compress side b = .ok z) (reader : Side) : p.decompress reader z = .ok b := by
  obtain ⟨z', packed', unpacked⟩ := lossless.zstd side b
  rw [packed, Except.ok.injEq] at packed'
  subst packed'
  exact unpacked reader

end Platforms

namespace VaultCrypto

/-- What these functions throw. -/
inductive Failure where
  | crypto (e : VaultCryptoError)
  | json (message : String)
  deriving DecidableEq, Repr

/-! ## Wrapped vault key -/

/-- `passwordBlobSalt`. -/
def passwordBlobSalt (blob : Bytes) : Except Failure Bytes :=
  if blob.length = 8 + 16 + 24 + 48 ∧ blob.take 4 = Desktop.wrapMagic ∧ blob.getD 4 0 = 1 ∧
      blob.getD 5 0 = 4 ∧ (blob.getD 6 0).toNat ||| (blob.getD 7 0).toNat <<< 8 = 16 then
    .ok ((blob.drop 8).take 16)
  else .error (.crypto (.badFormat "wrapped key"))

/-- The nonce at bytes 24 to 47. -/
def wrappedNonceAt (b : Bytes) (long : 48 ≤ b.length) : Nonce24 :=
  ⟨(b.drop 24).take 24, by simp only [List.length_take, List.length_drop]; omega⟩

/-- `unwrapPasswordBlob` with a derived key. -/
def unwrapPasswordBlobKek (c : Crypto) (blob : Bytes) (kek : Key32) : Except Failure Bytes := do
  let _ ← passwordBlobSalt blob
  if long : 48 ≤ blob.length then
    match xchachaOpen c.aeadOpen kek (wrappedNonceAt blob long) (blob.drop 48) (blob.take 24) with
    | .ok vk => if vk.length = 32 then pure vk else throw (.crypto .wrongPassword)
    | .error _ => throw (.crypto .wrongPassword)
  else throw (.crypto .wrongPassword)

/-- `unwrapPasswordBlob` with a password. -/
def unwrapPasswordBlob (c : Desktop.Suite) (blob : Bytes) (password : String) :
    Except Failure Bytes := do
  let salt ← passwordBlobSalt blob
  let kek := c.argon2idKek (Api.utf8 password) salt
  unwrapPasswordBlobKek c.toCrypto blob kek

/-- `loginProof`. -/
def loginProof (c : Crypto) (kek : Key32) : Key32 := c.hkdf32 kek none .authLogin

/-! ## Sync blob -/

section Platforms

variable (p : Platforms)

/-- `decodeSyncBlob`. -/
def decodeSyncBlob (vaultKey : VaultKey) (blob : Bytes) (version : Nat) :
    Except Failure VaultDocument :=
  if long : 8 + 24 ≤ blob.length ∧ blob.take 4 = [0x53, 0x56, 0x4c, 0x54] ∧ blob.getD 4 0 = 1 then do
    let aad := blob.take 8 ++ leBytes 8 version
    let key := p.hkdf32 vaultKey none .vaultOuter
    let compressed ← (xchachaOpen p.codec.aeadOpen key (syncNonceAt blob long.1) (blob.drop 32)
      aad).mapError .crypto
    let json ← (p.decompress .phone compressed).mapError fun m => .crypto (.zstd m)
    (p.decode .phone documentReader json).mapError .json
  else .error (.crypto (.badFormat "sync blob"))

/-- `encodeSyncBlob`; the nonce is the one the random source gave. -/
def encodeSyncBlob (vaultKey : VaultKey) (nonce : Nonce24) (document : VaultDocument)
    (version : Nat) : Except Failure Bytes := do
  let json ← (p.print .phone document.json).mapError .json
  let compressed ← (p.compress .phone json).mapError fun m => .crypto (.zstd m)
  let header : Bytes := [0x53, 0x56, 0x4c, 0x54] ++ [1, 0, 0, 0]
  let aad := header ++ leBytes 8 version
  let key := p.hkdf32 vaultKey none .vaultOuter
  pure (header ++ nonce.bytes ++ p.aeadSeal key aad nonce compressed)

/-! ## Item envelopes -/

/-- `openItem`. -/
def openItem (vaultKey : VaultKey) (envelope : Bytes) : Except Failure VaultItem :=
  if long : 25 + 24 + 16 ≤ envelope.length ∧ envelope.getD 0 0 = 1 then do
    let idBytes := (envelope.drop 1).take 16
    let key := p.hkdf32 vaultKey (some idBytes) .vaultItem
    let json ← (xchachaOpen p.codec.aeadOpen key (nonceAt envelope (by omega)) (envelope.drop 49)
      (envelope.take 25)).mapError .crypto
    (p.decode .phone itemReader json).mapError .json
  else .error (.crypto (.badFormat "item envelope"))

/-- `sealItem`. -/
def sealItem (vaultKey : VaultKey) (nonce : Nonce24) (item : VaultItem) : Except Failure Bytes := do
  let uuid ← (p.uuid.uuidString item.id).elim (.error (.crypto (.badFormat "item id"))) .ok
  let header : Bytes := [1] ++ uuid.bytes ++ i64ToLe item.updatedAt
  let json ← (p.print .phone item.json).mapError .json
  let key := p.hkdf32 vaultKey (some uuid.bytes) .vaultItem
  pure (header ++ nonce.bytes ++ p.aeadSeal key header nonce json)

end Platforms

end VaultCrypto

end Sentinel.Phone
