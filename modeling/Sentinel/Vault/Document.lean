import Sentinel.Lib.Base64
import Sentinel.Vault.Envelope

/-!
# The sync document

`crates/core/src/vault/document.rs`: the whole vault as one list of sealed items and
deletion marks, and the blob in which it travels:
`"SVLT" | 0x01 | 0x00 0x00 0x00 | nonce(24) | ct`, with the header and the version as
associated data. `Codec` adds the compressor and the serializer of documents to the
third-party code.
-/

namespace Sentinel.Vault

/-- The sealed items, in base 64, and the tombstones. -/
structure VaultDocument where
  format : Nat
  items : List String
  tombstones : List (ItemId × Int)
  deriving DecidableEq, Repr

namespace VaultDocument

def fromEnvelopes (envs : List ItemEnvelope) (tombstones : List (ItemId × Int)) :
    VaultDocument where
  format := 1
  items := envs.map fun e => Base64.encode e.bytes
  tombstones := tombstones

/-- One item of a document. -/
def envelope (s : String) : Except CoreError ItemEnvelope :=
  match Base64.decode s with
  | some bytes => .ok ⟨bytes⟩
  | none => .error (.format "vault document" "item not base64")

def envelopes (doc : VaultDocument) : Except CoreError (List ItemEnvelope) :=
  doc.items.mapM envelope

theorem envelopes_fromEnvelopes (envs : List ItemEnvelope) (tombstones : List (ItemId × Int)) :
    (fromEnvelopes envs tombstones).envelopes = .ok envs := by
  unfold envelopes fromEnvelopes
  induction envs with
  | nil => rfl
  | cons e envs ih =>
      have first : envelope (Base64.encode e.bytes) = .ok e := by
        rw [envelope, Base64.decode_encode]
      rw [List.map_cons, List.mapM_cons, first]
      simp only at ih
      rw [ih]
      rfl

end VaultDocument

/-- The third-party code under the sync blob. -/
structure Codec extends Crypto where
  compress : Bytes → Except String Bytes
  decompress : Bytes → Except String Bytes
  documentToJson : VaultDocument → Except String Bytes
  documentFromJson : Bytes → Except String VaultDocument

/-- Opening, decompressing and parsing undo sealing, compressing and serializing. -/
structure Codec.Lossless (c : Codec) : Prop extends c.toCrypto.Correct where
  decompress_compress : ∀ b z, c.compress b = .ok z → c.decompress z = .ok b
  document_json : ∀ doc json, c.documentToJson doc = .ok json → c.documentFromJson json = .ok doc

/-- `header`: magic, version byte and padding. -/
def syncHeader : Bytes := [0x53, 0x56, 0x4c, 0x54, 0x01, 0, 0, 0]

/-- `encode_sync_blob`: seal a document for the server at a version. -/
def encodeSyncBlob (c : Codec) (vk : VaultKey) (nonce : Nonce24) (doc : VaultDocument)
    (version : Nat) : Except CoreError Bytes := do
  let json ← (c.documentToJson doc).mapError .serde
  let compressed ← (c.compress json).mapError .io
  let aad := syncHeader ++ leBytes 8 version
  let key := c.hkdf32 vk none .vaultOuter
  pure (syncHeader ++ nonce.bytes ++ c.aeadSeal key aad nonce compressed)

/-- The nonce at bytes 8 to 31. -/
def syncNonceAt (b : Bytes) (long : 32 ≤ b.length) : Nonce24 :=
  ⟨(b.drop 8).take 24, by simp only [List.length_take, List.length_drop]; omega⟩

/-- `decode_sync_blob`: open a blob that was sealed for `expectedVersion`. -/
def decodeSyncBlob (c : Codec) (vk : VaultKey) (bytes : Bytes) (expectedVersion : Nat) :
    Except CoreError VaultDocument :=
  if long : 8 + 24 ≤ bytes.length then do
    if bytes.take 5 ≠ [0x53, 0x56, 0x4c, 0x54, 0x01] then
      throw (.format "sync blob" "bad magic/version")
    let aad := bytes.take 8 ++ leBytes 8 expectedVersion
    let key := c.hkdf32 vk none .vaultOuter
    let pt ← (c.aeadOpen key aad (syncNonceAt bytes long) (bytes.drop 32)).elim
      (.error .decrypt) .ok
    let json ← (c.decompress pt).mapError .io
    (c.documentFromJson json).mapError .serde
  else throw (.format "sync blob" "too short")

section RoundTrip

variable {c : Codec} {vk : VaultKey} {nonce : Nonce24} {doc : VaultDocument} {version : Nat}
variable {blob : Bytes}

theorem encodeSyncBlob_eq_ok (h : encodeSyncBlob c vk nonce doc version = .ok blob) :
    ∃ json compressed, c.documentToJson doc = .ok json ∧ c.compress json = .ok compressed ∧
      blob = syncHeader ++ nonce.bytes ++ c.aeadSeal (c.hkdf32 vk none .vaultOuter)
        (syncHeader ++ leBytes 8 version) nonce compressed := by
  unfold encodeSyncBlob at h
  cases toJson : c.documentToJson doc with
  | error e =>
      rw [toJson] at h
      cases h
  | ok json =>
      rw [toJson] at h
      cases zipped : c.compress json with
      | error e =>
          simp only [Except.mapError, bind, Except.bind, zipped] at h
          cases h
      | ok compressed =>
          simp only [Except.mapError, bind, Except.bind, zipped] at h
          cases h
          exact ⟨json, compressed, rfl, zipped, rfl⟩

/-- A blob opens at the version it was sealed for, to the document that was sealed. -/
theorem decodeSyncBlob_encodeSyncBlob (lossless : c.Lossless)
    (h : encodeSyncBlob c vk nonce doc version = .ok blob) :
    decodeSyncBlob c vk blob version = .ok doc := by
  obtain ⟨json, compressed, toJson, zipped, rfl⟩ := encodeSyncBlob_eq_ok h
  have len : syncHeader.length = 8 := rfl
  generalize cts : c.aeadSeal _ _ nonce compressed = ct
  have opened := lossless.open_seal (c.hkdf32 vk none .vaultOuter)
    (syncHeader ++ leBytes 8 version) nonce compressed
  rw [cts] at opened
  have long : 8 + 24 ≤ (syncHeader ++ nonce.bytes ++ ct).length := by
    simp only [List.length_append, len, nonce.length]
    omega
  have nonceBytes : syncNonceAt (syncHeader ++ nonce.bytes ++ ct) long = nonce := by
    simp only [syncNonceAt, List.append_assoc, ← len, List.drop_left, ← nonce.length,
      List.take_left]
  have body : (syncHeader ++ nonce.bytes ++ ct).drop 32 = ct := by
    have prefix_ : (syncHeader ++ nonce.bytes).length = 32 := by
      rw [List.length_append, len, nonce.length]
    rw [← prefix_, List.drop_left]
  have hdr : (syncHeader ++ nonce.bytes ++ ct).take 8 = syncHeader := rfl
  have magic : (syncHeader ++ nonce.bytes ++ ct).take 5 = [0x53, 0x56, 0x4c, 0x54, 0x01] := rfl
  unfold decodeSyncBlob
  rw [dif_pos long]
  simp only [magic, hdr, nonceBytes, body, opened, ne_eq, not_true_eq_false, if_false, bind,
    Except.bind, Option.elim, lossless.decompress_compress _ _ zipped,
    lossless.document_json _ _ toJson, Except.mapError]

end RoundTrip

end Sentinel.Vault
