import Sentinel.Vault.Bundle

/-!
# Transfer blobs

`crates/core/src/vault/fileblob.rs`: a file is sealed as
`"SFIL" | 0x01 | 0 0 0 | salt(16) | nonce(24) | ct`, and a finished blob may be wrapped once more
under a passphrase as `"SPAS" | 0x01 | 0 0 0 | salt(16) | nonce(24) | ct`. Both openers parse the
same layout (`openUnder`) under another tag and another key.

The key derivations, the AEAD, the compressor and the serializers are third-party code:
`TransferSuite` collects them, those of the phone beside those of the desktop. `Ideal` says what
an AEAD without forgeries opens: what was sealed, as it was sealed.
-/

namespace Sentinel.Vault

open Wire

/-- `FileMeta`. -/
structure FileMeta where
  filename : String
  mime : String
  deriving DecidableEq, Repr

/-- `Argon2Profile`. -/
inductive Argon2Profile where
  | production | test
  deriving DecidableEq, Repr

/-- Sixteen random bytes. -/
@[ext] structure Salt16 where
  bytes : Bytes
  length : bytes.length = 16
  deriving Repr

instance decidableEqSalt16 : DecidableEq Salt16 := fun _ _ =>
  decidable_of_iff _ Salt16.ext_iff.symm

/-- Which program a compressor or serializer belongs to. -/
inductive Side where
  | desktop | phone
  deriving DecidableEq, Repr

/-- The third-party code under the transfer blobs. -/
structure TransferSuite (Key : Type) where
  /-- HKDF with the info `"sentinel/v1/file/blob"`. -/
  hkdf32 : VaultKey → Bytes → Key
  argon2idKek : Bytes → Bytes → Argon2Profile → Key
  aeadSeal : Key → Bytes → Bytes → Bytes → Bytes
  aeadOpen : Key → Bytes → Bytes → Bytes → Option Bytes
  zstdEncode : Side → Bytes → Except String Bytes
  zstdDecode : Side → Bytes → Except String Bytes
  metaToJson : Side → FileMeta → Except String Bytes
  metaFromJson : Side → Bytes → Except String FileMeta

/-- Each side reads what either side wrote. -/
structure TransferSuite.Lossless {Key : Type} (c : TransferSuite Key) : Prop where
  zstd : ∀ side plain, ∃ packed, c.zstdEncode side plain = .ok packed ∧
    ∀ reader, c.zstdDecode reader packed = .ok plain
  json : ∀ side info, ∃ text, c.metaToJson side info = .ok text ∧
    ∀ reader, c.metaFromJson reader text = .ok info

/-! ## The two formats -/

/-- `MAGIC` and `VERSION`. -/
def sfilTag : Bytes := [0x53, 0x46, 0x49, 0x4C, 0x01]

/-- `PASS_MAGIC` and `PASS_VERSION`. -/
def spasTag : Bytes := [0x53, 0x50, 0x41, 0x53, 0x01]

/-- `header` and `pass_header`: the tag and three reserved bytes. -/
def header (tag : Bytes) : Bytes := tag ++ [0, 0, 0]

section Suite

variable {Key : Type} (c : TransferSuite Key)

/-- What both sealers write around the sealed bytes. -/
def sealUnder (tag : Bytes) (key : Key) (salt : Salt16) (nonce : Nonce24) (plain : Bytes) : Bytes :=
  header tag ++ salt.bytes ++ nonce.bytes ++
    c.aeadSeal key (header tag ++ salt.bytes) nonce.bytes plain

/-- The plaintext of a file before compression. -/
def filePlain (json data : Bytes) : Bytes := leBytes 4 json.length ++ json ++ data

/-- `seal_file`; the salt and the nonce are those the random source gave. -/
def sealFile (vk : VaultKey) (salt : Salt16) (nonce : Nonce24) (info : FileMeta) (data : Bytes) :
    Checked CoreError Bytes := do
  let json ← Checked.ofExcept .serde (c.metaToJson .desktop info)
  let compressed ← Checked.ofExcept .io (c.zstdEncode .desktop (filePlain json data))
  pure (sealUnder c sfilTag (c.hkdf32 vk salt.bytes) salt nonce compressed)

/-- The checks of an opener, with its least length and its two errors, and the parts of the blob:
the header, the salt, the nonce and the sealed bytes. -/
def withParts {ε α : Type} (least : Nat) (tag : Bytes) (short badTag : ε) (b : Bytes)
    (parts : Bytes → Bytes → Bytes → Bytes → Checked ε α) : Checked ε α := do
  Checked.require (decide (least ≤ b.length)) short
  let magic ← Checked.slice b 0 4
  let version ← Checked.slice b 4 1
  Checked.require (magic == tag.take 4 && version == tag.drop 4) badTag
  let hdr ← Checked.slice b 0 8
  let salt ← Checked.slice b 8 16
  let nonce ← Checked.slice b 24 24
  let ct ← Checked.slice b 48 (b.length - 48)
  parts hdr salt nonce ct

/-- The checks and the AEAD of both openers. -/
def openUnder (tag : Bytes) (what : String) (key : Bytes → Key) (b : Bytes) :
    Checked CoreError Bytes :=
  withParts (8 + 16 + 24) tag (.format what "too short") (.format what "bad magic/version") b
    fun hdr salt nonce ct => Checked.ofOption .decrypt (c.aeadOpen (key salt) (hdr ++ salt) nonce ct)

/-- What an opener reads in the opened bytes, with its four errors. -/
def readPlain {ε : Type} (reader : Side) (zstd : String → ε) (noLength truncated : ε)
    (serde : String → ε) (pt : Bytes) : Checked ε (FileMeta × Bytes) := do
  let plain ← Checked.ofExcept zstd (c.zstdDecode reader pt)
  Checked.require (decide (4 ≤ plain.length)) noLength
  let metaLen := leNat (← Checked.slice plain 0 4)
  Checked.require (decide (4 + metaLen ≤ plain.length)) truncated
  let json ← Checked.slice plain 4 metaLen
  let info ← Checked.ofExcept serde (c.metaFromJson reader json)
  let data ← Checked.slice plain (4 + metaLen) (plain.length - (4 + metaLen))
  pure (info, data)

/-- What `open_file` reads in the opened bytes. -/
def desktopPlain : Bytes → Checked CoreError (FileMeta × Bytes) :=
  readPlain c .desktop .io (.format "file blob" "no metadata length")
    (.format "file blob" "metadata truncated") .serde

/-- `open_file`. -/
def openFile (vk : VaultKey) (b : Bytes) : Checked CoreError (FileMeta × Bytes) :=
  openUnder c sfilTag "file blob" (c.hkdf32 vk) b >>= desktopPlain c

/-- `is_passphrase_wrapped`. -/
def isPassphraseWrapped (b : Bytes) : Bool :=
  decide (5 ≤ b.length) && b.take 4 == spasTag.take 4 && (b.drop 4).take 1 == spasTag.drop 4

/-- `seal_passphrase`. -/
def sealPassphrase (passphrase : String) (salt : Salt16) (nonce : Nonce24) (inner : Bytes)
    (profile : Argon2Profile) : Bytes :=
  sealUnder c spasTag (c.argon2idKek (asBytes passphrase) salt.bytes profile) salt nonce inner

/-- `open_passphrase`. -/
def openPassphrase (passphrase : String) (b : Bytes) (profile : Argon2Profile) :
    Checked CoreError Bytes :=
  openUnder c spasTag "passphrase blob" (fun salt => c.argon2idKek (asBytes passphrase) salt profile) b

/-! ## What was sealed -/

/-- One use of the AEAD. -/
structure Call (Key : Type) where
  key : Key
  aad : Bytes
  nonce : Bytes
  plain : Bytes

/-- A file that a device sealed, with JSON that a `u32` can count. -/
structure FileSeal where
  side : Side
  vk : VaultKey
  salt : Salt16
  nonce : Nonce24
  info : FileMeta
  data : Bytes
  json : Bytes
  compressed : Bytes
  json_eq : c.metaToJson side info = .ok json
  small : json.length < 2 ^ 32
  compressed_eq : c.zstdEncode side (filePlain json data) = .ok compressed

/-- A blob that a device wrapped under a passphrase. -/
structure PassSeal where
  passphrase : String
  profile : Argon2Profile
  salt : Salt16
  nonce : Nonce24
  inner : Bytes

variable {c}

def FileSeal.call (s : FileSeal c) : Call Key :=
  ⟨c.hkdf32 s.vk s.salt.bytes, header sfilTag ++ s.salt.bytes, s.nonce.bytes, s.compressed⟩

def FileSeal.blob (s : FileSeal c) : Bytes :=
  sealUnder c sfilTag (c.hkdf32 s.vk s.salt.bytes) s.salt s.nonce s.compressed

variable (c)

def PassSeal.call (s : PassSeal) : Call Key :=
  ⟨c.argon2idKek (asBytes s.passphrase) s.salt.bytes s.profile, header spasTag ++ s.salt.bytes,
    s.nonce.bytes, s.inner⟩

def PassSeal.blob (s : PassSeal) : Bytes :=
  sealPassphrase c s.passphrase s.salt s.nonce s.inner s.profile

/-- The AEAD opens what was sealed, under the same key, nonce and associated data, and nothing
else; its tag has sixteen bytes. No two inputs of a key derivation give one key. -/
structure Ideal (files : List (FileSeal c)) (passes : List PassSeal) : Prop where
  open_iff : ∀ key aad nonce ct pt, c.aeadOpen key aad nonce ct = some pt ↔
    (⟨key, aad, nonce, pt⟩ : Call Key) ∈
      files.map FileSeal.call ++ passes.map (PassSeal.call c) ∧ ct = c.aeadSeal key aad nonce pt
  seal_length : ∀ key aad nonce pt, (c.aeadSeal key aad nonce pt).length = pt.length + 16
  hkdf : ∀ vk salt vk' salt', c.hkdf32 vk salt = c.hkdf32 vk' salt' → vk = vk' ∧ salt = salt'
  argon : ∀ p salt profile p' salt' profile',
    c.argon2idKek p salt profile = c.argon2idKek p' salt' profile' →
      p = p' ∧ salt = salt' ∧ profile = profile'

/-! ## The layout -/

section Layout

variable {tag : Bytes} (five : tag.length = 5)

include five

theorem length_header : (header tag).length = 8 := by
  rw [header, List.length_append, five]
  rfl

/-- Where the parts of a sealed blob stand. -/
theorem sealUnder_parts (key : Key) (salt : Salt16) (nonce : Nonce24) (plain : Bytes) :
    (sealUnder c tag key salt nonce plain).take 5 = tag ∧
    ((sealUnder c tag key salt nonce plain).drop 8).take 16 = salt.bytes ∧
    (sealUnder c tag key salt nonce plain).take 24 = header tag ++ salt.bytes ∧
    ((sealUnder c tag key salt nonce plain).drop 24).take 24 = nonce.bytes ∧
    (sealUnder c tag key salt nonce plain).drop 48 =
      c.aeadSeal key (header tag ++ salt.bytes) nonce.bytes plain := by
  have eight := length_header five
  have front : (header tag ++ salt.bytes).length = 24 := by
    rw [List.length_append, eight, salt.length]
  have both : (header tag ++ salt.bytes ++ nonce.bytes).length = 48 := by
    rw [List.length_append, front, nonce.length]
  refine ⟨?_, ?_, ?_, ?_, List.drop_left' both⟩
  · rw [sealUnder, header]
    simp only [List.append_assoc]
    exact List.take_left' five
  · rw [sealUnder]
    simp only [List.append_assoc]
    rw [List.drop_left' eight, List.take_left' salt.length]
  · rw [sealUnder, List.append_assoc _ nonce.bytes]
    exact List.take_left' front
  · rw [sealUnder, List.append_assoc _ nonce.bytes, List.drop_left' front,
      List.take_left' nonce.length]

theorem length_sealUnder (key : Key) (salt : Salt16) (nonce : Nonce24) (plain : Bytes) :
    48 ≤ (sealUnder c tag key salt nonce plain).length := by
  simp only [sealUnder, List.length_append, length_header five, salt.length, nonce.length]
  omega

/-- What an opener makes of a byte string, in terms of what it makes of the parts. -/
theorem withParts_agrees {ε α : Type} {least : Nat} (enough : 48 ≤ least) (short badTag : ε)
    (b : Bytes) {parts : Bytes → Bytes → Bytes → Bytes → Checked ε α}
    (read : Bytes → Bytes → Bytes → Bytes → Option α)
    (agrees : ∀ hdr salt nonce ct,
      (parts hdr salt nonce ct).Agrees (read (hdr ++ salt) salt nonce ct)) :
    (withParts least tag short badTag b parts).Agrees
      (if least ≤ b.length ∧ b.take 5 = tag then
        read (b.take 24) ((b.drop 8).take 16) ((b.drop 24).take 24) (b.drop 48)
      else none) := by
  by_cases long : least ≤ b.length
  · have aad : b.take 8 ++ (b.drop 8).take 16 = b.take 24 := List.take_add.symm
    have rest : (b.drop 48).take (b.length - 48) = b.drop 48 :=
      List.take_of_length_le (by rw [List.length_drop])
    rw [withParts, decide_eq_true long, Checked.slice_eq (show 0 + 4 ≤ b.length by omega),
      Checked.slice_eq (show 4 + 1 ≤ b.length by omega),
      Checked.slice_eq (show 0 + 8 ≤ b.length by omega),
      Checked.slice_eq (show 8 + 16 ≤ b.length by omega),
      Checked.slice_eq (show 24 + 24 ≤ b.length by omega),
      Checked.slice_eq (show 48 + (b.length - 48) ≤ b.length by omega), rest, List.drop_zero]
    simp only [Checked.require_true, Checked.ok_bind]
    by_cases same : b.take 5 = tag
    · obtain ⟨magic, version⟩ := (tag_iff five).mp same
      rw [if_pos ⟨long, same⟩, magic, version, beq_self_eq_true, beq_self_eq_true, ← aad]
      exact agrees _ _ _ _
    · have other : (b.take 4 == tag.take 4 && (b.drop 4).take 1 == tag.drop 4) = false := by
        rw [← Bool.not_eq_true, Bool.and_eq_true, beq_iff_eq, beq_iff_eq, ← tag_iff five]
        exact same
      rw [if_neg fun both => same both.2, other]
      trivial
  · rw [withParts, decide_eq_false long, if_neg fun both => long both.1]
    trivial

theorem openUnder_agrees (what : String) (key : Bytes → Key) (b : Bytes) :
    (openUnder c tag what key b).Agrees
      (if 48 ≤ b.length ∧ b.take 5 = tag then
        c.aeadOpen (key ((b.drop 8).take 16)) (b.take 24) ((b.drop 24).take 24) (b.drop 48)
      else none) :=
  withParts_agrees five le_rfl _ _ b (fun aad salt => c.aeadOpen (key salt) aad)
    fun _ _ _ _ => Checked.ofOption_agrees _ _

end Layout

theorem five_sfilTag : sfilTag.length = 5 := rfl

theorem five_spasTag : spasTag.length = 5 := rfl

theorem isPassphraseWrapped_iff {b : Bytes} :
    isPassphraseWrapped b = true ↔ 5 ≤ b.length ∧ b.take 5 = spasTag := by
  rw [isPassphraseWrapped, Bool.and_eq_true, Bool.and_eq_true, decide_eq_true_iff, beq_iff_eq,
    beq_iff_eq, tag_iff five_spasTag, and_assoc]

/-! ## What opens -/

section World

variable {c} {files : List (FileSeal c)} {passes : List PassSeal}

/-- The tag of the associated data of a call decides which sealer made it. -/
theorem tag_of_mem {call : Call Key}
    (mem : call ∈ files.map FileSeal.call ++ passes.map (PassSeal.call c)) :
    ∃ tag salt nonce, (tag = sfilTag ∨ tag = spasTag) ∧
      call = ⟨call.key, header tag ++ Salt16.bytes salt, Nonce24.bytes nonce, call.plain⟩ := by
  obtain file | pass := List.mem_append.mp mem
  · obtain ⟨s, -, rfl⟩ := List.mem_map.mp file
    exact ⟨sfilTag, s.salt, s.nonce, .inl rfl, rfl⟩
  · obtain ⟨s, -, rfl⟩ := List.mem_map.mp pass
    exact ⟨spasTag, s.salt, s.nonce, .inr rfl, rfl⟩

theorem header_append_inj {tag tag' : Bytes} {salt salt' : Salt16} (five : tag.length = 5)
    (five' : tag'.length = 5) (eq : header tag ++ salt.bytes = header tag' ++ salt'.bytes) :
    tag = tag' ∧ salt = salt' := by
  have lengths : (header tag).length = (header tag').length := by
    rw [length_header five, length_header five']
  obtain ⟨head, same⟩ := List.append_inj eq lengths
  refine ⟨(List.append_inj head (five.trans five'.symm)).1, ?_⟩
  cases salt
  cases salt'
  cases same
  rfl

/-- An opener accepts what its sealer sealed, byte for byte. -/
theorem Ideal.openUnder_iff (ideal : Ideal c files passes) {tag : Bytes}
    (five : tag.length = 5) (what : String) (key : Bytes → Key) (b pt : Bytes) :
    openUnder c tag what key b = .ok pt ↔ ∃ salt nonce,
      (⟨key (Salt16.bytes salt), header tag ++ salt.bytes, Nonce24.bytes nonce, pt⟩ : Call Key) ∈
        files.map FileSeal.call ++ passes.map (PassSeal.call c) ∧
      b = sealUnder c tag (key salt.bytes) salt nonce pt := by
  rw [(openUnder_agrees c five what key b).total.2 pt]
  constructor
  · intro opened
    split at opened
    · rename_i layout
      obtain ⟨mem, ct⟩ := (ideal.open_iff _ _ _ _ _).mp opened
      obtain ⟨tag', salt, nonce, which, eq⟩ := tag_of_mem mem
      have five' : tag'.length = 5 := by
        obtain rfl | rfl := which <;> rfl
      have aad : b.take 24 = header tag' ++ salt.bytes := congrArg Call.aad eq
      have random : (b.drop 24).take 24 = nonce.bytes := congrArg Call.nonce eq
      have eight := length_header five'
      have cut : (b.take 24).take 5 = b.take 5 := List.take_take
      have tags : tag' = tag := by
        rw [← layout.2, ← cut, aad, header, List.append_assoc, List.take_left' five']
      subst tags
      have salted : (b.drop 8).take 16 = salt.bytes := by
        have inside : (b.take 24).drop 8 = salt.bytes := by
          rw [aad, List.drop_left' eight]
        rwa [List.drop_take] at inside
      rw [salted, aad, random] at mem ct
      refine ⟨salt, nonce, mem, ?_⟩
      have third : b.drop 48 = (b.drop 24).drop 24 := by rw [List.drop_drop]
      rw [sealUnder, ← ct, ← aad, ← random, third, List.append_assoc, List.take_append_drop,
        List.take_append_drop]
    · cases opened
  · rintro ⟨salt, nonce, mem, rfl⟩
    obtain ⟨same, salted, aad, random, rest⟩ :=
      sealUnder_parts c five (key salt.bytes) salt nonce pt
    rw [if_pos ⟨length_sealUnder c five _ _ _ _, same⟩, salted, aad, random, rest]
    exact (ideal.open_iff _ _ _ _ _).mpr ⟨mem, rfl⟩

theorem Ideal.openUnder_file (ideal : Ideal c files passes) (what : String) (vk : VaultKey)
    (b pt : Bytes) : openUnder c sfilTag what (c.hkdf32 vk) b = .ok pt ↔
      ∃ s ∈ files, s.vk = vk ∧ s.blob = b ∧ s.compressed = pt := by
  rw [ideal.openUnder_iff five_sfilTag]
  constructor
  · rintro ⟨salt, nonce, mem, rfl⟩
    obtain file | pass := List.mem_append.mp mem
    · obtain ⟨s, member, eq⟩ := List.mem_map.mp file
      obtain ⟨same, plain⟩ : c.hkdf32 s.vk s.salt.bytes = c.hkdf32 vk salt.bytes ∧
          s.compressed = pt := ⟨congrArg Call.key eq, congrArg Call.plain eq⟩
      have nonces : s.nonce.bytes = nonce.bytes := congrArg Call.nonce eq
      refine ⟨s, member, (ideal.hkdf _ _ _ _ same).1, ?_, plain⟩
      rw [FileSeal.blob, sealUnder, sealUnder, same, (ideal.hkdf _ _ _ _ same).2, plain, nonces]
    · obtain ⟨s, -, eq⟩ := List.mem_map.mp pass
      have tags := (header_append_inj five_spasTag five_sfilTag (congrArg Call.aad eq)).1
      cases tags
  · rintro ⟨s, member, rfl, rfl, rfl⟩
    exact ⟨s.salt, s.nonce, List.mem_append_left _ (List.mem_map_of_mem member), rfl⟩

theorem asBytes_inj {s t : String} (eq : asBytes s = asBytes t) : s = t := by
  have read := fromUtf8_asBytes s
  rw [eq, fromUtf8_asBytes] at read
  exact (Option.some.inj read).symm

theorem Ideal.openUnder_pass (ideal : Ideal c files passes) (passphrase : String)
    (profile : Argon2Profile) (b pt : Bytes) : openPassphrase c passphrase b profile = .ok pt ↔
      ∃ s ∈ passes, s.passphrase = passphrase ∧ s.profile = profile ∧ s.blob c = b ∧
        s.inner = pt := by
  rw [openPassphrase, ideal.openUnder_iff five_spasTag]
  constructor
  · rintro ⟨salt, nonce, mem, rfl⟩
    obtain file | pass := List.mem_append.mp mem
    · obtain ⟨s, -, eq⟩ := List.mem_map.mp file
      have tags := (header_append_inj five_sfilTag five_spasTag (congrArg Call.aad eq)).1
      cases tags
    · obtain ⟨s, member, eq⟩ := List.mem_map.mp pass
      have same : c.argon2idKek (asBytes s.passphrase) s.salt.bytes s.profile =
        c.argon2idKek (asBytes passphrase) salt.bytes profile := congrArg Call.key eq
      have plain : s.inner = pt := congrArg Call.plain eq
      have nonces : s.nonce.bytes = nonce.bytes := congrArg Call.nonce eq
      obtain ⟨phrase, salts, profiles⟩ := ideal.argon _ _ _ _ _ _ same
      refine ⟨s, member, asBytes_inj phrase, profiles, ?_, plain⟩
      rw [PassSeal.blob, sealPassphrase, sealUnder, sealUnder, same, salts, plain, nonces]
  · rintro ⟨s, member, rfl, rfl, rfl, rfl⟩
    exact ⟨s.salt, s.nonce, List.mem_append_right _ (List.mem_map_of_mem member), rfl⟩

end World

/-! ## The plaintext of a file -/

section Plain

variable {c}

/-- The parts of a plaintext. -/
theorem filePlain_parts {json data : Bytes} (small : json.length < 2 ^ 32) :
    leNat ((filePlain json data).take 4) = json.length ∧
      ((filePlain json data).drop 4).take json.length = json ∧
      (filePlain json data).drop (4 + json.length) = data := by
  have four : (leBytes 4 json.length).length = 4 := length_leBytes 4 _
  refine ⟨?_, ?_, ?_⟩
  · rw [filePlain, List.append_assoc, List.take_left' four, leNat_leBytes]
    exact Nat.mod_eq_of_lt small
  · rw [filePlain, List.append_assoc, List.drop_left' four, List.take_left]
  · rw [filePlain, List.drop_left' (by rw [List.length_append, four])]

/-- What is compressed is read back. -/
theorem readPlain_compressed {ε : Type} (lossless : c.Lossless) (s : FileSeal c) (reader : Side)
    (zstd : String → ε) (noLength truncated : ε) (serde : String → ε) :
    readPlain c reader zstd noLength truncated serde s.compressed = .ok (s.info, s.data) := by
  obtain ⟨packed, encoded, decoded⟩ := lossless.zstd s.side (filePlain s.json s.data)
  obtain ⟨text, written, read⟩ := lossless.json s.side s.info
  rw [s.compressed_eq] at encoded
  rw [s.json_eq] at written
  cases encoded
  cases written
  obtain ⟨count, json, data⟩ := @filePlain_parts s.json s.data s.small
  have length : (filePlain s.json s.data).length = 4 + s.json.length + s.data.length := by
    rw [filePlain, List.length_append, List.length_append, length_leBytes]
  have long : 4 ≤ (filePlain s.json s.data).length := by omega
  have inside : 4 + s.json.length ≤ (filePlain s.json s.data).length := by omega
  have all : ((filePlain s.json s.data).drop (4 + s.json.length)).take
      ((filePlain s.json s.data).length - (4 + s.json.length)) = s.data := by
    rw [data, length, Nat.add_sub_cancel_left, List.take_length]
  rw [readPlain, decoded, Checked.ofExcept, Checked.ok_bind, decide_eq_true long, Checked.require_true,
    Checked.ok_bind, Checked.slice_eq (show 0 + 4 ≤ _ from long), Checked.ok_bind, List.drop_zero]
  simp only [count, decide_eq_true inside, Checked.require_true, Checked.ok_bind,
    Checked.slice_eq inside, json, read, Checked.ofExcept,
    Checked.slice_eq (Nat.add_sub_of_le inside).le, all, Checked.pure_eq]

/-- What the reader answers, by the decompressed text. -/
theorem readPlain_eq_ok {ε : Type} {reader : Side} {zstd : String → ε} {noLength truncated : ε}
    {serde : String → ε} {pt : Bytes} {r : FileMeta × Bytes} :
    readPlain c reader zstd noLength truncated serde pt = .ok r ↔
      ∃ plain, c.zstdDecode reader pt = .ok plain ∧ 4 ≤ plain.length ∧
        4 + leNat (plain.take 4) ≤ plain.length ∧
        c.metaFromJson reader ((plain.drop 4).take (leNat (plain.take 4))) = .ok r.1 ∧
        r.2 = plain.drop (4 + leNat (plain.take 4)) := by
  rw [readPlain]
  cases c.zstdDecode reader pt with
  | error e => simp [Checked.ofExcept]
  | ok plain =>
      simp only [Except.ok.injEq, exists_eq_left']
      rw [Checked.ofExcept, Checked.ok_bind]
      by_cases long : 4 ≤ plain.length
      · rw [decide_eq_true long, Checked.slice_eq (show 0 + 4 ≤ _ from long), List.drop_zero]
        simp only [Checked.require_true, Checked.ok_bind, long, true_and]
        by_cases inside : 4 + leNat (plain.take 4) ≤ plain.length
        · have rest : (plain.drop (4 + leNat (plain.take 4))).take
              (plain.length - (4 + leNat (plain.take 4))) =
                plain.drop (4 + leNat (plain.take 4)) :=
            List.take_of_length_le (by rw [List.length_drop])
          rw [decide_eq_true inside, Checked.slice_eq inside]
          simp only [Checked.require_true, Checked.ok_bind, inside, true_and]
          cases c.metaFromJson reader ((plain.drop 4).take (leNat (plain.take 4))) with
          | error e => simp [Checked.ofExcept]
          | ok info =>
              rw [Checked.ofExcept, Checked.ok_bind, Checked.slice_eq (Nat.add_sub_of_le inside).le,
                rest]
              obtain ⟨info', data⟩ := r
              simp [eq_comm]
        · rw [decide_eq_false inside]
          simp [inside]
      · rw [decide_eq_false long]
        simp [long]

/-- Readers that decompress and parse alike read alike. -/
theorem readPlain_congr {ε ε' : Type} {reader reader' : Side} {zstd serde : String → ε}
    {zstd' serde' : String → ε'} {noLength truncated : ε} {noLength' truncated' : ε'} {pt : Bytes}
    (unpacked : ∀ plain, c.zstdDecode reader pt = .ok plain ↔ c.zstdDecode reader' pt = .ok plain)
    (parsed : ∀ json info, c.metaFromJson reader json = .ok info ↔
      c.metaFromJson reader' json = .ok info) (r : FileMeta × Bytes) :
    readPlain c reader zstd noLength truncated serde pt = .ok r ↔
      readPlain c reader' zstd' noLength' truncated' serde' pt = .ok r := by
  rw [readPlain_eq_ok, readPlain_eq_ok]
  simp only [unpacked, parsed]

/-- No plaintext makes the reader panic. -/
theorem readPlain_ne_trap {ε : Type} (reader : Side) (zstd : String → ε) (noLength truncated : ε)
    (serde : String → ε) (pt : Bytes) :
    readPlain c reader zstd noLength truncated serde pt ≠ .trap := by
  rw [readPlain]
  cases c.zstdDecode reader pt with
  | error e => simp [Checked.ofExcept]
  | ok plain =>
      rw [Checked.ofExcept, Checked.ok_bind]
      by_cases long : 4 ≤ plain.length
      · rw [decide_eq_true long, Checked.slice_eq (show 0 + 4 ≤ _ from long), List.drop_zero]
        simp only [Checked.require_true, Checked.ok_bind]
        by_cases inside : 4 + leNat (plain.take 4) ≤ plain.length
        · rw [decide_eq_true inside, Checked.slice_eq inside]
          simp only [Checked.require_true, Checked.ok_bind]
          cases c.metaFromJson reader ((plain.drop 4).take (leNat (plain.take 4))) with
          | error e => simp [Checked.ofExcept]
          | ok info =>
              rw [Checked.ofExcept, Checked.ok_bind, Checked.slice_eq (Nat.add_sub_of_le inside).le]
              simp
        · rw [decide_eq_false inside]
          simp
      · rw [decide_eq_false long]
        simp

theorem openFile_ne_trap (vk : VaultKey) (b : Bytes) : openFile c vk b ≠ .trap :=
  Checked.bind_ne_trap (openUnder_agrees c five_sfilTag _ _ b).total.1
    (readPlain_ne_trap _ _ _ _ _)

theorem openPassphrase_ne_trap (passphrase : String) (b : Bytes) (profile : Argon2Profile) :
    openPassphrase c passphrase b profile ≠ .trap :=
  (openUnder_agrees c five_spasTag _ _ b).total.1

/-- A byte string opens just if it was sealed, under the same key, and with what was sealed. -/
theorem Ideal.openFile_iff {files : List (FileSeal c)} {passes : List PassSeal}
    (ideal : Ideal c files passes) (lossless : c.Lossless) (vk : VaultKey) (b : Bytes)
    (r : FileMeta × Bytes) : openFile c vk b = .ok r ↔
      ∃ s ∈ files, s.vk = vk ∧ s.blob = b ∧ r = (s.info, s.data) := by
  rw [openFile, Checked.bind_eq_ok]
  constructor
  · rintro ⟨plain, opened, read⟩
    obtain ⟨s, member, key, blob, rfl⟩ := (ideal.openUnder_file _ _ _ _).mp opened
    rw [desktopPlain, readPlain_compressed lossless s] at read
    cases read
    exact ⟨s, member, key, blob, rfl⟩
  · rintro ⟨s, member, rfl, rfl, rfl⟩
    exact ⟨s.compressed, (ideal.openUnder_file _ _ _ _).mpr ⟨s, member, rfl, rfl, rfl⟩,
      readPlain_compressed lossless s _ _ _ _ _⟩

/-- Every file whose JSON a `u32` can count can be sealed. -/
theorem exists_fileSeal (lossless : c.Lossless) (side : Side) (vk : VaultKey) (salt : Salt16)
    (nonce : Nonce24) (info : FileMeta) (data : Bytes)
    (small : ∀ json, c.metaToJson side info = .ok json → json.length < 2 ^ 32) :
    ∃ s : FileSeal c, s.side = side ∧ s.vk = vk ∧ s.salt = salt ∧ s.nonce = nonce ∧
      s.info = info ∧ s.data = data := by
  obtain ⟨json, json_eq, -⟩ := lossless.json side info
  obtain ⟨packed, packed_eq, -⟩ := lossless.zstd side (filePlain json data)
  exact ⟨⟨side, vk, salt, nonce, info, data, json, packed, json_eq, small json json_eq,
    packed_eq⟩, rfl, rfl, rfl, rfl, rfl, rfl⟩

theorem FileSeal.sealFile_eq (s : FileSeal c) (desktop : s.side = .desktop) :
    sealFile c s.vk s.salt s.nonce s.info s.data = .ok s.blob := by
  have json := s.json_eq
  have compressed := s.compressed_eq
  rw [desktop] at json compressed
  rw [sealFile, json, Checked.ofExcept, Checked.ok_bind, compressed]
  rfl

/-- Every sealed file has its own tag. -/
theorem isPassphraseWrapped_sealFile {vk : VaultKey} {salt : Salt16} {nonce : Nonce24}
    {info : FileMeta} {data blob : Bytes} (sealed_ : sealFile c vk salt nonce info data = .ok blob) :
    isPassphraseWrapped blob = false := by
  obtain ⟨json, -, sealed_⟩ := Checked.bind_eq_ok.mp sealed_
  obtain ⟨packed, -, eq⟩ := Checked.bind_eq_ok.mp sealed_
  cases eq
  have tag := (sealUnder_parts c five_sfilTag (c.hkdf32 vk salt.bytes) salt nonce packed).1
  rw [← Bool.not_eq_true, isPassphraseWrapped_iff, tag]
  rintro ⟨-, other⟩
  cases other

theorem isPassphraseWrapped_sealPassphrase (passphrase : String) (salt : Salt16) (nonce : Nonce24)
    (inner : Bytes) (profile : Argon2Profile) :
    isPassphraseWrapped (sealPassphrase c passphrase salt nonce inner profile) = true := by
  refine isPassphraseWrapped_iff.mpr ⟨?_, (sealUnder_parts c five_spasTag _ _ _ _).1⟩
  exact le_trans (by omega) (length_sealUnder c five_spasTag _ _ _ _)

end Plain

end Suite

end Sentinel.Vault
