import Sentinel.Vault.FileBlob
import Sentinel.Phone.Bundle
import Sentinel.Lib.Sealing

/-!
# Transfer blobs on the phone

`apps/ios-key/NorthKey/Crypto/VaultCrypto.swift`: `sealFileBlob` and `openFileBlob` share the
layout, the key and the AEAD of the desktop's transfer blobs. The phone asks for sixteen more
bytes before it parses a blob, those of the tag that `xchachaOpen` asks for again.
-/

namespace Sentinel.Phone

open Wire Vault

/-- `xchachaOpen`, over the AEAD under it. -/
def xchachaOpen {Key Nonce : Type} (aeadOpen : Key → Bytes → Nonce → Bytes → Option Bytes)
    (key : Key) (nonce24 : Nonce) (ciphertext aad : Bytes) : Except VaultCryptoError Bytes :=
  if ciphertext.length < 16 then .error (.badFormat "ciphertext too short")
  else (aeadOpen key aad nonce24 ciphertext).elim (.error .decryptFailed) .ok

theorem xchachaOpen_ok_iff {Key Nonce : Type} {aeadOpen : Key → Bytes → Nonce → Bytes → Option Bytes}
    {key : Key} {nonce : Nonce} {ct aad pt : Bytes} (tagged : 16 ≤ ct.length) :
    xchachaOpen aeadOpen key nonce ct aad = .ok pt ↔ aeadOpen key aad nonce ct = some pt := by
  rw [xchachaOpen, if_neg (Nat.not_lt.mpr tagged)]
  cases aeadOpen key aad nonce ct <;> simp

section Suite

variable {Key : Type} (c : TransferSuite Key)

/-- `sealFileBlob`; `UInt32(_:)` of a count past `2 ^ 32 - 1` traps. -/
def sealFileBlob (vk : VaultKey) (salt : Salt16) (nonce : Nonce24) (info : FileMeta)
    (data : Bytes) : Checked VaultCryptoError Bytes := do
  let json ← Checked.ofExcept (fun _ => .badFormat "file meta") (c.metaToJson .phone info)
  if json.length < 2 ^ 32 then
    let compressed ← Checked.ofExcept .zstd (c.zstdEncode .phone (filePlain json data))
    pure (sealUnder c sfilTag (c.hkdf32 vk salt.bytes) salt nonce compressed)
  else .trap

/-- What `openFileBlob` reads in the opened bytes. -/
def phonePlain : Bytes → Checked VaultCryptoError (FileMeta × Bytes) :=
  readPlain c .phone .zstd (.badFormat "file plaintext") (.badFormat "file meta length")
    fun _ => .badFormat "file meta"

/-- `openFileBlob`. -/
def openFileBlob (vk : VaultKey) (blob : Bytes) : Checked VaultCryptoError (FileMeta × Bytes) :=
  withParts (8 + 16 + 24 + 16) sfilTag (.badFormat "file blob") (.badFormat "file blob") blob
    (fun hdr salt nonce ct => Checked.ofExcept id
      (xchachaOpen c.aeadOpen (c.hkdf32 vk salt) nonce ct (hdr ++ salt))) >>= phonePlain c

variable {c}

/-- What the AEAD opens has a tag. -/
theorem aeadOpen_of_short {files : List (FileSeal c)} {passes : List PassSeal}
    (ideal : Ideal c files passes) (key : Key) (aad nonce : Bytes) {ct : Bytes}
    (short : ct.length < 16) : c.aeadOpen key aad nonce ct = none := by
  refine Option.eq_none_iff_forall_ne_some.mpr fun pt opened => ?_
  have length := ideal.seal_length key aad nonce pt
  rw [← ((ideal.open_iff _ _ _ _ _).mp opened).2] at length
  omega

theorem xchachaOpen_agrees {files : List (FileSeal c)} {passes : List PassSeal}
    (ideal : Ideal c files passes) (key : Key) (nonce ct aad : Bytes) :
    (Checked.ofExcept id (xchachaOpen c.aeadOpen key nonce ct aad)).Agrees
      (c.aeadOpen key aad nonce ct) := by
  rw [xchachaOpen]
  by_cases short : ct.length < 16
  · rw [aeadOpen_of_short ideal key aad nonce short, if_pos short]
    trivial
  · rw [if_neg short]
    cases c.aeadOpen key aad nonce ct with
    | none => trivial
    | some pt => rfl

/-- The phone opens the same bytes as the desktop. -/
theorem opened_agrees {files : List (FileSeal c)} {passes : List PassSeal}
    (ideal : Ideal c files passes) (vk : VaultKey) (b : Bytes) :
    (withParts (8 + 16 + 24 + 16) sfilTag (VaultCryptoError.badFormat "file blob")
      (.badFormat "file blob") b
      fun hdr salt nonce ct => Checked.ofExcept id
        (xchachaOpen c.aeadOpen (c.hkdf32 vk salt) nonce ct (hdr ++ salt))).Agrees
      (if 48 ≤ b.length ∧ b.take 5 = sfilTag then
        c.aeadOpen (c.hkdf32 vk ((b.drop 8).take 16)) (b.take 24) ((b.drop 24).take 24) (b.drop 48)
      else none) := by
  have phone := withParts_agrees five_sfilTag (show 48 ≤ 8 + 16 + 24 + 16 by omega)
    (VaultCryptoError.badFormat "file blob") (.badFormat "file blob") b
    (fun aad salt => c.aeadOpen (c.hkdf32 vk salt) aad)
    fun hdr salt nonce ct => xchachaOpen_agrees ideal (c.hkdf32 vk salt) nonce ct (hdr ++ salt)
  have same : (if 48 ≤ b.length ∧ b.take 5 = sfilTag then
      c.aeadOpen (c.hkdf32 vk ((b.drop 8).take 16)) (b.take 24) ((b.drop 24).take 24) (b.drop 48)
      else none) = if 8 + 16 + 24 + 16 ≤ b.length ∧ b.take 5 = sfilTag then
      c.aeadOpen (c.hkdf32 vk ((b.drop 8).take 16)) (b.take 24) ((b.drop 24).take 24) (b.drop 48)
      else none := by
    by_cases long : 8 + 16 + 24 + 16 ≤ b.length ∧ b.take 5 = sfilTag
    · rw [if_pos long, if_pos ⟨by omega, long.2⟩]
    · rw [if_neg long]
      split
      · rename_i layout
        have short : (b.drop 48).length < 16 := by
          rw [List.length_drop]
          have : ¬ 8 + 16 + 24 + 16 ≤ b.length := fun enough => long ⟨enough, layout.2⟩
          omega
        exact aeadOpen_of_short ideal _ _ _ short
      · rfl
  rw [same]
  exact phone

theorem openFileBlob_ne_trap {files : List (FileSeal c)} {passes : List PassSeal}
    (ideal : Ideal c files passes) (vk : VaultKey) (b : Bytes) : openFileBlob c vk b ≠ .trap :=
  Checked.bind_ne_trap (opened_agrees ideal vk b).total.1 (readPlain_ne_trap _ _ _ _ _)

theorem openFileBlob_iff {files : List (FileSeal c)} {passes : List PassSeal}
    (ideal : Ideal c files passes) (lossless : c.Lossless) (vk : VaultKey) (b : Bytes)
    (r : FileMeta × Bytes) : openFileBlob c vk b = .ok r ↔
      ∃ s ∈ files, s.vk = vk ∧ s.blob = b ∧ r = (s.info, s.data) := by
  have which := fun pt => ((opened_agrees ideal vk b).total.2 pt).trans
    (((openUnder_agrees c five_sfilTag "file blob" (c.hkdf32 vk) b).total.2 pt).symm.trans
      (ideal.openUnder_file _ _ _ _))
  rw [openFileBlob, Checked.bind_eq_ok]
  constructor
  · rintro ⟨plain, opened, read⟩
    obtain ⟨s, member, key, blob, rfl⟩ := (which plain).mp opened
    rw [phonePlain, readPlain_compressed lossless s] at read
    cases read
    exact ⟨s, member, key, blob, rfl⟩
  · rintro ⟨s, member, rfl, rfl, rfl⟩
    exact ⟨s.compressed, (which s.compressed).mpr ⟨s, member, rfl, rfl, rfl⟩,
      readPlain_compressed lossless s _ _ _ _ _⟩

theorem sealFileBlob_eq (s : FileSeal c) (phone : s.side = .phone) :
    sealFileBlob c s.vk s.salt s.nonce s.info s.data = .ok s.blob := by
  have json := s.json_eq
  have compressed := s.compressed_eq
  rw [phone] at json compressed
  rw [sealFileBlob, json, Checked.ofExcept, Checked.ok_bind, if_pos s.small, compressed]
  rfl

/-- With an ideal AEAD, ideal key derivations and serializers and compressors that lose nothing:
what is sealed opens to what was sealed, and the two formats tell themselves apart; a byte string
that was not sealed, however it was made from one that was, is rejected with an error; no byte
string makes an opener panic; and the phone opens what the desktop opens, with the same result. In
an opened text that nobody sealed so, too, both read the same where their decompressors and JSON
readers do. -/
theorem transfer_blobs {files : List (FileSeal c)} {passes : List PassSeal}
    (ideal : Ideal c files passes) (lossless : c.Lossless) :
    (∀ side vk salt nonce info data,
      (∀ json, c.metaToJson side info = .ok json → json.length < 2 ^ 32) →
      ∃ s : FileSeal c, s.side = side ∧ s.vk = vk ∧ s.salt = salt ∧ s.nonce = nonce ∧
        s.info = info ∧ s.data = data) ∧
    (∀ s : FileSeal c,
      (s.side = .desktop → sealFile c s.vk s.salt s.nonce s.info s.data = .ok s.blob) ∧
      (s.side = .phone → sealFileBlob c s.vk s.salt s.nonce s.info s.data = .ok s.blob)) ∧
    (∀ s ∈ files, openFile c s.vk s.blob = .ok (s.info, s.data)) ∧
    (∀ passphrase profile salt nonce inner,
      (⟨passphrase, profile, salt, nonce, inner⟩ : PassSeal) ∈ passes →
      openPassphrase c passphrase (sealPassphrase c passphrase salt nonce inner profile) profile =
        .ok inner) ∧
    (∀ vk salt nonce info data blob, sealFile c vk salt nonce info data = .ok blob →
      isPassphraseWrapped blob = false) ∧
    (∀ passphrase salt nonce inner profile,
      isPassphraseWrapped (sealPassphrase c passphrase salt nonce inner profile) = true) ∧
    (∀ vk b, (∀ s ∈ files, s.blob ≠ b) → ∃ e, openFile c vk b = .err e) ∧
    (∀ passphrase profile b, (∀ s ∈ passes, s.blob c ≠ b) →
      ∃ e, openPassphrase c passphrase b profile = .err e) ∧
    (∀ vk b, openFile c vk b ≠ .trap) ∧
    (∀ passphrase b profile, openPassphrase c passphrase b profile ≠ .trap) ∧
    (∀ vk b, openFileBlob c vk b ≠ .trap ∧
      ∀ r, openFileBlob c vk b = .ok r ↔ openFile c vk b = .ok r) ∧
    ∀ pt, (∀ plain, c.zstdDecode .phone pt = .ok plain ↔ c.zstdDecode .desktop pt = .ok plain) →
      (∀ json info, c.metaFromJson .phone json = .ok info ↔
        c.metaFromJson .desktop json = .ok info) →
      ∀ r, phonePlain c pt = .ok r ↔ desktopPlain c pt = .ok r := by
  refine ⟨exists_fileSeal lossless, fun s => ⟨s.sealFile_eq, sealFileBlob_eq s⟩, ?_, ?_,
    fun _ _ _ _ _ _ => isPassphraseWrapped_sealFile, isPassphraseWrapped_sealPassphrase, ?_, ?_,
    openFile_ne_trap, openPassphrase_ne_trap, ?_,
    fun _ unpacked parsed r => readPlain_congr unpacked parsed r⟩
  · intro s member
    exact (ideal.openFile_iff lossless _ _ _).mpr ⟨s, member, rfl, rfl, rfl⟩
  · intro passphrase profile salt nonce inner member
    exact (ideal.openUnder_pass _ _ _ _).mpr ⟨_, member, rfl, rfl, rfl, rfl⟩
  · intro vk b foreign
    cases opened : openFile c vk b with
    | ok r =>
        obtain ⟨s, member, -, blob, -⟩ := (ideal.openFile_iff lossless _ _ _).mp opened
        exact absurd blob (foreign s member)
    | err e => exact ⟨e, rfl⟩
    | trap => exact absurd opened (openFile_ne_trap vk b)
  · intro passphrase profile b foreign
    cases opened : openPassphrase c passphrase b profile with
    | ok inner =>
        obtain ⟨s, member, -, -, blob, -⟩ := (ideal.openUnder_pass _ _ _ _).mp opened
        exact absurd blob (foreign s member)
    | err e => exact ⟨e, rfl⟩
    | trap => exact absurd opened (openPassphrase_ne_trap passphrase b profile)
  · intro vk b
    refine ⟨openFileBlob_ne_trap ideal vk b, fun r => ?_⟩
    rw [openFileBlob_iff ideal lossless, ideal.openFile_iff lossless]

end Suite

/-! ## One file under a passphrase -/

/-- A text of two byte strings: the bytes of the first are marked. -/
def joinTexts (s t : Bytes) : Bytes := s.flatMap (fun b => [1, b]) ++ 0 :: t

def splitTexts : Bytes → Bytes × Bytes
  | 1 :: b :: rest => (b :: (splitTexts rest).1, (splitTexts rest).2)
  | _ :: rest => ([], rest)
  | [] => ([], [])

theorem splitTexts_joinTexts (s t : Bytes) : splitTexts (joinTexts s t) = (s, t) := by
  induction s with
  | nil => rfl
  | cons b s ih =>
      change splitTexts (1 :: b :: joinTexts s t) = _
      rw [splitTexts, ih]

def writeInfo (info : FileMeta) : Bytes := joinTexts (asBytes info.filename) (asBytes info.mime)

def readInfo (text : Bytes) : Except String FileMeta :=
  match fromUtf8 (splitTexts text).1, fromUtf8 (splitTexts text).2 with
  | some filename, some mime => .ok ⟨filename, mime⟩
  | _, _ => .error "not utf-8"

theorem readInfo_writeInfo (info : FileMeta) : readInfo (writeInfo info) = .ok info := by
  rw [readInfo, writeInfo, splitTexts_joinTexts, fromUtf8_asBytes, fromUtf8_asBytes]

/-- A writer with one recorded text. Every other value is written by `write`, behind a zero. -/
def recordedWrite {α : Type} [DecidableEq α] (value : α) (text : Bytes) (write : α → Bytes)
    (a : α) : Except String Bytes :=
  .ok (if a = value then text else 0 :: write a)

/-- Its reader. -/
def recordedRead {α : Type} (value : α) (text : Bytes) (read : Bytes → Except String α)
    (b : Bytes) : Except String α :=
  if b = text then .ok value
  else if b.head? = some 0 then read b.tail
  else .error "not recorded"

theorem recordedRead_recordedWrite {α : Type} [DecidableEq α] {value : α} {text : Bytes}
    {write : α → Bytes} {read : Bytes → Except String α} (marked : text.head? ≠ some 0)
    (back : ∀ a, read (write a) = .ok a) (a : α) :
    ∃ b, recordedWrite value text write a = .ok b ∧ recordedRead value text read b = .ok a := by
  refine ⟨_, rfl, ?_⟩
  by_cases same : a = value
  · rw [if_pos same, recordedRead, if_pos rfl, same]
  · rw [if_neg same, recordedRead, if_neg, if_pos List.head?_cons]
    · exact back a
    · rintro rfl
      exact marked List.head?_cons

def sampleVk : VaultKey := List.replicate 32 7

def sampleSalt : Salt16 := ⟨List.replicate 16 5, rfl⟩

def sampleNonce : Nonce24 := ⟨List.replicate 24 6, rfl⟩

def sampleInfo : FileMeta := ⟨"report.pdf", "application/pdf"⟩

def sampleJson : Bytes :=
  asBytes "\x7b\"filename\":\"report.pdf\",\"mime\":\"application/pdf\"\x7d"

def samplePlain : Bytes := filePlain sampleJson [1, 2, 3]

/-- The zstd frame of it: one raw block. -/
def sampleFrame : Bytes := [40, 181, 47, 253, 0, 88, 201, 1, 0] ++ samplePlain

/-- HKDF of the vault key for the file. -/
def sampleFileKey : Key32 :=
  [167, 19, 216, 4, 189, 153, 193, 88, 238, 99, 92, 109, 240, 184, 252, 213, 155, 223, 127, 77,
   194, 31, 75, 95, 70, 182, 193, 187, 206, 90, 78, 17]

/-- Argon2id of `open sesame` with the salt. -/
def samplePassKey : Key32 :=
  [240, 188, 7, 151, 145, 83, 181, 180, 248, 146, 46, 69, 73, 92, 74, 249, 95, 114, 92, 48, 43,
   241, 193, 77, 68, 11, 157, 212, 231, 137, 156, 168]

/-- A recorded key, or what a key that is not recorded is derived from. -/
abbrev SampleKey := Key32 ⊕ (Bytes × Bytes × Option Argon2Profile)

/-- The frame under the key of the file, and two bytes under the passphrase. -/
def sampleTable : List (Sealing.Call SampleKey Bytes Bytes × Bytes) :=
  [(⟨.inl sampleFileKey, header sfilTag ++ sampleSalt.bytes, sampleNonce.bytes, sampleFrame⟩,
      [107, 86, 58, 19, 110, 127, 139, 170, 212, 114, 40, 72, 178, 57, 182, 69, 223, 70, 21, 92,
       156, 254, 55, 208, 121, 66, 201, 181, 151, 69, 115, 66, 51, 72, 57, 151, 153, 80, 148, 212,
       41, 18, 234, 157, 55, 100, 125, 150, 196, 126, 102, 215, 136, 170, 80, 188, 88, 112, 66,
       178, 113, 240, 10, 213, 70, 242, 76, 169, 125, 191, 199, 255, 74, 16, 135, 157, 147, 0, 10,
       200, 31, 23]),
    (⟨.inl samplePassKey, header spasTag ++ sampleSalt.bytes, sampleNonce.bytes, [9, 9]⟩,
      [173, 150, 2, 78, 126, 155, 174, 72, 121, 171, 190, 215, 56, 132, 42, 16, 88, 131])]

/-- What stands for a sealed text that is not recorded. -/
def spareText (plain : Bytes) : Bytes := plain ++ List.replicate 16 0

def sampleAead : Sealing.Aead SampleKey Bytes Bytes := .recorded sampleTable spareText

/-- The third-party code as recorded for one file and one passphrase; where nothing is recorded,
what keeps the derivations injective and the writers lossless. -/
def sampleSuite : TransferSuite SampleKey where
  hkdf32 vk salt :=
    if vk = sampleVk ∧ salt = sampleSalt.bytes then .inl sampleFileKey else .inr (vk, salt, none)
  argon2idKek p salt profile :=
    if p = asBytes "open sesame" ∧ salt = sampleSalt.bytes ∧ profile = .production then
      .inl samplePassKey
    else .inr (p, salt, some profile)
  aeadSeal := sampleAead.sealed
  aeadOpen := sampleAead.opened
  zstdEncode _ := recordedWrite samplePlain sampleFrame id
  zstdDecode _ := recordedRead samplePlain sampleFrame .ok
  metaToJson _ := recordedWrite sampleInfo sampleJson writeInfo
  metaFromJson _ := recordedRead sampleInfo sampleJson readInfo

def sampleFile : FileSeal sampleSuite where
  side := .desktop
  vk := sampleVk
  salt := sampleSalt
  nonce := sampleNonce
  info := sampleInfo
  data := [1, 2, 3]
  json := sampleJson
  compressed := sampleFrame
  json_eq := congrArg Except.ok (if_pos rfl)
  small := by decide +kernel
  compressed_eq := congrArg Except.ok (if_pos rfl)

def samplePass : PassSeal := ⟨"open sesame", .production, sampleSalt, sampleNonce, [9, 9]⟩

theorem lossless_sampleSuite : sampleSuite.Lossless where
  zstd side plain := by
    obtain ⟨packed, written, read⟩ : ∃ packed,
        recordedWrite samplePlain sampleFrame id plain = .ok packed ∧
        recordedRead samplePlain sampleFrame .ok packed = .ok plain :=
      recordedRead_recordedWrite (by decide) (fun _ => rfl) plain
    exact ⟨packed, written, fun _ => read⟩
  json side info := by
    obtain ⟨text, written, read⟩ : ∃ text,
        recordedWrite sampleInfo sampleJson writeInfo info = .ok text ∧
        recordedRead sampleInfo sampleJson readInfo text = .ok info :=
      recordedRead_recordedWrite (by decide +kernel) readInfo_writeInfo info
    exact ⟨text, written, fun _ => read⟩

/-- The uses that are recorded are those of the file and the passphrase. -/
theorem mem_sampleTable (key : SampleKey) (aad nonce pt : Bytes) :
    (⟨key, aad, nonce, pt⟩ : Sealing.Call SampleKey Bytes Bytes) ∈
        {call | ∃ ct, (call, ct) ∈ sampleTable} ↔
      (⟨key, aad, nonce, pt⟩ : Call SampleKey) ∈
        [sampleFile].map FileSeal.call ++ [samplePass].map (PassSeal.call sampleSuite) := by
  have fileKey : sampleSuite.hkdf32 sampleVk sampleSalt.bytes = .inl sampleFileKey := by
    simp only [sampleSuite, and_self, if_true]
  have passKey : sampleSuite.argon2idKek (asBytes "open sesame") sampleSalt.bytes .production =
      .inl samplePassKey := by
    simp only [sampleSuite, and_self, if_true]
  have file : sampleFile.call = ⟨.inl sampleFileKey, header sfilTag ++ sampleSalt.bytes,
    sampleNonce.bytes, sampleFrame⟩ := congrArg (Call.mk · _ _ _) fileKey
  have pass : samplePass.call sampleSuite = ⟨.inl samplePassKey, header spasTag ++ sampleSalt.bytes,
    sampleNonce.bytes, [9, 9]⟩ := congrArg (Call.mk · _ _ _) passKey
  simp only [List.map_cons, List.map_nil, file, pass, sampleTable, Set.mem_ofPred_eq,
    List.mem_cons, List.not_mem_nil, or_false, Prod.mk.injEq, Sealing.Call.mk.injEq,
    List.cons_append, List.nil_append, Call.mk.injEq, exists_or, exists_and_left, exists_eq,
    and_true]

theorem ideal_sampleSuite : Ideal sampleSuite [sampleFile] [samplePass] where
  open_iff key aad nonce ct pt := by
    have ideal : sampleAead.Ideal {call | ∃ ct, (call, ct) ∈ sampleTable} :=
      Sealing.Aead.ideal_recorded (by decide +kernel) (by decide +kernel)
    exact (ideal.opened_iff key aad nonce ct pt).trans
      (and_congr_left fun _ => mem_sampleTable key aad nonce pt)
  seal_length key aad nonce pt := by
    obtain ⟨ct, mem, text⟩ | ⟨-, text⟩ :=
      Sealing.Aead.recorded_cases sampleTable spareText ⟨key, aad, nonce, pt⟩
    · have lengths : ∀ e ∈ sampleTable, e.2.length = e.1.plain.length + 16 := by decide +kernel
      exact (congrArg List.length text).trans (lengths _ mem)
    · exact (congrArg List.length text).trans List.length_append
  hkdf vk salt vk' salt' eq := by
    simp only [sampleSuite] at eq
    split at eq <;> split at eq
    · rename_i own own'
      exact ⟨own.1.trans own'.1.symm, own.2.trans own'.2.symm⟩
    · cases eq
    · cases eq
    · cases eq
      exact ⟨rfl, rfl⟩
  argon p salt profile p' salt' profile' eq := by
    simp only [sampleSuite] at eq
    split at eq <;> split at eq
    · rename_i own own'
      obtain ⟨rfl, rfl, rfl⟩ := own
      obtain ⟨rfl, rfl, rfl⟩ := own'
      exact ⟨rfl, rfl, rfl⟩
    · cases eq
    · cases eq
    · cases eq
      exact ⟨rfl, rfl, rfl⟩

/-- The file opens on the phone as it was sealed. -/
theorem transfer_blobs_sample : openFileBlob sampleSuite sampleVk sampleFile.blob =
    .ok (sampleInfo, [1, 2, 3]) := by
  have opened := (ideal_sampleSuite.openFile_iff lossless_sampleSuite sampleVk _ _).mpr
    ⟨sampleFile, List.mem_cons_self, rfl, rfl, rfl⟩
  obtain ⟨-, -, -, -, -, -, -, -, -, -, phone, -⟩ :=
    transfer_blobs ideal_sampleSuite lossless_sampleSuite
  exact ((phone sampleVk sampleFile.blob).2 _).mpr opened

end Sentinel.Phone
