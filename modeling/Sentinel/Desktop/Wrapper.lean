import Sentinel.Api.Text
import Sentinel.Vault.Document
import Sentinel.Vault.Totp

/-!
# Keys and wrapped keys

`crates/core/src/keyring`: a vault key is sealed under a key-encryption key as
`"SNTL" | 0x01 | wrapper_type | params_len u16 LE | params | nonce(24) | ct(48)`, with
everything up to the parameters as associated data. The master-password wrapper derives its
key with Argon2id from the password and the salt in the parameters.

`Suite` is the outside code of the desktop: that of the vault, Argon2id, the one-time codes,
and the parsers of recovery codes, device-join codes and ids.
-/

namespace Sentinel.Desktop

open Vault

/-- `keyring::VaultKey`: 32 bytes. -/
@[ext] structure Key where
  bytes : Bytes
  length : bytes.length = 32
  deriving Repr

instance decidableEqKey : DecidableEq Key := fun _ _ =>
  decidable_of_iff _ Key.ext_iff.symm

/-- `sync::JoinBundle`: what a device-join code carries. -/
structure JoinBundle where
  v : Nat
  ip : String
  cert : String
  token : String
  vkey : String
  deriving DecidableEq, Repr

structure Suite extends Codec, TotpEngine where
  argon2idKek : Bytes → Bytes → Key32
  recoveryKitDecode : String → Except String Bytes
  base64Error : String → String
  urlSafeDecode : String → Option Bytes
  joinBundleFromJson : Bytes → Option JoinBundle
  parseUuid : String → Option ItemId

/-- `Display for CoreError`, on the variants of the vault. -/
def display : CoreError → String
  | .decrypt => "decryption failed (wrong key or corrupted data)"
  | .format what detail => "malformed " ++ what ++ ": " ++ detail
  | .state what => "invalid state: " ++ what
  | .io detail => "io error: " ++ detail
  | .serde detail => "serialization error: " ++ detail
  | .storage detail => "storage error: " ++ detail

inductive WrapperType where
  | platform | phone | recovery | password
  deriving DecidableEq, Repr

namespace WrapperType

def code : WrapperType → UInt8
  | platform => 1
  | phone => 2
  | recovery => 3
  | password => 4

def fromCode (b : UInt8) : Except CoreError WrapperType :=
  if b = 1 then .ok platform
  else if b = 2 then .ok phone
  else if b = 3 then .ok recovery
  else if b = 4 then .ok password
  else .error (.format "wrapped blob" s!"unknown wrapper_type {b}")

@[simp] theorem fromCode_code (w : WrapperType) : fromCode w.code = .ok w := by
  cases w <;> rfl

end WrapperType

/-- `WrappedBlob`: the wrapper the blob is taken for, and its bytes. -/
structure WrappedBlob where
  wrapper : WrapperType
  bytes : Bytes
  deriving DecidableEq, Repr

/-- `b"SNTL"`. -/
def wrapMagic : Bytes := [0x53, 0x4e, 0x54, 0x4c]

namespace WrappedBlob

/-- Magic to parameters: the front of the blob and its associated data. -/
def header (wrapper : WrapperType) (params : Bytes) : Bytes :=
  wrapMagic ++ [0x01, wrapper.code] ++ leBytes 2 params.length ++ params

/-- `WrappedBlob::seal`; the nonce is the one the random source gave. -/
def sealKey (c : Suite) (wrapper : WrapperType) (kek : Key32) (params : Bytes) (nonce : Nonce24)
    (vk : Key) : WrappedBlob where
  wrapper := wrapper
  bytes := header wrapper params ++ nonce.bytes ++
    c.aeadSeal kek (header wrapper params) nonce vk.bytes

/-- The parts of a blob: header, parameters, nonce, ciphertext. -/
structure Parts where
  header : Bytes
  params : Bytes
  nonce : Nonce24
  ct : Bytes

/-- `parse`. -/
def parse (blob : WrappedBlob) : Except CoreError Parts :=
  let b := blob.bytes
  if b.length < 8 then .error (.format "wrapped blob" "too short")
  else if b.take 4 ≠ wrapMagic then .error (.format "wrapped blob" "bad magic")
  else if b.getD 4 0 ≠ 0x01 then
    .error (.format "wrapped blob" s!"unsupported version {b.getD 4 0}")
  else do
    let wt ← WrapperType.fromCode (b.getD 5 0)
    if wt ≠ blob.wrapper then throw (.format "wrapped blob" "wrapper_type mismatch")
    let headerEnd := 8 + leNat ((b.drop 6).take 2)
    if exact : b.length = headerEnd + 24 + 48 then
      pure
        { header := b.take headerEnd
          params := (b.take headerEnd).drop 8
          nonce := ⟨(b.drop headerEnd).take 24, by
            simp only [List.length_take, List.length_drop]; omega⟩
          ct := b.drop (headerEnd + 24) }
    else throw (.format "wrapped blob" "bad length")

/-- `open`, with the key-encryption key that the wrapper derived. -/
def openKey (c : Suite) (blob : WrappedBlob) (kek : Key32) : Except CoreError Key := do
  let parts ← blob.parse
  let pt ← (c.aeadOpen kek parts.header parts.nonce parts.ct).elim (.error .decrypt) .ok
  if whole : pt.length = 32 then pure ⟨pt, whole⟩
  else throw (.format "wrapped blob" "unwrapped key not 32 bytes")

/-- What reading back a header needs to know of it. -/
theorem header_eq (wrapper : WrapperType) (params rest : Bytes) :
    header wrapper params ++ rest =
      0x53 :: 0x4e :: 0x54 :: 0x4c :: 0x01 :: wrapper.code ::
        (leBytes 2 params.length ++ params ++ rest) := by
  simp [header, wrapMagic]

theorem length_header (wrapper : WrapperType) (params : Bytes) :
    (header wrapper params).length = 8 + params.length := by
  simp [header, wrapMagic]
  omega

/-- A header, a nonce and 48 bytes are read back as they were put together. -/
theorem parse_append (wrapper : WrapperType) {params : Bytes} (short : params.length < 65536)
    (nonce : Nonce24) {ct : Bytes} (ctLen : ct.length = 48) :
    (WrappedBlob.mk wrapper (header wrapper params ++ nonce.bytes ++ ct)).parse =
      .ok { header := header wrapper params, params, nonce, ct } := by
  have len := length_header wrapper params
  have size : leNat (leBytes 2 params.length) = params.length := by
    rw [leNat_leBytes]
    omega
  have total : (header wrapper params ++ nonce.bytes ++ ct).length = 8 + params.length + 24 + 48 := by
    simp only [List.length_append, len, nonce.length, ctLen]
  have front : (header wrapper params ++ nonce.bytes ++ ct).take (8 + params.length) =
      header wrapper params := by
    rw [List.append_assoc, ← len, List.take_left]
  have middle : ((header wrapper params ++ nonce.bytes ++ ct).drop (8 + params.length)).take 24 =
      nonce.bytes := by
    rw [List.append_assoc, ← len, List.drop_left, ← nonce.length, List.take_left]
  have back : (header wrapper params ++ nonce.bytes ++ ct).drop (8 + params.length + 24) = ct := by
    have both : (header wrapper params ++ nonce.bytes).length = 8 + params.length + 24 := by
      rw [List.length_append, len, nonce.length]
    rw [← both, List.drop_left]
  have inner : (header wrapper params).drop 8 = params := by
    have eight : (wrapMagic ++ [0x01, wrapper.code] ++ leBytes 2 params.length).length = 8 := by
      simp [wrapMagic]
    rw [header, ← eight, List.drop_left]
  have lengthField : ((header wrapper params ++ nonce.bytes ++ ct).drop 6).take 2 =
      leBytes 2 params.length := by
    rw [List.append_assoc, header_eq]
    simp only [List.drop_succ_cons, List.drop_zero, List.append_assoc]
    rw [← length_leBytes 2 params.length]
    exact List.take_left
  have magic : (header wrapper params ++ nonce.bytes ++ ct).take 4 = wrapMagic := by
    rw [List.append_assoc, header_eq]
    rfl
  have version : (header wrapper params ++ nonce.bytes ++ ct).getD 4 0 = 0x01 := by
    rw [List.append_assoc, header_eq]
    rfl
  have kind : (header wrapper params ++ nonce.bytes ++ ct).getD 5 0 = wrapper.code := by
    rw [List.append_assoc, header_eq]
    rfl
  have long : ¬ (header wrapper params ++ nonce.bytes ++ ct).length < 8 := by omega
  unfold parse
  simp only [if_neg long, magic, version, kind, lengthField, size, ne_eq, not_true_eq_false,
    if_false, WrapperType.fromCode_code, bind, Except.bind, dif_pos total, pure, Except.pure,
    front, inner, back, middle]

/-- A sealed key opens under the key-encryption key it was sealed with. -/
theorem openKey_sealKey {c : Suite} (correct : c.toCrypto.Correct) (wrapper : WrapperType)
    (kek : Key32) {params : Bytes} (short : params.length < 65536) (nonce : Nonce24) (vk : Key) :
    (sealKey c wrapper kek params nonce vk).openKey c kek = .ok vk := by
  have ctLen := correct.seal_length kek (header wrapper params) nonce vk.bytes
  rw [vk.length] at ctLen
  have parts := parse_append wrapper short nonce ctLen
  unfold openKey sealKey
  rw [parts]
  simp only [bind, Except.bind, correct.open_seal, Option.elim, dif_pos vk.length]
  rfl

end WrappedBlob

/-- `applock::open_with_password`: derive the key from the salt in the blob and open it. -/
def openWithPassword (c : Suite) (blob : WrappedBlob) (password : String) : Except String Key := do
  let parts ← blob.parse.mapError fun e => "wrap: " ++ display e
  if parts.params.length ≠ 16 then throw "corrupt password wrapper (bad salt)"
  let kek := c.argon2idKek (Api.utf8 password) parts.params
  (blob.openKey c kek).mapError fun _ => "wrong password"

/-- `PasswordWrapper::unwrap`. -/
def passwordUnwrap (c : Suite) (password : String) (blob : WrappedBlob) : Except CoreError Key := do
  let parts ← blob.parse
  if parts.params.length ≠ 16 then
    throw (.format "password blob" "params must be a 16-byte salt")
  blob.openKey c (c.argon2idKek (Api.utf8 password) parts.params)

/-- `RecoveryWrapper::unwrap`. -/
def recoveryUnwrap (c : Suite) (key : Bytes) (blob : WrappedBlob) : Except CoreError Key := do
  let parts ← blob.parse
  if parts.params.length ≠ 16 then
    throw (.format "recovery blob" "params must be a 16-byte salt")
  blob.openKey c (c.hkdf32 (c.argon2idKek key parts.params) none .wrapRecovery)

/-- The bytes are a master-password wrapper that the password opens to the key. -/
def Opens (c : Suite) (bytes : Bytes) (password : String) (vk : Key) : Prop :=
  openWithPassword c ⟨.password, bytes⟩ password = .ok vk

instance (c : Suite) (bytes : Bytes) (password : String) (vk : Key) :
    Decidable (Opens c bytes password vk) :=
  inferInstanceAs (Decidable (openWithPassword c ⟨.password, bytes⟩ password = .ok vk))

/-- A sealed text opens to nothing else, under whatever key. -/
def Committing (c : Crypto) : Prop :=
  ∀ key key' aad nonce pt pt',
    c.aeadOpen key' aad nonce (c.aeadSeal key aad nonce pt) = some pt' → pt' = pt

section Opens

variable {c : Suite}

theorem opens_iff {bytes : Bytes} {password : String} {vk : Key} :
    Opens c bytes password vk ↔ passwordUnwrap c password ⟨.password, bytes⟩ = .ok vk := by
  unfold Opens openWithPassword passwordUnwrap
  cases WrappedBlob.parse ⟨.password, bytes⟩ with
  | error e => exact ⟨nofun, nofun⟩
  | ok parts =>
      simp only [Except.mapError, bind, Except.bind]
      split
      · exact ⟨nofun, nofun⟩
      · cases WrappedBlob.openKey c ⟨.password, bytes⟩ _ with
        | error e => exact ⟨nofun, nofun⟩
        | ok k => simp only [Except.ok.injEq]

/-- The wrapper that `seal_new` makes. -/
def passwordBlob (c : Suite) (password : String) (salt : Bytes) (nonce : Nonce24) (vk : Key) :
    Bytes :=
  (WrappedBlob.sealKey c .password (c.argon2idKek (Api.utf8 password) salt) salt nonce vk).bytes

theorem parse_passwordBlob (correct : c.toCrypto.Correct) (password : String) {salt : Bytes}
    (sixteen : salt.length = 16) (nonce : Nonce24) (vk : Key) :
    (WrappedBlob.mk .password (passwordBlob c password salt nonce vk)).parse =
      .ok { header := WrappedBlob.header .password salt
            params := salt
            nonce := nonce
            ct := c.aeadSeal (c.argon2idKek (Api.utf8 password) salt)
              (WrappedBlob.header .password salt) nonce vk.bytes } := by
  have ctLen := correct.seal_length (c.argon2idKek (Api.utf8 password) salt)
    (WrappedBlob.header .password salt) nonce vk.bytes
  rw [vk.length] at ctLen
  exact WrappedBlob.parse_append .password (by omega) nonce ctLen

theorem opens_passwordBlob (correct : c.toCrypto.Correct) (password : String) {salt : Bytes}
    (sixteen : salt.length = 16) (nonce : Nonce24) (vk : Key) :
    Opens c (passwordBlob c password salt nonce vk) password vk := by
  have opened := WrappedBlob.openKey_sealKey correct .password
    (c.argon2idKek (Api.utf8 password) salt) (by omega : salt.length < 65536) nonce vk
  rw [opens_iff, passwordUnwrap, parse_passwordBlob correct password sixteen]
  simp only [bind, Except.bind, sixteen, ne_eq, not_true_eq_false, if_false]
  exact opened

/-- No password opens the wrapper to another key. -/
theorem eq_of_opens_passwordBlob (correct : c.toCrypto.Correct) (committing : Committing c.toCrypto)
    {password password' : String} {salt : Bytes} (sixteen : salt.length = 16) {nonce : Nonce24}
    {vk vk' : Key} (opens : Opens c (passwordBlob c password salt nonce vk) password' vk') :
    vk' = vk := by
  have parts := parse_passwordBlob correct password sixteen nonce vk
  rw [opens_iff, passwordUnwrap, parts] at opens
  simp only [bind, Except.bind, sixteen, ne_eq, not_true_eq_false, if_false] at opens
  rw [WrappedBlob.openKey, parts] at opens
  simp only [bind, Except.bind] at opens
  cases pt : c.aeadOpen (c.argon2idKek (Api.utf8 password') salt)
      (WrappedBlob.header .password salt) nonce
      (c.aeadSeal (c.argon2idKek (Api.utf8 password) salt)
        (WrappedBlob.header .password salt) nonce vk.bytes) with
  | none =>
      rw [pt] at opens
      cases opens
  | some bytes =>
      rw [pt] at opens
      have same := committing _ _ _ _ _ _ pt
      subst same
      simp only [Option.elim, dif_pos vk.length] at opens
      cases opens
      exact Key.ext rfl

end Opens

/-- The text of a key in the keychain. -/
def keyText (vk : Key) : String := Base64.encode vk.bytes

/-- The key of a keychain text. -/
def decodeKey (c : Suite) (text : String) : Except String Key :=
  match Base64.decode (Api.trim text) with
  | none => .error ("decode stored key: " ++ c.base64Error (Api.trim text))
  | some bytes =>
      if whole : bytes.length = 32 then .ok ⟨bytes, whole⟩
      else .error "stored vault key is not 32 bytes"

theorem isWhitespace_digit (n : Nat) : Api.isWhitespace (Base64.digit n) = false := by
  have all : (Base64.alphabet.all fun ch => !Api.isWhitespace ch) = true := by decide +kernel
  rw [Base64.digit, List.getD_eq_getElem?_getD]
  cases found : Base64.alphabet[n]? with
  | none => decide
  | some ch =>
      have blank := List.all_eq_true.mp all ch (List.mem_of_getElem? found)
      rwa [Bool.not_eq_true'] at blank

theorem isWhitespace_encodeChars (bytes : Bytes) :
    ∀ ch ∈ Base64.encodeChars bytes, Api.isWhitespace ch = false := by
  have pad : Api.isWhitespace '=' = false := by decide
  induction bytes using Base64.encodeChars.induct with
  | case1 a b c rest ih =>
      simp only [Base64.encodeChars, List.forall_mem_cons, isWhitespace_digit, true_and]
      exact ih
  | case2 a b => simp [Base64.encodeChars, isWhitespace_digit, pad]
  | case3 a => simp [Base64.encodeChars, isWhitespace_digit, pad]
  | case4 => simp [Base64.encodeChars]

/-- A text without white space is its own trimming. -/
theorem trim_eq_self {text : String} (none_ : ∀ ch ∈ text.toList, Api.isWhitespace ch = false) :
    Api.trim text = text := by
  refine String.toList_injective ?_
  rw [Api.toList_trim]
  exact Lines.strip_of_bare ⟨fun ch first => none_ ch (List.mem_of_head? first),
    fun ch last => none_ ch (List.mem_of_getLast? last)⟩

theorem trim_keyText (vk : Key) : Api.trim (keyText vk) = keyText vk := by
  refine trim_eq_self ?_
  rw [keyText, Base64.encode, String.toList_ofList]
  exact isWhitespace_encodeChars vk.bytes

@[simp] theorem decodeKey_keyText (c : Suite) (vk : Key) : decodeKey c (keyText vk) = .ok vk := by
  have read : Base64.decode (Api.trim (keyText vk)) = some vk.bytes := by
    rw [trim_keyText, keyText, Base64.decode_encode]
  unfold decodeKey
  rw [read]
  simp only [dif_pos vk.length]

end Sentinel.Desktop
