import Sentinel.Lib.Sealing
import Sentinel.Vault.TotpMachine

/-!
# The pairing channel

`crates/core/src/pairing/channel.rs` and its mirror on the phone,
`apps/ios-key/NorthKey/Crypto/Channel.swift`: both sides agree on a secret, hash the transcript of
the pairing, and derive one key for each direction. A message is sealed as
`nonce(12) | ciphertext | tag(16)` with the associated data `"pair"`.

The curve, the hash, the key derivation and the AEAD are third-party code, `PairSuite`. `Ideal`
says what is assumed of them: both sides agree, no two uses of the key derivation give one key, and
the AEAD opens the messages of a log and nothing else. Under it a pairing has one channel, seen
from both ends and in both implementations, and a message passes in one direction of one channel.
-/

namespace Sentinel.Pairing

open Vault

/-- Twelve random bytes. -/
structure Nonce12 where
  bytes : Bytes
  length : bytes.length = 12
  deriving DecidableEq, Repr

/-- The third-party code under the channel. -/
structure PairSuite (Secret Point Shared Key : Type) where
  publicKey : Secret → Point
  /-- `to_sec1_bytes`, `x963Representation` -/
  sec1 : Point → Bytes
  diffieHellman : Secret → Point → Shared
  sha256 : Bytes → Bytes
  hkdf32 : Shared → Bytes → String → Key
  aeadSeal : Key → Bytes → Nonce12 → Bytes → Bytes
  aeadOpen : Key → Bytes → Nonce12 → Bytes → Option Bytes

/-- The info strings of `Info::as_str` for the channel. -/
inductive Info where
  | pairChannelDesktopToPhone | pairChannelPhoneToDesktop
  deriving DecidableEq, Repr

def Info.asStr : Info → String
  | pairChannelDesktopToPhone => "sentinel/v1/pair/chan/desktop->phone"
  | pairChannelPhoneToDesktop => "sentinel/v1/pair/chan/phone->desktop"

/-- Which side of the channel we are. -/
inductive Role where
  | desktop | phone
  deriving DecidableEq, Repr

def Role.peer : Role → Role
  | desktop => phone
  | phone => desktop

/-- `transcript`. -/
def transcript (qrPayload desktopPub phonePub : Bytes) : Bytes := qrPayload ++ desktopPub ++ phonePub

/-- `verification_code`. -/
def verificationCode (sha256 : Bytes → Bytes) (transcript : Bytes) : String :=
  let d := sha256 transcript
  let byte : Nat → Nat := fun i => (d.getD i 0).toNat
  let n := byte 0 * 2 ^ 24 + byte 1 * 2 ^ 16 + byte 2 * 2 ^ 8 + byte 3
  TotpSecret.padded 6 (n % 1000000)

/-- The keys of the two directions. -/
structure Channel (Key : Type) where
  sendKey : Key
  recvKey : Key

/-- `b"pair"`. -/
def pairAad : Bytes := [0x70, 0x61, 0x69, 0x72]

/-- `CoreError`, on the variants of `open`. -/
inductive BoxError where
  | format (what detail : String)
  | decrypt
  deriving DecidableEq, Repr

/-- `nonce(12) | ct`, the combined box of CryptoKit. -/
def boxFormat : Sealing.Format Nonce12 Bytes Unit where
  Fits _ ct := 16 ≤ ct.length
  join _ nonce ct := nonce.bytes ++ ct
  split b :=
    if long : 12 + 16 ≤ b.length then
      some ((), ⟨b.take 12, by rw [List.length_take]; omega⟩, b.drop 12)
    else none
  split_iff := by
    intro b _ nonce ct
    constructor
    · intro cut
      split at cut
      · obtain ⟨-, rest⟩ := Prod.mk.inj (Option.some.inj cut)
        obtain ⟨rfl, rfl⟩ := Prod.mk.inj rest
        exact ⟨by rw [List.length_drop]; omega, List.take_append_drop 12 b⟩
      · cases cut
    · rintro ⟨tag, rfl⟩
      have long : 12 + 16 ≤ (nonce.bytes ++ ct).length := by
        rw [List.length_append, nonce.length]
        omega
      refine (dif_pos long).trans ?_
      simp only [List.take_left' nonce.length, List.drop_left' nonce.length]

section Suite

variable {Secret Point Shared Key : Type} (c : PairSuite Secret Point Shared Key)

/-- `Channel::establish`. -/
def Channel.establish (role : Role) (my : Secret) (peerPub : Point) (transcript : Bytes) :
    Channel Key :=
  let x := c.diffieHellman my peerPub
  let salt := c.sha256 transcript
  let d2p := c.hkdf32 x salt Info.pairChannelDesktopToPhone.asStr
  let p2d := c.hkdf32 x salt Info.pairChannelPhoneToDesktop.asStr
  match role with
  | .desktop => { sendKey := d2p, recvKey := p2d }
  | .phone => { sendKey := p2d, recvKey := d2p }

/-- `seal`; the nonce is the one the random source gave. -/
def Channel.seal_ (ch : Channel Key) (nonce : Nonce12) (plaintext : Bytes) : Bytes :=
  nonce.bytes ++ c.aeadSeal ch.sendKey pairAad nonce plaintext

/-- `open`. -/
def Channel.open_ (ch : Channel Key) (combined : Bytes) : Except BoxError Bytes :=
  if long : 12 + 16 ≤ combined.length then
    (c.aeadOpen ch.recvKey pairAad ⟨combined.take 12, by rw [List.length_take]; omega⟩
      (combined.drop 12)).elim (.error .decrypt) .ok
  else .error (.format "pair box" "too short")

/-! ## The phone -/

namespace Phone

/-- `ChannelInfo`. -/
def desktopToPhone : String := "sentinel/v1/pair/chan/desktop->phone"

def phoneToDesktop : String := "sentinel/v1/pair/chan/phone->desktop"

/-- `PairingChannel.transcript`. -/
def transcript (qrPayload desktopPubSEC1 phonePubSEC1 : Bytes) : Bytes :=
  [] ++ qrPayload ++ desktopPubSEC1 ++ phonePubSEC1

/-- `PairingChannel.verificationCode`. -/
def verificationCode (sha256 : Bytes → Bytes) (transcript : Bytes) : String :=
  let bytes := sha256 transcript
  let n := ((bytes.getD 0 0).toNat <<< 24 ||| (bytes.getD 1 0).toNat <<< 16 |||
    (bytes.getD 2 0).toNat <<< 8 ||| (bytes.getD 3 0).toNat) % 1000000
  TotpSecret.padded 6 n

/-- `PairingChannel.init`. -/
def pairingChannel (role : Role) (sharedSecret : Shared) (transcript : Bytes) : Channel Key :=
  let salt := c.sha256 transcript
  let d2p := c.hkdf32 sharedSecret salt desktopToPhone
  let p2d := c.hkdf32 sharedSecret salt phoneToDesktop
  match role with
  | .desktop => { sendKey := d2p, recvKey := p2d }
  | .phone => { sendKey := p2d, recvKey := d2p }

/-- What `open` of the phone throws. -/
inductive CryptoKitError where
  | incorrectParameterSize | authenticationFailure
  deriving DecidableEq, Repr

/-- `PairingChannel.seal`. -/
def seal_ (ch : Channel Key) (nonce : Nonce12) (plaintext : Bytes) : Bytes :=
  nonce.bytes ++ c.aeadSeal ch.sendKey pairAad nonce plaintext

/-- `PairingChannel.open`: the box checks its size, then the AEAD opens it. -/
def open_ (ch : Channel Key) (combined : Bytes) : Except CryptoKitError Bytes :=
  if long : 12 + 16 ≤ combined.length then
    (c.aeadOpen ch.recvKey pairAad ⟨combined.take 12, by rw [List.length_take]; omega⟩
      (combined.drop 12)).elim (.error .authenticationFailure) .ok
  else .error .incorrectParameterSize

end Phone

end Suite

/-! ## One transcript -/

/-- The transcript determines its three parts if public keys have 65 bytes. -/
theorem transcript_inj {qr qr' desktop desktop' phone phone' : Bytes} (length : desktop.length = 65)
    (length' : desktop'.length = 65) (lengthPhone : phone.length = 65)
    (lengthPhone' : phone'.length = 65)
    (same : transcript qr desktop phone = transcript qr' desktop' phone') :
    qr = qr' ∧ desktop = desktop' ∧ phone = phone' := by
  obtain ⟨front, phones⟩ := List.append_inj' same (lengthPhone.trans lengthPhone'.symm)
  obtain ⟨qrs, desktops⟩ := List.append_inj' front (length.trans length'.symm)
  exact ⟨qrs, desktops, phones⟩

@[simp] theorem phone_transcript (qr desktop phone : Bytes) :
    Phone.transcript qr desktop phone = transcript qr desktop phone := rfl

/-- Both show the same code. -/
theorem phone_verificationCode (sha256 : Bytes → Bytes) (transcript : Bytes) :
    Phone.verificationCode sha256 transcript = verificationCode sha256 transcript := by
  rw [Phone.verificationCode, verificationCode]
  dsimp only
  rw [or_bytes _ (UInt8.toNat_lt _) (UInt8.toNat_lt _) (UInt8.toNat_lt _)]

/-! ## One channel -/

theorem Role.peer_peer (role : Role) : role.peer.peer = role := by
  cases role <;> rfl

theorem Info.asStr_injective : Function.Injective Info.asStr := by
  intro info info' same
  cases info <;> cases info' <;> first | rfl | exact absurd same (by decide)

/-- The direction in which a role sends. -/
def Role.sends : Role → Info
  | desktop => .pairChannelDesktopToPhone
  | phone => .pairChannelPhoneToDesktop

theorem Role.sends_peer_ne (role : Role) : role.peer.sends ≠ role.sends := by
  cases role <;> decide

namespace PairSuite

variable {Secret Point Shared Key : Type} (c : PairSuite Secret Point Shared Key)

def aead : Sealing.Aead Key Nonce12 Bytes := ⟨c.aeadSeal, c.aeadOpen⟩

/-- One use of the key derivation: the secret, the transcript whose hash is the salt, the label. -/
def derive (use : Shared × Bytes × String) : Key :=
  c.hkdf32 use.1 (c.sha256 use.2.1) use.2.2

/-- Ideal third-party code, for the uses of the key derivation and of the AEAD that were made. -/
structure Ideal (derived : Set (Shared × Bytes × String))
    (log : Set (Sealing.Call Key Nonce12 Bytes)) : Prop where
  dh_comm : ∀ a b, c.diffieHellman a (c.publicKey b) = c.diffieHellman b (c.publicKey a)
  derive_inj : Set.InjOn c.derive derived
  sec1_length : ∀ point, (c.sec1 point).length = 65
  aead : c.aead.Ideal log
  tag : ∀ key aad nonce pt, 16 ≤ (c.aeadSeal key aad nonce pt).length

/-- A channel sends under the key of its direction and receives under the key of the other. -/
theorem establish_keys (role : Role) (my : Secret) (peer : Point) (t : Bytes) :
    Channel.establish c role my peer t =
      ⟨c.derive (c.diffieHellman my peer, t, role.sends.asStr),
        c.derive (c.diffieHellman my peer, t, role.peer.sends.asStr)⟩ := by
  cases role <;> rfl

/-- The phone derives the keys of the core, in either role. -/
theorem phone_pairingChannel (role : Role) (my : Secret) (peer : Point) (t : Bytes) :
    Phone.pairingChannel c role (c.diffieHellman my peer) t = Channel.establish c role my peer t := by
  cases role <;> rfl

end PairSuite

section Boxes

variable {Secret Point Shared Key : Type} {c : PairSuite Secret Point Shared Key}

/-- What a channel opens, in either implementation. -/
def Opens (c : PairSuite Secret Point Shared Key) (ch : Channel Key) (combined : Bytes) :
    Option Bytes :=
  boxFormat.openAs c.aead (fun _ => ch.recvKey) (fun _ => pairAad) combined

theorem open_eq_ok {ch : Channel Key} {combined pt : Bytes} :
    (ch.open_ c combined = .ok pt ↔ Opens c ch combined = some pt) ∧
      (Phone.open_ c ch combined = .ok pt ↔ Opens c ch combined = some pt) := by
  rw [Channel.open_, Phone.open_]
  by_cases long : 12 + 16 ≤ combined.length
  · have cut : Opens c ch combined = c.aeadOpen ch.recvKey pairAad
        ⟨combined.take 12, by rw [List.length_take]; omega⟩ (combined.drop 12) := by
      have split : boxFormat.split combined = some ((),
          ⟨combined.take 12, by rw [List.length_take]; omega⟩, combined.drop 12) := dif_pos long
      rw [Opens, Sealing.Format.openAs, split]
      rfl
    rw [dif_pos long, dif_pos long, cut]
    cases c.aeadOpen ch.recvKey pairAad _ (combined.drop 12) <;> simp
  · have cut : Opens c ch combined = none := by
      have split : boxFormat.split combined = none := dif_neg long
      rw [Opens, Sealing.Format.openAs, split, Option.bind_none]
    rw [dif_neg long, dif_neg long, cut]
    simp

/-- No implementation opens it. -/
def Rejects (c : PairSuite Secret Point Shared Key) (ch : Channel Key) (combined : Bytes) : Prop :=
  ∀ pt, ch.open_ c combined ≠ .ok pt ∧ Phone.open_ c ch combined ≠ .ok pt

theorem rejects_iff {ch : Channel Key} {combined : Bytes} :
    Rejects c ch combined ↔ Opens c ch combined = none := by
  rw [Option.eq_none_iff_forall_ne_some]
  refine forall_congr' fun pt => ?_
  rw [Ne, Ne, open_eq_ok.1, open_eq_ok.2, and_self]

variable {derived : Set (Shared × Bytes × String)} {log : Set (Sealing.Call Key Nonce12 Bytes)}
  {ch : Channel Key} {nonce : Nonce12} {pt : Bytes}

theorem seal_eq (ch : Channel Key) (nonce : Nonce12) (pt : Bytes) : ch.seal_ c nonce pt =
    boxFormat.sealAs c.aead (fun _ => ch.sendKey) (fun _ => pairAad) () nonce pt := rfl

/-- A message opens where its key is received. -/
theorem opens_sealed (ideal : c.Ideal derived log) {ch' : Channel Key}
    (mem : ⟨ch.sendKey, pairAad, nonce, pt⟩ ∈ log) (keys : ch'.recvKey = ch.sendKey) :
    Opens c ch' (ch.seal_ c nonce pt) = some pt := by
  rw [Opens, keys, seal_eq]
  refine Sealing.Format.openAs_sealAs ideal.aead ?_ ?_
  · exact mem
  · exact ideal.tag _ _ _ _

/-- And nowhere else. -/
theorem opens_of_ne (ideal : c.Ideal derived log) {ch' : Channel Key}
    (mem : ⟨ch.sendKey, pairAad, nonce, pt⟩ ∈ log) (keys : ch'.recvKey ≠ ch.sendKey) :
    Opens c ch' (ch.seal_ c nonce pt) = none := by
  rw [Opens, seal_eq]
  refine Sealing.Format.openAs_of_ne ideal.aead ?_ ?_ ?_
  · exact mem
  · exact ideal.tag _ _ _ _
  · exact .inl keys

end Boxes

/-- A pairing: the secrets of both sides and the payload of the code that was scanned. -/
structure Ceremony (Secret : Type) where
  desktop : Secret
  phone : Secret
  qrPayload : Bytes

namespace Ceremony

variable {Secret Point Shared Key : Type} (c : PairSuite Secret Point Shared Key)
  (p : Ceremony Secret)

def secret : Role → Secret
  | .desktop => p.desktop
  | .phone => p.phone

/-- What a role hashes: its own public key and the peer's, in the order of the transcript. -/
def transcriptOf (role : Role) : Bytes :=
  let own := c.sec1 (c.publicKey (p.secret role))
  let peer := c.sec1 (c.publicKey (p.secret role.peer))
  match role with
  | .desktop => transcript p.qrPayload own peer
  | .phone => Phone.transcript p.qrPayload peer own

/-- The end of the channel that a role holds. -/
def channel (role : Role) : Channel Key :=
  .establish c role (p.secret role) (c.publicKey (p.secret role.peer)) (p.transcriptOf c role)

/-- The secret of the pairing. -/
def shared : Shared := c.diffieHellman p.desktop (c.publicKey p.phone)

/-- Its transcript. -/
def agreed : Bytes :=
  transcript p.qrPayload (c.sec1 (c.publicKey p.desktop)) (c.sec1 (c.publicKey p.phone))

variable {c p}

theorem transcriptOf_eq (role : Role) : p.transcriptOf c role = p.agreed c := by
  cases role <;> rfl

section Ideal

variable {derived : Set (Shared × Bytes × String)} {log : Set (Sealing.Call Key Nonce12 Bytes)}

theorem shared_eq (ideal : c.Ideal derived log) (role : Role) :
    c.diffieHellman (p.secret role) (c.publicKey (p.secret role.peer)) = p.shared c := by
  cases role with
  | desktop => rfl
  | phone => exact ideal.dh_comm p.phone p.desktop

/-- The keys of both ends. -/
theorem channel_eq (ideal : c.Ideal derived log) (role : Role) : p.channel c role =
    ⟨c.derive (p.shared c, p.agreed c, role.sends.asStr),
      c.derive (p.shared c, p.agreed c, role.peer.sends.asStr)⟩ := by
  rw [channel, PairSuite.establish_keys, shared_eq ideal, transcriptOf_eq]

theorem sendKey_peer (ideal : c.Ideal derived log) (role : Role) :
    (p.channel c role.peer).recvKey = (p.channel c role).sendKey := by
  rw [channel_eq ideal, channel_eq ideal, Role.peer_peer]

/-- The two directions have different keys. -/
theorem recvKey_ne (ideal : c.Ideal derived log)
    (used : ∀ info : Info, (p.shared c, p.agreed c, info.asStr) ∈ derived) (role : Role) :
    (p.channel c role).recvKey ≠ (p.channel c role).sendKey := by
  rw [channel_eq ideal]
  intro same
  have uses := ideal.derive_inj (used _) (used _) same
  exact role.sends_peer_ne (Info.asStr_injective (congrArg (fun use => use.2.2) uses))

/-- A channel of another transcript receives under another key. -/
theorem recvKey_ne_of_transcript (ideal : c.Ideal derived log)
    (used : ∀ info : Info, (p.shared c, p.agreed c, info.asStr) ∈ derived) {my : Secret} {peer : Point}
    {t : Bytes} (used' : ∀ info : Info, (c.diffieHellman my peer, t, info.asStr) ∈ derived)
    (differs : t ≠ p.agreed c) (role role' : Role) :
    (Channel.establish c role' my peer t).recvKey ≠ (p.channel c role).sendKey := by
  rw [channel_eq ideal, PairSuite.establish_keys]
  intro same
  have uses := ideal.derive_inj (used' _) (used _) same
  exact differs (congrArg (fun use => use.2.1) uses)

/-- Both roles derive one transcript, show one code and have matching keys, in both
implementations. A message opens at the other end with what was sealed, and neither at its own end
nor in a channel whose transcript has other inputs. Other inputs give another transcript. -/
theorem channel_agreement (ideal : c.Ideal derived log)
    (used : ∀ info : Info, (p.shared c, p.agreed c, info.asStr) ∈ derived) :
    (∀ role, p.transcriptOf c role.peer = p.transcriptOf c role ∧
      Phone.verificationCode c.sha256 (p.transcriptOf c role.peer) =
        verificationCode c.sha256 (p.transcriptOf c role) ∧
      (p.channel c role.peer).recvKey = (p.channel c role).sendKey ∧
      Phone.pairingChannel c role
          (c.diffieHellman (p.secret role) (c.publicKey (p.secret role.peer)))
          (p.transcriptOf c role) = p.channel c role) ∧
    (∀ role nonce pt combined, ⟨(p.channel c role).sendKey, pairAad, nonce, pt⟩ ∈ log →
      combined = (p.channel c role).seal_ c nonce pt ∨
        combined = Phone.seal_ c (p.channel c role) nonce pt →
      ((p.channel c role.peer).open_ c combined = .ok pt ∧
        Phone.open_ c (p.channel c role.peer) combined = .ok pt) ∧
      Rejects c (p.channel c role) combined ∧
      ∀ role' my' peer' qr' desktop' phone', desktop'.length = 65 → phone'.length = 65 →
        (∀ info : Info,
          (c.diffieHellman my' peer', transcript qr' desktop' phone', info.asStr) ∈ derived) →
        (qr', desktop', phone') ≠ (p.qrPayload, c.sec1 (c.publicKey p.desktop),
          c.sec1 (c.publicKey p.phone)) →
        Rejects c (.establish c role' my' peer' (transcript qr' desktop' phone')) combined) ∧
    ∀ qr desktop phone qr' desktop' phone', desktop.length = 65 → phone.length = 65 →
      desktop'.length = 65 → phone'.length = 65 →
      (qr, desktop, phone) ≠ (qr', desktop', phone') →
      transcript qr desktop phone ≠ transcript qr' desktop' phone' := by
  have distinct : ∀ qr desktop phone qr' desktop' phone', desktop.length = 65 →
      phone.length = 65 → desktop'.length = 65 → phone'.length = 65 →
      (qr, desktop, phone) ≠ (qr', desktop', phone') →
      transcript qr desktop phone ≠ transcript qr' desktop' phone' := by
    intro qr desktop phone qr' desktop' phone' length lengthPhone length' lengthPhone' differs same
    obtain ⟨rfl, rfl, rfl⟩ := transcript_inj length length' lengthPhone lengthPhone' same
    exact differs rfl
  refine ⟨fun role => ?_, fun role nonce pt combined mem sealed => ?_, distinct⟩
  · have same : p.transcriptOf c role.peer = p.transcriptOf c role := by
      rw [transcriptOf_eq, transcriptOf_eq]
    refine ⟨same, ?_, sendKey_peer ideal role, PairSuite.phone_pairingChannel c role _ _ _⟩
    rw [same, phone_verificationCode]
  · have sealed : combined = (p.channel c role).seal_ c nonce pt := sealed.elim id id
    rw [sealed]
    have delivered := opens_sealed ideal mem (sendKey_peer ideal role)
    refine ⟨⟨open_eq_ok.1.mpr delivered, open_eq_ok.2.mpr delivered⟩,
      rejects_iff.mpr (opens_of_ne ideal mem (recvKey_ne ideal used role)), ?_⟩
    intro role' my' peer' qr' desktop' phone' length lengthPhone used' differs
    have other := distinct _ _ _ _ _ _ length lengthPhone (ideal.sec1_length _)
      (ideal.sec1_length _) differs
    exact rejects_iff.mpr (opens_of_ne ideal mem
      (recvKey_ne_of_transcript ideal used used' other role role'))

end Ideal

end Ceremony

/-! ## One ceremony -/

namespace Sample

/-- The public keys of two P-256 secrets. -/
def sec1 : Role → Bytes
  | .desktop =>
      [0x04, 0xcc, 0x17, 0xac, 0xe3, 0x22, 0x68, 0x8c, 0xb4, 0x72, 0xbf, 0xc7, 0xf1, 0x4f, 0x3f,
       0x60, 0x0c, 0x02, 0x99, 0x5e, 0xcc, 0x1f, 0xf7, 0xb4, 0xd2, 0xe1, 0x23, 0x7e, 0x66, 0x06,
       0x44, 0xf3, 0x5c, 0x6e, 0x04, 0xfc, 0xc0, 0xce, 0xad, 0x68, 0x91, 0xec, 0x60, 0xc4, 0x80,
       0x0f, 0x22, 0x70, 0xc9, 0x4d, 0x95, 0xac, 0x5a, 0x40, 0x33, 0x70, 0x5c, 0x55, 0x88, 0xef,
       0x11, 0x9e, 0x68, 0x2c, 0xe5]
  | .phone =>
      [0x04, 0x4b, 0xbc, 0x64, 0x06, 0xa1, 0x61, 0x18, 0x19, 0x44, 0xf5, 0x34, 0x4e, 0x9b, 0x49,
       0xee, 0x4c, 0xbd, 0xe4, 0xd0, 0xba, 0xd5, 0x43, 0x33, 0x94, 0x14, 0xfb, 0xec, 0xcd, 0x47,
       0xd6, 0xc3, 0x54, 0xf9, 0x91, 0xc2, 0x74, 0xb1, 0xdd, 0x49, 0xf8, 0x2c, 0x0c, 0xea, 0xcf,
       0x99, 0x37, 0x0b, 0xf0, 0x08, 0x41, 0xf9, 0x7c, 0x57, 0xe5, 0x07, 0xe4, 0x1a, 0x6d, 0xdf,
       0x7d, 0xc9, 0x0d, 0xcc, 0xba]

/-- The secrets that they agree on. -/
def diffieHellman : Role → Role → Bytes
  | .desktop, .desktop =>
      [0x40, 0xda, 0x56, 0x50, 0xe3, 0xd5, 0xb1, 0x31, 0x23, 0xa9, 0xa7, 0x5b, 0x17, 0x26, 0x67,
       0x52, 0xca, 0xa0, 0xd5, 0xc5, 0x5e, 0x5e, 0x14, 0x9d, 0x9f, 0x07, 0xa1, 0x5b, 0x27, 0x67,
       0xa3, 0x93]
  | .phone, .phone =>
      [0x81, 0xc0, 0x69, 0xb6, 0x56, 0x85, 0xf8, 0x34, 0x82, 0x12, 0x90, 0x23, 0x79, 0x93, 0x92,
       0xa2, 0xd3, 0x61, 0xd7, 0x09, 0x66, 0xab, 0x43, 0x55, 0xf4, 0x48, 0xd8, 0x1d, 0xec, 0x4d,
       0x83, 0x04]
  | _, _ =>
      [0x17, 0x6c, 0x72, 0xff, 0x2d, 0x83, 0x35, 0x14, 0x8c, 0x13, 0x11, 0x74, 0x61, 0x34, 0x6a,
       0x60, 0xb5, 0x97, 0xbb, 0x07, 0x68, 0x0d, 0x43, 0x51, 0xb4, 0xe3, 0x98, 0x22, 0x94, 0x34,
       0x73, 0xe4]

/-- The payloads `{"v":1}` and `{"v":1,"evil":1}`. -/
def qrPayload : Bytes := Api.utf8 "\x7b\"v\":1\x7d"

def evilPayload : Bytes := Api.utf8 "\x7b\"v\":1,\"evil\":1\x7d"

/-- The transcripts with their hashes. -/
def hashes : List (Bytes × Bytes) :=
  [(transcript qrPayload (sec1 .desktop) (sec1 .phone),
    [0xfe, 0x71, 0x17, 0xfa, 0xdc, 0xe3, 0xe6, 0x07, 0x11, 0x76, 0x3e, 0x37, 0x16, 0x96, 0xc5,
     0x3d, 0x2a, 0x38, 0x09, 0xb6, 0x3e, 0x3c, 0x4a, 0x09, 0x9a, 0xd9, 0xed, 0xd7, 0x29, 0x06,
     0x36, 0x09]),
   (transcript evilPayload (sec1 .desktop) (sec1 .phone),
    [0x6a, 0x9d, 0x33, 0x47, 0xfe, 0xa3, 0xcc, 0x6e, 0x00, 0x11, 0xca, 0x12, 0xd9, 0xf9, 0x28,
     0x8f, 0x9f, 0xf8, 0x6c, 0x55, 0xd2, 0x34, 0xca, 0xbe, 0x4d, 0x5b, 0x89, 0xa6, 0x07, 0xe6,
     0x6d, 0x7d])]

def sha256 (t : Bytes) : Bytes := (hashes.lookup t).getD (List.replicate 32 0)

/-- The keys that are derived from the shared secret. -/
def keys : List ((Bytes × String) × Bytes) :=
  [((sha256 (transcript qrPayload (sec1 .desktop) (sec1 .phone)),
      "sentinel/v1/pair/chan/desktop->phone"),
    [0x1c, 0x83, 0x17, 0x6b, 0xb3, 0x6c, 0xb4, 0x53, 0x7e, 0x80, 0xf6, 0xe1, 0x29, 0xe0, 0x8b,
     0xb8, 0x57, 0xe8, 0x74, 0xc6, 0x11, 0x6d, 0x0c, 0x9b, 0xb7, 0xe4, 0x1b, 0x54, 0x06, 0x8e,
     0xd4, 0x8e]),
   ((sha256 (transcript qrPayload (sec1 .desktop) (sec1 .phone)),
      "sentinel/v1/pair/chan/phone->desktop"),
    [0x92, 0x2b, 0xb3, 0x76, 0xac, 0x93, 0x7d, 0xa7, 0x2e, 0x40, 0x86, 0x97, 0x16, 0xfc, 0xff,
     0xcc, 0xdf, 0x23, 0xc6, 0xbb, 0xc1, 0x61, 0x79, 0xba, 0x91, 0x8c, 0xa6, 0xe8, 0xc1, 0x3c,
     0x59, 0x0b]),
   ((sha256 (transcript evilPayload (sec1 .desktop) (sec1 .phone)),
      "sentinel/v1/pair/chan/desktop->phone"),
    [0xf9, 0x8b, 0x17, 0x9c, 0x5d, 0x5c, 0x83, 0x8e, 0x9a, 0xdb, 0x7a, 0xab, 0x61, 0xd1, 0x0c,
     0x59, 0xbb, 0xfa, 0x0b, 0xc2, 0x64, 0x85, 0xf3, 0x2b, 0x4b, 0x96, 0xe9, 0xd0, 0x67, 0x12,
     0x6a, 0x0a]),
   ((sha256 (transcript evilPayload (sec1 .desktop) (sec1 .phone)),
      "sentinel/v1/pair/chan/phone->desktop"),
    [0x60, 0x47, 0xfb, 0x82, 0x46, 0x00, 0x44, 0x53, 0x83, 0xaf, 0x04, 0xf9, 0xff, 0xe0, 0x02,
     0xac, 0x58, 0xa7, 0x5e, 0x9f, 0x54, 0x06, 0x62, 0x5f, 0xff, 0x43, 0x93, 0x54, 0xac, 0xb0,
     0x35, 0x5c])]

def hkdf32 (x salt : Bytes) (info : String) : Bytes :=
  if x = diffieHellman .desktop .phone then (keys.lookup (salt, info)).getD (List.replicate 32 0)
  else List.replicate 32 0

def nonce : Nonce12 := ⟨[0, 1, 2, 3, 4, 5, 6, 7, 8, 9, 10, 11], rfl⟩

/-- The message `share-request` to the phone, as it was sealed. -/
def table : List (Sealing.Call Bytes Nonce12 Bytes × Bytes) :=
  [(⟨hkdf32 (diffieHellman .desktop .phone)
      (sha256 (transcript qrPayload (sec1 .desktop) (sec1 .phone)))
      "sentinel/v1/pair/chan/desktop->phone", pairAad, nonce, Api.utf8 "share-request"⟩,
    [0xca, 0xe0, 0xa7, 0x19, 0x13, 0xee, 0xa9, 0x3e, 0x4e, 0x17, 0x85, 0xfb, 0x84, 0x8d, 0x14,
     0xf0, 0x8d, 0x03, 0xde, 0x9a, 0x1d, 0x58, 0x6e, 0x30, 0x00, 0x7a, 0xcb, 0x16, 0x7f])]

def aead : Sealing.Aead Bytes Nonce12 Bytes := .recorded table (· ++ List.replicate 16 0)

/-- The recorded values of the third-party code; a secret and its public key go by their role. -/
def suite : PairSuite Role Role Bytes Bytes where
  publicKey := id
  sec1 := sec1
  diffieHellman := diffieHellman
  sha256 := sha256
  hkdf32 := hkdf32
  aeadSeal := aead.sealed
  aeadOpen := aead.opened

/-- The keys that were derived for the two payloads. -/
def uses : List (Bytes × Bytes × String) :=
  [(diffieHellman .desktop .phone, transcript qrPayload (sec1 .desktop) (sec1 .phone),
      "sentinel/v1/pair/chan/desktop->phone"),
   (diffieHellman .desktop .phone, transcript qrPayload (sec1 .desktop) (sec1 .phone),
      "sentinel/v1/pair/chan/phone->desktop"),
   (diffieHellman .desktop .phone, transcript evilPayload (sec1 .desktop) (sec1 .phone),
      "sentinel/v1/pair/chan/desktop->phone"),
   (diffieHellman .desktop .phone, transcript evilPayload (sec1 .desktop) (sec1 .phone),
      "sentinel/v1/pair/chan/phone->desktop")]

theorem ideal_suite :
    suite.Ideal {use | use ∈ uses} {call | ∃ ct, (call, ct) ∈ table} where
  dh_comm a b := by
    cases a <;> cases b <;> rfl
  derive_inj := by
    have distinct : (uses.map suite.derive).Nodup := by decide +kernel
    intro use mem use' mem' same
    exact List.inj_on_of_nodup_map distinct mem mem' same
  sec1_length point := by
    cases point <;> rfl
  aead := Sealing.Aead.ideal_recorded (by decide +kernel) (by decide +kernel)
  tag key aad nonce pt := by
    obtain ⟨ct, mem, text⟩ | ⟨-, text⟩ :=
      Sealing.Aead.recorded_cases table (· ++ List.replicate 16 0) ⟨key, aad, nonce, pt⟩
    · have long : ∀ entry ∈ table, 16 ≤ entry.2.length := by decide +kernel
      exact (long _ mem).trans_eq (congrArg List.length text).symm
    · refine le_of_le_of_eq ?_ (congrArg List.length text).symm
      rw [List.length_append, List.length_replicate]
      omega

def ceremony : Ceremony Role := ⟨.desktop, .phone, qrPayload⟩

/-- The request opens on the phone, not on the desktop, and not in a channel that the phone
established after another code. -/
theorem channel_agreement_request :
    Channel.open_ suite (ceremony.channel suite .phone)
        (Channel.seal_ suite (ceremony.channel suite .desktop) nonce (Api.utf8 "share-request")) =
        .ok (Api.utf8 "share-request") ∧
      Rejects suite (ceremony.channel suite .desktop)
        (Channel.seal_ suite (ceremony.channel suite .desktop) nonce (Api.utf8 "share-request")) ∧
      Rejects suite (Channel.establish suite .phone .phone .desktop
          (transcript evilPayload (sec1 .desktop) (sec1 .phone)))
        (Channel.seal_ suite (ceremony.channel suite .desktop) nonce
          (Api.utf8 "share-request")) := by
  obtain ⟨-, messages, -⟩ := Ceremony.channel_agreement (p := ceremony) ideal_suite (fun info => by
    cases info <;> decide +kernel)
  obtain ⟨⟨opened, -⟩, back, elsewhere⟩ := messages .desktop nonce (Api.utf8 "share-request") _
    ⟨_, List.mem_singleton.mpr rfl⟩ (.inl rfl)
  refine ⟨opened, back, elsewhere .phone .phone .desktop evilPayload _ _ rfl rfl (fun info => ?_) ?_⟩
  · cases info <;> decide +kernel
  · decide +kernel

end Sample

end Sentinel.Pairing
