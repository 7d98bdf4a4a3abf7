import Sentinel.Desktop.Recorded
import Sentinel.Phone.VaultCrypto

/-!
# Vault data between the desktop and the phone

What the phone's openers accept is the same as what the core's accept, up to the two JSON readers:
the layouts, the keys and the associated data are those of `Vault/Sealed`. So what either side
seals opens on the other, to the value that it stands for, and what neither sealed opens on none.
-/

namespace Sentinel.Phone

open Vault Wire

seal i64FromLe

variable {p : Platforms} {vk : VaultKey} {log : Set Use}

namespace VaultCrypto

/-! ## Item envelopes -/

/-- The phone reads what the AEAD opens in the parts of the envelope. -/
theorem openItem_eq_ok {b : Bytes} {v : VaultItem} : openItem p vk b = .ok v ↔
    ∃ h nonce ct pt, itemFormat.split b = some (h, nonce, ct) ∧
      p.aeadOpen (itemKey p.codec.toCrypto vk h.1) (itemHeader h.1 h.2) nonce ct = some pt ∧
        p.decode .phone itemReader pt = .ok v := by
  by_cases good : 25 + 24 + 16 ≤ b.length ∧ b.getD 0 0 = 1
  · obtain ⟨long, version⟩ := good
    have head : b.head? = some 0x01 := by
      cases b with
      | nil => cases long
      | cons v rest => exact congrArg some version
    have hdr := itemHeader_of_take (show 25 ≤ b.length by omega) head
    have tagged : 16 ≤ (b.drop 49).length := by
      rw [List.length_drop]
      omega
    rw [openItem, dif_pos ⟨long, version⟩]
    dsimp only
    simp only [bind_ok_iff, mapError_ok_iff, xchachaOpen_ok_iff tagged]
    constructor
    · rintro ⟨pt, opened, read⟩
      rw [← hdr] at opened
      exact ⟨_, _, _, pt, itemFormat_split long head, opened, read⟩
    · rintro ⟨h, nonce, ct, pt, cut, opened, read⟩
      rw [itemFormat_split long head] at cut
      obtain ⟨rfl, rest⟩ := Prod.mk.inj (Option.some.inj cut)
      obtain ⟨rfl, rfl⟩ := Prod.mk.inj rest
      rw [hdr] at opened
      exact ⟨pt, opened, read⟩
  · have bad : ¬ (25 + 24 + 16 ≤ b.length ∧ b.head? = some 0x01) := by
      rintro ⟨long, head⟩
      refine good ⟨long, ?_⟩
      cases b with
      | nil => cases head
      | cons v rest => exact Option.some.inj head
    rw [openItem, dif_neg good, itemFormat_split_none bad]
    constructor
    · intro opens
      cases opens
    · rintro ⟨h, nonce, ct, pt, cut, -⟩
      cases cut

/-- An envelope opens on the phone just if it was sealed under the key of its id, with its header
as associated data. -/
theorem openItem_iff (ideal : p.codec.toCrypto.Ideal log) {b : Bytes} {v : VaultItem} :
    openItem p vk b = .ok v ↔ ∃ id updatedAt nonce pt, IsI64 updatedAt ∧
      itemUse p.codec.toCrypto vk id updatedAt nonce pt ∈ log ∧
        p.decode .phone itemReader pt = .ok v ∧
          itemEnvelope p.codec.toCrypto vk id updatedAt nonce pt = b := by
  rw [openItem_eq_ok]
  constructor
  · rintro ⟨⟨id, updatedAt⟩, nonce, ct, pt, cut, opened, read⟩
    obtain ⟨fits, whole⟩ := (itemFormat.split_iff _ _ _ _).mp cut
    obtain ⟨mem, text⟩ := (ideal.opened_iff _ _ _ _ _).mp opened
    rw [text] at whole
    exact ⟨id, updatedAt, nonce, pt, fits.1, mem, read, whole⟩
  · rintro ⟨id, updatedAt, nonce, pt, inside, mem, read, rfl⟩
    exact ⟨(id, updatedAt), nonce, _, pt, (itemFormat.split_iff _ _ _ _).mpr
      ⟨fits_itemEnvelope ideal inside, rfl⟩, ideal.opened_sealed mem, read⟩

theorem sealItem_eq_ok {nonce : Nonce24} {v : VaultItem} {b : Bytes} :
    sealItem p vk nonce v = .ok b ↔ ∃ id pt, p.uuid.uuidString v.id = some id ∧
      p.print .phone v.json = .ok pt ∧
        b = itemEnvelope p.codec.toCrypto vk id v.updatedAt nonce pt := by
  unfold sealItem
  simp only [bind_ok_iff, elim_ok_iff, mapError_ok_iff]
  refine exists_congr fun id => ?_
  rw [← exists_and_left]
  refine exists_congr fun pt => and_congr_right fun _ => and_congr_right fun _ => ?_
  exact ⟨fun eq => (Except.ok.inj eq).symm, fun eq => congrArg Except.ok eq.symm⟩

theorem openAs_of_openItem {b : Bytes} {v : VaultItem} (opens : openItem p vk b = .ok v) :
    ∃ pt, itemFormat.openAs p.codec.aead (fun h => itemKey p.codec.toCrypto vk h.1)
      (fun h => itemHeader h.1 h.2) b = some pt := by
  obtain ⟨h, nonce, ct, pt, cut, opened, -⟩ := openItem_eq_ok.mp opens
  refine ⟨pt, ?_⟩
  rw [Sealing.Format.openAs, cut]
  exact opened

/-! ## Sync blobs -/

theorem take_five_iff {b : Bytes} (long : 8 + 24 ≤ b.length) : b.take 5 = syncTag ↔
    b.take 4 = [0x53, 0x56, 0x4c, 0x54] ∧ b.getD 4 0 = 1 := by
  have cut : b.take (4 + 1) = b.take 4 ++ (b.drop 4).take 1 := List.take_add
  have one : (b.drop 4).take 1 = [b[4]] := by
    rw [List.drop_eq_getElem_cons (by omega)]
    rfl
  have four : (b.take 4).length = 4 := by
    rw [List.length_take]
    omega
  have tag : syncTag = [0x53, 0x56, 0x4c, 0x54] ++ [1] := rfl
  rw [cut, one, tag, List.getD_eq_getElem _ _ (by omega)]
  constructor
  · intro same
    obtain ⟨front, last⟩ := List.append_inj same four
    exact ⟨front, List.head_eq_of_cons_eq last⟩
  · rintro ⟨front, last⟩
    rw [front, last]

/-- The phone's opener is the core's, but for the compressor and the reader. -/
theorem decodeSyncBlob_eq_ok (ideal : p.codec.toCrypto.Ideal log) {b : Bytes} {version : Nat}
    {doc : VaultDocument} : decodeSyncBlob p vk b version = .ok doc ↔ ∃ pt json,
      syncFormat.openAs p.codec.aead (fun _ => p.codec.hkdf32 vk none .vaultOuter)
        (fun hdr => hdr ++ leBytes 8 version) b = some pt ∧
      p.decompress .phone pt = .ok json ∧ p.decode .phone documentReader json = .ok doc := by
  by_cases good : 8 + 24 ≤ b.length ∧ b.take 4 = [0x53, 0x56, 0x4c, 0x54] ∧ b.getD 4 0 = 1
  · have tag : b.take 5 = syncTag := (take_five_iff good.1).mpr good.2
    rw [decodeSyncBlob, dif_pos good, Sealing.Format.openAs, syncFormat_split good.1 tag,
      Option.bind_some]
    dsimp only
    simp only [bind_ok_iff, mapError_ok_iff]
    -- a text that the AEAD opens has room for its tag
    have opened : ∀ pt, xchachaOpen p.codec.aeadOpen (p.hkdf32 vk none .vaultOuter)
        (syncNonceAt b good.1) (b.drop 32) (b.take 8 ++ leBytes 8 version) = .ok pt ↔
          p.codec.aead.opened (p.codec.hkdf32 vk none .vaultOuter)
            (b.take 8 ++ leBytes 8 version) (syncNonceAt b good.1) (b.drop 32) = some pt := by
      intro pt
      by_cases tagged : 16 ≤ (b.drop 32).length
      · exact xchachaOpen_ok_iff tagged
      · rw [xchachaOpen, if_pos (Nat.lt_of_not_le tagged)]
        constructor
        · intro opens
          cases opens
        · intro opens
          obtain ⟨-, text⟩ := (ideal.opened_iff _ _ _ _ _).mp opens
          have length := ideal.seal_length (p.codec.hkdf32 vk none .vaultOuter)
            (b.take 8 ++ leBytes 8 version) (syncNonceAt b good.1) pt
          rw [text] at tagged
          exact absurd ((Nat.le_add_left 16 _).trans length.ge) tagged
    simp only [opened]
    exact exists_congr fun pt => exists_and_left.symm
  · have bad : ¬ (8 + 24 ≤ b.length ∧ b.take 5 = syncTag) :=
      fun both => good ⟨both.1, (take_five_iff both.1).mp both.2⟩
    rw [decodeSyncBlob, dif_neg good, Sealing.Format.openAs, syncFormat_split_none bad]
    constructor
    · intro opens
      cases opens
    · rintro ⟨pt, json, opened, -⟩
      cases opened

theorem openAs_of_decodeSyncBlob (ideal : p.codec.toCrypto.Ideal log) {b : Bytes} {version : Nat}
    {doc : VaultDocument} (opens : decodeSyncBlob p vk b version = .ok doc) : ∃ pt,
      syncFormat.openAs p.codec.aead (fun _ => p.codec.hkdf32 vk none .vaultOuter)
        (fun hdr => hdr ++ leBytes 8 version) b = some pt := by
  obtain ⟨pt, json, opened, -⟩ := (decodeSyncBlob_eq_ok ideal).mp opens
  exact ⟨pt, opened⟩

theorem encodeSyncBlob_eq {nonce : Nonce24} {doc : VaultDocument} {version : Nat} {json z : Bytes}
    (printed : p.print .phone doc.json = .ok json) (packed : p.compress .phone json = .ok z) :
    encodeSyncBlob p vk nonce doc version =
      .ok (syncBlob p.codec vk version syncHeader nonce z) := by
  rw [encodeSyncBlob, printed]
  change ((p.compress .phone json).mapError _ >>= _) = _
  rw [packed]
  rfl

end VaultCrypto

/-! ## Items on both sides -/

section Items

/-- What the core seals opens on both sides: as it is in the core, as its mirror on the phone. -/
theorem core_sealItem (lossless : p.Lossless) {item : Item} (typed : item.Typed)
    (vk : VaultKey) (nonce : Nonce24) : ∃ pt, p.codec.itemToJson item = .ok pt ∧
      p.codec.itemFromJson pt = .ok item ∧
      p.decode .phone itemReader pt = .ok (VaultItem.mirror p.uuid item) ∧
      sealItem p.codec.toCrypto vk nonce item =
        .ok ⟨itemEnvelope p.codec.toCrypto vk item.id item.updatedAt nonce pt⟩ := by
  obtain ⟨pt, printed, -⟩ := lossless.json .desktop (item.json p.uuid)
  exact ⟨pt, printed,
    lossless.decode_print (Vault.itemReader_json lossless.uuid typed) printed .desktop,
    lossless.decode_print (itemReader_json typed) printed .phone,
    sealItem_eq_ok.mpr ⟨pt, printed, rfl⟩⟩

/-- What the phone seals, standing for an item of the core, opens in the core to that item. -/
theorem phone_sealItem (lossless : p.Lossless) {v : VaultItem} {item : Item} (typed : item.Typed)
    (mirrors : v.Mirrors p.uuid item) (vk : VaultKey) (nonce : Nonce24) :
    ∃ pt, p.print .phone v.json = .ok pt ∧ p.codec.itemFromJson pt = .ok item ∧
      VaultCrypto.sealItem p vk nonce v =
        .ok (itemEnvelope p.codec.toCrypto vk item.id item.updatedAt nonce pt) := by
  obtain ⟨pt, printed, -⟩ := lossless.json .phone v.json
  refine ⟨pt, printed,
    lossless.decode_print (itemReader_of_mirrors lossless.uuid typed mirrors) printed .desktop,
    VaultCrypto.sealItem_eq_ok.mpr ⟨item.id, pt, mirrors.id, printed, ?_⟩⟩
  rw [mirrors.updatedAt]

theorem envelopeMeta_itemEnvelope {c : Crypto} {id : ItemId} {updatedAt : Int}
    (inside : IsI64 updatedAt) (nonce : Nonce24) (pt : Bytes) :
    envelopeMeta ⟨itemEnvelope c vk id updatedAt nonce pt⟩ = .ok (id, updatedAt) := by
  have whole : itemEnvelope c vk id updatedAt nonce pt = itemHeader id updatedAt ++
      (nonce.bytes ++ c.aeadSeal (itemKey c vk id) (itemHeader id updatedAt) nonce pt) :=
    List.append_assoc _ _ _
  rw [whole, envelopeMeta_header inside.1 inside.2]

/-- Item envelopes open as they were sealed, on the side that sealed them and on the other; nothing
else opens; and no bounds check of the core's readers fails. -/
theorem item_envelopes_portable (lossless : p.Lossless) (ideal : p.codec.toCrypto.Ideal log) :
    (∀ vk nonce item, item.Typed → ∃ pt env, p.codec.itemToJson item = .ok pt ∧
      sealItem p.codec.toCrypto vk nonce item = .ok env ∧
      envelopeMeta env = .ok (item.id, item.updatedAt) ∧
      (itemUse p.codec.toCrypto vk item.id item.updatedAt nonce pt ∈ log →
        openItem p.codec.toCrypto vk env = .ok item ∧
        VaultCrypto.openItem p vk env.bytes = .ok (VaultItem.mirror p.uuid item) ∧
        (VaultItem.mirror p.uuid item).Mirrors p.uuid item)) ∧
    (∀ vk nonce v item, item.Typed → v.Mirrors p.uuid item → ∃ pt b,
      p.print .phone v.json = .ok pt ∧ VaultCrypto.sealItem p vk nonce v = .ok b ∧
      envelopeMeta ⟨b⟩ = .ok (item.id, item.updatedAt) ∧
      (itemUse p.codec.toCrypto vk item.id item.updatedAt nonce pt ∈ log →
        openItem p.codec.toCrypto vk ⟨b⟩ = .ok item)) ∧
    (∀ vk b, (∀ id updatedAt nonce pt, IsI64 updatedAt →
      itemUse p.codec.toCrypto vk id updatedAt nonce pt ∈ log →
        itemEnvelope p.codec.toCrypto vk id updatedAt nonce pt ≠ b) →
      (∀ item, openItem p.codec.toCrypto vk ⟨b⟩ ≠ .ok item) ∧
        ∀ v, VaultCrypto.openItem p vk b ≠ .ok v) ∧
    (Set.InjOn Sealing.Call.nonce log → ∀ vk id updatedAt nonce pt, IsI64 updatedAt →
      itemUse p.codec.toCrypto vk id updatedAt nonce pt ∈ log →
      ∀ b, itemEnvelope p.codec.toCrypto vk id updatedAt nonce pt = b → ∀ i x, b.set i x ≠ b →
        ∀ vk', (∀ item, openItem p.codec.toCrypto vk' ⟨b.set i x⟩ ≠ .ok item) ∧
          ∀ v, VaultCrypto.openItem p vk' (b.set i x) ≠ .ok v) ∧
    (∀ vk env, openItemSliced p.codec.toCrypto vk env =
        Checked.ofExcept id (openItem p.codec.toCrypto vk env) ∧
      openItemSliced p.codec.toCrypto vk env ≠ .trap ∧
      envelopeMetaSliced env = Checked.ofExcept id (envelopeMeta env) ∧
      envelopeMetaSliced env ≠ .trap) := by
  refine ⟨?_, ?_, ?_, ?_, ?_⟩
  · intro vk nonce item typed
    obtain ⟨pt, printed, core, phone, sealed_⟩ := core_sealItem lossless typed vk nonce
    refine ⟨pt, _, printed, sealed_, envelopeMeta_itemEnvelope typed.updatedAt nonce pt,
      fun mem => ⟨?_, ?_, VaultItem.mirrors_mirror lossless.uuid typed⟩⟩
    · exact ideal.openItem_iff.mpr ⟨_, nonce, pt, typed.updatedAt, mem, core, rfl⟩
    · exact (VaultCrypto.openItem_iff ideal).mpr
        ⟨_, _, nonce, pt, typed.updatedAt, mem, phone, rfl⟩
  · intro vk nonce v item typed mirrors
    obtain ⟨pt, printed, core, sealed_⟩ := phone_sealItem lossless typed mirrors vk nonce
    exact ⟨pt, _, printed, sealed_, envelopeMeta_itemEnvelope typed.updatedAt nonce pt,
      fun mem => ideal.openItem_iff.mpr ⟨_, nonce, pt, typed.updatedAt, mem, core, rfl⟩⟩
  · intro vk b foreign
    constructor
    · intro item opens
      obtain ⟨updatedAt, nonce, pt, inside, mem, -, whole⟩ := ideal.openItem_iff.mp opens
      exact foreign _ _ _ _ inside mem whole
    · intro v opens
      obtain ⟨id, updatedAt, nonce, pt, inside, mem, -, whole⟩ :=
        (VaultCrypto.openItem_iff ideal).mp opens
      exact foreign _ _ _ _ inside mem whole
  · rintro fresh vk id updatedAt nonce pt inside mem _ rfl i x changed vk'
    have shut := ideal.itemEnvelope_set fresh inside mem changed vk'
    constructor
    · intro item opens
      obtain ⟨pt', opened⟩ := openAs_of_openItem opens
      rw [shut] at opened
      cases opened
    · intro v opens
      obtain ⟨pt', opened⟩ := VaultCrypto.openAs_of_openItem opens
      rw [shut] at opened
      cases opened
  · intro vk env
    rw [openItemSliced_eq, envelopeMetaSliced_eq]
    exact ⟨rfl, Checked.ofExcept_ne_trap _ _, rfl, Checked.ofExcept_ne_trap _ _⟩

end Items

/-! ## A platform of recorded values

The third-party code of both programs for one vault key, one note and one document: their JSON
texts, keys and ciphertexts are recorded, and outside the record the texts are spare ones that
still lose nothing. -/

namespace Sample

instance encodableChar : Encodable Char :=
  .ofLeftInjection Char.toNat (fun n => some (Char.ofNat n)) fun ch => by rw [Char.ofNat_toNat]

instance encodableString : Encodable String :=
  .ofLeftInjection String.toList (fun cs => some (String.ofList cs))
    fun s => by rw [String.ofList_toList]

/-- A value in postfix form: an array comes after its entries, an object after the values of its
members. -/
inductive Token where
  | null
  | bool (b : Bool)
  | int (n : Int)
  | text (s : String)
  | array (length : Nat)
  | object (keys : List String)
  deriving DecidableEq, Encodable

open Serial

mutual

def tokens : Value → List Token
  | .null => [.null]
  | .bool b => [.bool b]
  | .int n => [.int n]
  | .text s => [.text s]
  | .array values => tokensAll values ++ [.array values.length]
  | .object members => tokensMembers members ++ [.object (members.map Prod.fst)]

def tokensAll : List Value → List Token
  | [] => []
  | v :: values => tokens v ++ tokensAll values

def tokensMembers : List (String × Value) → List Token
  | [] => []
  | m :: members => tokens m.2 ++ tokensMembers members

end

/-- What a token does to the values read so far, the last one first. -/
def push (stack : List Value) : Token → List Value
  | .null => .null :: stack
  | .bool b => .bool b :: stack
  | .int n => .int n :: stack
  | .text s => .text s :: stack
  | .array n => .array (stack.take n).reverse :: stack.drop n
  | .object keys => .object (keys.zip (stack.take keys.length).reverse) :: stack.drop keys.length

mutual

theorem foldl_tokens : ∀ (v : Value) (stack : List Value),
    (tokens v).foldl push stack = v :: stack
  | .null, _ => rfl
  | .bool _, _ => rfl
  | .int _, _ => rfl
  | .text _, _ => rfl
  | .array values, stack => by
      have length : values.reverse.length = values.length := List.length_reverse
      rw [tokens, List.foldl_append, foldl_tokensAll values stack, List.foldl_cons,
        List.foldl_nil, push, List.take_left' length, List.drop_left' length, List.reverse_reverse]
  | .object members, stack => by
      have length : (members.map Prod.snd).reverse.length = (members.map Prod.fst).length := by
        rw [List.length_reverse, List.length_map, List.length_map]
      rw [tokens, List.foldl_append, foldl_tokensMembers members stack, List.foldl_cons,
        List.foldl_nil, push, List.take_left' length, List.drop_left' length, List.reverse_reverse,
        ← List.zip_of_prod rfl rfl]

theorem foldl_tokensAll : ∀ (values : List Value) (stack : List Value),
    (tokensAll values).foldl push stack = values.reverse ++ stack
  | [], _ => rfl
  | v :: values, stack => by
      rw [tokensAll, List.foldl_append, foldl_tokens v stack, foldl_tokensAll values,
        List.reverse_cons, List.append_assoc, List.singleton_append]

theorem foldl_tokensMembers : ∀ (members : List (String × Value)) (stack : List Value),
    (tokensMembers members).foldl push stack = (members.map Prod.snd).reverse ++ stack
  | [], _ => rfl
  | (_, v) :: members, stack => by
      rw [tokensMembers, List.foldl_append, foldl_tokens v stack, foldl_tokensMembers members,
        List.map_cons, List.reverse_cons, List.append_assoc, List.singleton_append]

end

theorem tokens_injective : Function.Injective tokens := by
  intro v w same
  have both := foldl_tokens w []
  rw [← same, foldl_tokens] at both
  exact List.head_eq_of_cons_eq both

/-- A text for a value that is not recorded. -/
def spare (v : Value) : Bytes := 0 :: List.replicate (Encodable.encode (tokens v)) 1

def readSpare (text : Bytes) : Except String Value :=
  match (Encodable.decode (text.length - 1) : Option (List Token)) with
  | some ts => match ts.foldl push [] with
    | v :: _ => .ok v
    | [] => .error "not recorded"
  | none => .error "not recorded"

theorem readSpare_spare (v : Value) : readSpare (spare v) = .ok v := by
  have length : (spare v).length - 1 = Encodable.encode (tokens v) := by
    rw [spare, List.length_cons, List.length_replicate, Nat.add_sub_cancel]
  rw [readSpare, length, Encodable.encodek]
  dsimp only
  rw [foldl_tokens]

/-- `Display` of the recorded id; another id is written in base 64. -/
def display (id : ItemId) : String :=
  if id = sampleId then "07070707-0707-0707-0707-070707070707" else Base64.encode id.bytes

def parseId (s : String) : Option ItemId :=
  if s = "07070707-0707-0707-0707-070707070707" then some sampleId
  else match Base64.decode s with
    | some bytes => if length : bytes.length = 16 then some ⟨bytes, length⟩ else none
    | none => none

def uuid : UuidText := ⟨display, parseId, parseId⟩

theorem parseId_display (id : ItemId) : parseId (display id) = some id := by
  by_cases recorded : id = sampleId
  · rw [display, if_pos recorded, parseId, if_pos rfl, recorded]
  · have other : Base64.encode id.bytes ≠ "07070707-0707-0707-0707-070707070707" := by
      intro same
      have read := Base64.decode_encode id.bytes
      rw [same] at read
      have unread : Base64.decode "07070707-0707-0707-0707-070707070707" = none := by
        rw [Base64.decode, String.toList_ofList]
        rfl
      rw [unread] at read
      cases read
    rw [display, if_neg recorded, parseId, if_neg other, Base64.decode_encode]
    exact dif_pos id.length

theorem correct_uuid : uuid.Correct :=
  ⟨parseId_display, parseId_display, fun _ _ read => read⟩

/-- A document with one tombstone. -/
def document : Vault.VaultDocument := .fromEnvelopes [] [(sampleId, 100)]

def documentText : Bytes :=
  Api.utf8 ("\x7b\"format\":1,\"items\":[],\"tombstones\":" ++
    "[[\"07070707-0707-0707-0707-070707070707\",100]]\x7d")

/-- The recorded JSON texts, and the spare one elsewhere. -/
def print (v : Value) : Bytes :=
  if tokens v = tokens (Desktop.sampleNote.json uuid) then Desktop.sampleNoteJson
  else if tokens v = tokens (document.json uuid) then documentText
  else spare v

def parse (text : Bytes) : Except String Value :=
  if text = Desktop.sampleNoteJson then .ok (Desktop.sampleNote.json uuid)
  else if text = documentText then .ok (document.json uuid)
  else readSpare text

/-- A frame of one raw block, for what fits into one. -/
def compress (b : Bytes) : Bytes :=
  [0x28, 0xb5, 0x2f, 0xfd, 0x00, 0x58] ++ leBytes 3 (b.length * 8 + 1) ++ b

def decompress (z : Bytes) : Bytes := z.drop 9

theorem decompress_compress (b : Bytes) : decompress (compress b) = b := by
  have header : ([0x28, 0xb5, 0x2f, 0xfd, 0x00, 0x58] ++ leBytes 3 (b.length * 8 + 1)).length = 9 :=
    rfl
  rw [decompress, compress, List.drop_left' header]

/-- HKDF of the key for documents. -/
def outerKey : Key32 :=
  [178, 163, 47, 148, 239, 165, 64, 110, 160, 107, 16, 70, 220, 249, 115, 173, 7, 172, 94, 131,
   184, 101, 88, 124, 247, 196, 234, 196, 254, 129, 36, 235]

/-- The note under its own time and under another, and the document at version 3. -/
def table : List (Use × Bytes) :=
  Desktop.sampleRecords.seals.drop 2 ++
    [(⟨Desktop.sampleItemKey, itemHeader sampleId 200, Desktop.nonceOf 7, Desktop.sampleNoteJson⟩,
      [40, 228, 225, 179, 157, 255, 233, 136, 216, 11, 196, 18, 183, 218, 145, 162, 92, 188, 131,
       247, 37, 248, 109, 232, 97, 20, 197, 137, 223, 157, 41, 67, 246, 77, 42, 97, 124, 132, 53,
       150, 25, 47, 62, 225, 234, 161, 35, 244, 225, 167, 42, 247, 216, 22, 19, 148, 45, 138, 36,
       56, 217, 158, 255, 9, 88, 137, 184, 157, 171, 185, 226, 224, 249, 41, 119, 60, 4, 163, 254,
       76, 227, 93, 116, 175, 150, 80, 20, 15, 67, 31, 223, 109, 92, 204, 181, 132, 105, 84, 97,
       222, 139, 130, 40, 145, 107, 112, 89, 254, 196, 20, 241, 1, 80, 80, 175, 212, 76, 42, 133,
       105, 233, 101, 148, 26, 109, 92, 1, 27, 132, 216, 161, 231, 97, 5, 53, 220, 46, 74, 169, 59,
       201, 171, 113, 85, 153, 96, 1, 183, 142, 129, 210, 5, 89, 120, 23, 73, 202, 106, 241, 105]),
     (⟨outerKey, syncHeader ++ leBytes 8 3, Desktop.nonceOf 6, compress documentText⟩,
      [29, 233, 26, 21, 171, 248, 1, 214, 227, 39, 174, 177, 238, 76, 157, 2, 32, 143, 237, 65,
       174, 78, 43, 139, 91, 71, 14, 16, 67, 160, 96, 6, 127, 134, 212, 109, 88, 72, 0, 65, 126,
       215, 13, 170, 91, 92, 71, 82, 25, 237, 10, 79, 6, 22, 185, 124, 115, 148, 74, 7, 73, 163,
       89, 26, 253, 231, 143, 168, 9, 216, 108, 165, 147, 238, 177, 104, 176, 137, 79, 58, 108,
       156, 36, 71, 121, 235, 130, 129, 181, 144, 22, 26, 109, 68, 26, 95, 244, 198, 205, 146, 118,
       113, 132, 218, 90, 161, 37, 162])]

def platforms : Platforms where
  hkdf32 ikm salt info :=
    if ikm = Desktop.sampleKey.bytes ∧ salt = none ∧ info = .vaultOuter then outerKey
    else Desktop.sampleSuite.hkdf32 ikm salt info
  aeadSeal := (Sealing.Aead.recorded table spareText).sealed
  aeadOpen := (Sealing.Aead.recorded table spareText).opened
  uuid := uuid
  print _ v := .ok (print v)
  parse _ text := parse text
  shape _ := "invalid type"
  compress _ b := .ok (compress b)
  decompress _ z := .ok (decompress z)

/-- What is evaluated of the record: its texts differ from each other and from the spare ones, its
calls are distinct, and each has a nonce of its own. -/
theorem recorded_facts :
    (documentText ≠ Desktop.sampleNoteJson ∧ Desktop.sampleNoteJson.head? ≠ some 0 ∧
      documentText.head? ≠ some 0) ∧
    platforms.codec.toCrypto.Ideal {call | ∃ ct, (call, ct) ∈ table} ∧
    Set.InjOn Sealing.Call.nonce {call : Use | ∃ ct, (call, ct) ∈ table} :=
  ⟨by decide +kernel,
    Crypto.ideal_of_recorded rfl (by decide +kernel) (by decide +kernel) (by decide +kernel),
    Sealing.Aead.nonce_injOn_recorded (by decide +kernel)⟩

theorem parse_print (v : Value) : parse (print v) = .ok v := by
  by_cases note : tokens v = tokens (Desktop.sampleNote.json uuid)
  · rw [print, if_pos note, parse, if_pos rfl, tokens_injective note]
  · obtain ⟨⟨texts, noteFirst, docFirst⟩, -, -⟩ := recorded_facts
    by_cases doc : tokens v = tokens (document.json uuid)
    · rw [print, if_neg note, if_pos doc, parse, if_neg texts, if_pos rfl, tokens_injective doc]
    · have first : ∀ t : Bytes, t.head? ≠ some 0 → spare v ≠ t := by
        rintro _ other rfl
        exact other rfl
      have spareNote : spare v ≠ Desktop.sampleNoteJson := first _ noteFirst
      have spareDoc : spare v ≠ documentText := first _ docFirst
      rw [print, if_neg note, if_neg doc, parse, if_neg spareNote, if_neg spareDoc,
        readSpare_spare]

theorem lossless_platforms : platforms.Lossless where
  uuid := correct_uuid
  json _ v := ⟨print v, rfl, fun _ => ⟨v, parse_print v, rfl⟩⟩
  zstd _ b := ⟨compress b, rfl, fun _ => congrArg Except.ok (decompress_compress b)⟩

theorem ideal_platforms :
    platforms.codec.toCrypto.Ideal {call | ∃ ct, (call, ct) ∈ table} :=
  recorded_facts.2.1

theorem fresh_table : Set.InjOn Sealing.Call.nonce {call : Use | ∃ ct, (call, ct) ∈ table} :=
  recorded_facts.2.2

theorem typed_sampleNote : Desktop.sampleNote.Typed where
  card _ mem := by cases mem
  passkey _ mem := by cases mem
  createdAt := by norm_num [Desktop.sampleNote]
  updatedAt := by norm_num [Desktop.sampleNote]
  passwordChangedAt _ mem := by cases mem

theorem typed_document : document.Typed where
  format := by norm_num [document, Vault.VaultDocument.fromEnvelopes]
  tombstones t mem := by
    rw [List.mem_singleton.mp mem]
    norm_num

end Sample

/-- The recorded note, sealed by either side, opens on both, and not with its version changed. -/
theorem item_envelopes_portable_note : ∃ env b,
    sealItem Sample.platforms.codec.toCrypto Desktop.sampleKey.bytes (Desktop.nonceOf 5)
      Desktop.sampleNote = .ok env ∧
    openItem Sample.platforms.codec.toCrypto Desktop.sampleKey.bytes env =
      .ok Desktop.sampleNote ∧
    VaultCrypto.openItem Sample.platforms Desktop.sampleKey.bytes env.bytes =
      .ok (VaultItem.mirror Sample.uuid Desktop.sampleNote) ∧
    (∀ item, openItem Sample.platforms.codec.toCrypto Desktop.sampleKey.bytes
      ⟨env.bytes.set 0 2⟩ ≠ .ok item) ∧
    VaultCrypto.sealItem Sample.platforms Desktop.sampleKey.bytes (Desktop.nonceOf 5)
      (VaultItem.mirror Sample.uuid Desktop.sampleNote) = .ok b ∧
    openItem Sample.platforms.codec.toCrypto Desktop.sampleKey.bytes ⟨b⟩ =
      .ok Desktop.sampleNote := by
  obtain ⟨core, phone, -, altered, -⟩ :=
    item_envelopes_portable Sample.lossless_platforms Sample.ideal_platforms
  have mem : itemUse Sample.platforms.codec.toCrypto Desktop.sampleKey.bytes sampleId 100
      (Desktop.nonceOf 5) Desktop.sampleNoteJson ∈ {call | ∃ ct, (call, ct) ∈ Sample.table} :=
    ⟨_, List.mem_cons_self⟩
  have text : Sample.platforms.codec.itemToJson Desktop.sampleNote = .ok Desktop.sampleNoteJson :=
    congrArg Except.ok (if_pos rfl)
  have phoneText : Sample.platforms.print .phone
      (VaultItem.mirror Sample.uuid Desktop.sampleNote).json = .ok Desktop.sampleNoteJson :=
    congrArg Except.ok (if_pos rfl)
  obtain ⟨pt, env, printed, sealed_, -, opens⟩ :=
    core Desktop.sampleKey.bytes (Desktop.nonceOf 5) Desktop.sampleNote Sample.typed_sampleNote
  obtain ⟨pt', b, printed', sealed', -, opens'⟩ :=
    phone Desktop.sampleKey.bytes (Desktop.nonceOf 5) _ Desktop.sampleNote Sample.typed_sampleNote
      (VaultItem.mirrors_mirror Sample.correct_uuid Sample.typed_sampleNote)
  rw [text, Except.ok.injEq] at printed
  rw [phoneText, Except.ok.injEq] at printed'
  subst printed printed'
  obtain ⟨first, second, -⟩ := opens mem
  obtain ⟨pt, same, rfl⟩ := sealItem_eq_ok.mp sealed_
  rw [text, Except.ok.injEq] at same
  subst same
  have shut := altered Sample.fresh_table Desktop.sampleKey.bytes sampleId 100 (Desktop.nonceOf 5)
    Desktop.sampleNoteJson Sample.typed_sampleNote.updatedAt mem _ rfl 0 2 (fun same => ?_)
    Desktop.sampleKey.bytes
  · exact ⟨_, b, sealed_, first, second, shut.1, sealed', opens' mem⟩
  · cases List.head_eq_of_cons_eq same

/-! ## Documents on both sides -/

section Documents

theorem fits_syncHeader : syncHeader.length = 8 ∧ syncHeader.take 5 = syncTag := ⟨rfl, rfl⟩

theorem core_encodeSyncBlob {nonce : Nonce24} {doc : Vault.VaultDocument} {version : Nat}
    {json z : Bytes} (printed : p.codec.documentToJson doc = .ok json)
    (packed : p.codec.compress json = .ok z) :
    encodeSyncBlob p.codec vk nonce doc version =
      .ok (syncBlob p.codec vk version syncHeader nonce z) := by
  rw [encodeSyncBlob, printed]
  change ((p.codec.compress json).mapError _ >>= _) = _
  rw [packed]
  rfl

/-- A sealed blob opens, on either side, to what that side reads in its text. -/
theorem decodeSyncBlob_syncBlob (lossless : p.Lossless) (ideal : p.codec.toCrypto.Ideal log)
    {nonce : Nonce24} {version : Nat} {writer : Side} {json z : Bytes}
    (packed : p.compress writer json = .ok z)
    (mem : syncUse p.codec vk version syncHeader nonce z ∈ log) :
    (∀ doc, p.codec.documentFromJson json = .ok doc →
      decodeSyncBlob p.codec vk (syncBlob p.codec vk version syncHeader nonce z) version =
        .ok doc) ∧
    ∀ doc, p.decode .phone documentReader json = .ok doc →
      VaultCrypto.decodeSyncBlob p vk (syncBlob p.codec vk version syncHeader nonce z) version =
        .ok doc := by
  have opened : syncFormat.openAs p.codec.aead (fun _ => p.codec.hkdf32 vk none .vaultOuter)
      (fun hdr => hdr ++ leBytes 8 version) (syncBlob p.codec vk version syncHeader nonce z) =
        some z := by
    refine Sealing.Format.openAs_sealAs ideal.toIdeal ?_ fits_syncHeader
    exact mem
  constructor
  · intro doc read
    exact decodeSyncBlob_eq_ok.mpr
      ⟨z, json, opened, lossless.decompress_compress packed .desktop, read⟩
  · intro doc read
    exact (VaultCrypto.decodeSyncBlob_eq_ok ideal).mpr
      ⟨z, json, opened, lossless.decompress_compress packed .phone, read⟩

/-- Sync blobs open at the version they were sealed for, on the side that sealed them and on the
other, and at no other version; nothing else opens; and a document has the envelopes it was made
of. -/
theorem sync_blobs_portable (lossless : p.Lossless) (ideal : p.codec.toCrypto.Ideal log) :
    (∀ vk nonce doc version, doc.Typed → ∃ json z b, p.codec.documentToJson doc = .ok json ∧
      p.codec.compress json = .ok z ∧ encodeSyncBlob p.codec vk nonce doc version = .ok b ∧
      syncBlob p.codec vk version syncHeader nonce z = b ∧
      (syncUse p.codec vk version syncHeader nonce z ∈ log →
        decodeSyncBlob p.codec vk b version = .ok doc ∧
        VaultCrypto.decodeSyncBlob p vk b version = .ok (VaultDocument.mirror p.uuid doc) ∧
        (VaultDocument.mirror p.uuid doc).Mirrors p.uuid doc)) ∧
    (∀ vk nonce v doc version, doc.Typed → v.Mirrors p.uuid doc → ∃ json z b,
      p.print .phone v.json = .ok json ∧ p.compress .phone json = .ok z ∧
      VaultCrypto.encodeSyncBlob p vk nonce v version = .ok b ∧
      syncBlob p.codec vk version syncHeader nonce z = b ∧
      (syncUse p.codec vk version syncHeader nonce z ∈ log →
        decodeSyncBlob p.codec vk b version = .ok doc)) ∧
    (∀ vk version nonce z, version < 2 ^ 64 →
      syncUse p.codec vk version syncHeader nonce z ∈ log →
      ∀ b, syncBlob p.codec vk version syncHeader nonce z = b →
        (∀ vk' version', version' < 2 ^ 64 → version' ≠ version →
          (∀ doc, decodeSyncBlob p.codec vk' b version' ≠ .ok doc) ∧
            ∀ doc, VaultCrypto.decodeSyncBlob p vk' b version' ≠ .ok doc) ∧
        (Set.InjOn Sealing.Call.nonce log → ∀ i x, b.set i x ≠ b → ∀ vk' version',
          (∀ doc, decodeSyncBlob p.codec vk' (b.set i x) version' ≠ .ok doc) ∧
            ∀ doc, VaultCrypto.decodeSyncBlob p vk' (b.set i x) version' ≠ .ok doc)) ∧
    (∀ vk b version, (∀ hdr nonce z, syncUse p.codec vk version hdr nonce z ∈ log →
        syncBlob p.codec vk version hdr nonce z ≠ b) →
      (∀ doc, decodeSyncBlob p.codec vk b version ≠ .ok doc) ∧
        ∀ doc, VaultCrypto.decodeSyncBlob p vk b version ≠ .ok doc) ∧
    (∀ envs tombstones, (Vault.VaultDocument.fromEnvelopes envs tombstones).envelopes = .ok envs ∧
      (Vault.VaultDocument.fromEnvelopes envs tombstones).tombstones = tombstones) := by
  refine ⟨?_, ?_, ?_, ?_, ?_⟩
  · intro vk nonce doc version typed
    obtain ⟨json, printed, -⟩ := lossless.json .desktop (doc.json p.uuid)
    obtain ⟨z, packed, -⟩ := lossless.zstd .desktop json
    refine ⟨json, z, _, printed, packed, core_encodeSyncBlob printed packed, rfl, fun mem => ?_⟩
    obtain ⟨core, phone⟩ := decodeSyncBlob_syncBlob lossless ideal packed mem
    exact ⟨core doc
        (lossless.decode_print (Vault.documentReader_json lossless.uuid typed) printed .desktop),
      phone _ (lossless.decode_print (documentReader_json typed) printed .phone),
      VaultDocument.mirrors_mirror lossless.uuid doc⟩
  · intro vk nonce v doc version typed mirrors
    obtain ⟨json, printed, -⟩ := lossless.json .phone v.json
    obtain ⟨z, packed, -⟩ := lossless.zstd .phone json
    refine ⟨json, z, _, printed, packed, VaultCrypto.encodeSyncBlob_eq printed packed, rfl,
      fun mem => ?_⟩
    obtain ⟨core, -⟩ := decodeSyncBlob_syncBlob lossless ideal packed mem
    exact core doc (lossless.decode_print
      (documentReader_of_mirrors lossless.uuid typed mirrors) printed .desktop)
  · rintro vk version nonce z small mem _ rfl
    constructor
    · intro vk' version' small' other
      have shut := ideal.syncBlob_of_ne small small' other fits_syncHeader mem vk'
      constructor
      · intro doc opens
        obtain ⟨pt, opened⟩ := openAs_of_decodeSyncBlob opens
        rw [shut] at opened
        cases opened
      · intro doc opens
        obtain ⟨pt, opened⟩ := VaultCrypto.openAs_of_decodeSyncBlob ideal opens
        rw [shut] at opened
        cases opened
    · intro fresh i x changed vk' version'
      have shut := ideal.syncBlob_set fresh fits_syncHeader mem changed vk' version'
      constructor
      · intro doc opens
        obtain ⟨pt, opened⟩ := openAs_of_decodeSyncBlob opens
        rw [shut] at opened
        cases opened
      · intro doc opens
        obtain ⟨pt, opened⟩ := VaultCrypto.openAs_of_decodeSyncBlob ideal opens
        rw [shut] at opened
        cases opened
  · intro vk b version foreign
    constructor
    · intro doc opens
      obtain ⟨pt, opened⟩ := openAs_of_decodeSyncBlob opens
      obtain ⟨hdr, nonce, mem, -, whole⟩ := (Sealing.Format.openAs_iff ideal.toIdeal).mp opened
      exact foreign hdr nonce pt mem whole
    · intro doc opens
      obtain ⟨pt, opened⟩ := VaultCrypto.openAs_of_decodeSyncBlob ideal opens
      obtain ⟨hdr, nonce, mem, -, whole⟩ := (Sealing.Format.openAs_iff ideal.toIdeal).mp opened
      exact foreign hdr nonce pt mem whole
  · intro envs tombstones
    exact ⟨Vault.VaultDocument.envelopes_fromEnvelopes envs tombstones, rfl⟩

/-- The recorded document opens at version 3 on both sides, and at version 4 on none. -/
theorem sync_blobs_portable_tombstone : ∃ b,
    encodeSyncBlob Sample.platforms.codec Desktop.sampleKey.bytes (Desktop.nonceOf 6)
      Sample.document 3 = .ok b ∧
    decodeSyncBlob Sample.platforms.codec Desktop.sampleKey.bytes b 3 = .ok Sample.document ∧
    VaultCrypto.decodeSyncBlob Sample.platforms Desktop.sampleKey.bytes b 3 =
      .ok (VaultDocument.mirror Sample.uuid Sample.document) ∧
    (∀ doc, decodeSyncBlob Sample.platforms.codec Desktop.sampleKey.bytes b 4 ≠ .ok doc) ∧
    VaultCrypto.encodeSyncBlob Sample.platforms Desktop.sampleKey.bytes (Desktop.nonceOf 6)
      (VaultDocument.mirror Sample.uuid Sample.document) 3 = .ok b := by
  obtain ⟨core, phone, versions, -, -⟩ :=
    sync_blobs_portable Sample.lossless_platforms Sample.ideal_platforms
  have other : Sample.tokens (Sample.document.json Sample.uuid) ≠
      Sample.tokens (Desktop.sampleNote.json Sample.uuid) := by decide +kernel
  have text : Sample.platforms.codec.documentToJson Sample.document = .ok Sample.documentText :=
    congrArg Except.ok ((if_neg other).trans (if_pos rfl))
  have phoneText : Sample.platforms.print .phone
      (VaultDocument.mirror Sample.uuid Sample.document).json = .ok Sample.documentText := text
  have packed : Sample.platforms.codec.compress Sample.documentText =
      .ok (Sample.compress Sample.documentText) := rfl
  have mem : syncUse Sample.platforms.codec Desktop.sampleKey.bytes 3 syncHeader
      (Desktop.nonceOf 6) (Sample.compress Sample.documentText) ∈
        {call | ∃ ct, (call, ct) ∈ Sample.table} :=
    ⟨_, List.mem_cons_of_mem _ (List.mem_cons_of_mem _ List.mem_cons_self)⟩
  obtain ⟨json, z, b, printed, zipped, encoded, rfl, opens⟩ :=
    core Desktop.sampleKey.bytes (Desktop.nonceOf 6) Sample.document 3 Sample.typed_document
  obtain ⟨json', z', b', printed', zipped', encoded', rfl, -⟩ :=
    phone Desktop.sampleKey.bytes (Desktop.nonceOf 6) _ Sample.document 3 Sample.typed_document
      (VaultDocument.mirrors_mirror Sample.correct_uuid Sample.document)
  rw [text, Except.ok.injEq] at printed
  rw [phoneText, Except.ok.injEq] at printed'
  subst printed printed'
  rw [packed, Except.ok.injEq] at zipped
  subst zipped
  cases zipped'
  obtain ⟨first, second, -⟩ := opens mem
  obtain ⟨others, -⟩ := versions Desktop.sampleKey.bytes 3 (Desktop.nonceOf 6) _ (by norm_num) mem
    _ rfl
  exact ⟨_, encoded, first, second, (others _ 4 (by norm_num) (by norm_num)).1, encoded'⟩

end Documents

end Sentinel.Phone
