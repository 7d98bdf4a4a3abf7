import Sentinel.Lib.Sealing
import Sentinel.Vault.FileBlob
import Sentinel.Vault.ItemJson

/-!
# What opens

Item envelopes and sync blobs are formats in the sense of `Lib/Sealing`: a clear part, a nonce and
a sealed text whose key and associated data depend on the clear part. With an ideal AEAD the
openers of `envelope.rs` and `document.rs` accept what was sealed and nothing else.

`openItemSliced` and `envelopeMetaSliced` are the openers with the bounds checks of every slice and
copy; they never fail one.
-/

namespace Sentinel.Vault

open Wire

/-- The AEAD of the vault. -/
def Crypto.aead (c : Crypto) : Sealing.Aead Key32 Nonce24 Bytes := ⟨c.aeadSeal, c.aeadOpen⟩

/-- A use of the AEAD of the vault. -/
abbrev Use := Sealing.Call Key32 Nonce24 Bytes

/-- The AEAD opens the uses of the log and nothing else, and its tag has sixteen bytes. -/
structure Crypto.Ideal (c : Crypto) (log : Set Use) : Prop extends c.aead.Ideal log where
  seal_length : ∀ key aad nonce pt, (c.aeadSeal key aad nonce pt).length = pt.length + 16

/-- A text for what no table records. -/
def spareText (pt : Bytes) : Bytes := pt ++ List.replicate 16 0

/-- The AEAD of a table is ideal if the table repeats nothing and its tags have sixteen bytes. -/
theorem Crypto.ideal_of_recorded {c : Crypto} {table : List (Use × Bytes)}
    (aead : c.aead = .recorded table spareText) (uses : (table.map Prod.fst).Nodup)
    (texts : (table.map Prod.snd).Nodup)
    (tags : ∀ e ∈ table, e.2.length = e.1.plain.length + 16) :
    c.Ideal {call | ∃ ct, (call, ct) ∈ table} where
  toIdeal := aead ▸ Sealing.Aead.ideal_recorded uses texts
  seal_length key aad nonce pt := by
    have text : c.aead.text ⟨key, aad, nonce, pt⟩ = c.aeadSeal key aad nonce pt := rfl
    obtain ⟨ct, mem, same⟩ | ⟨-, same⟩ :=
      Sealing.Aead.recorded_cases table spareText ⟨key, aad, nonce, pt⟩
    · rw [← text, aead, same]
      exact tags _ mem
    · rw [← text, aead, same, spareText, List.length_append, List.length_replicate]

theorem nonce_bytes_injective : Function.Injective Nonce24.bytes := fun _ _ => Nonce24.ext

/-- The range of an `i64`. -/
def IsI64 (n : Int) : Prop := -(2 ^ 63) ≤ n ∧ n < 2 ^ 63

theorem isI64_bmod (m : Nat) : IsI64 (Int.bmod m (2 ^ 64)) := by
  rw [IsI64, Int.bmod_def]
  split <;> omega

theorem isI64_i64FromLe (b : Bytes) : IsI64 (i64FromLe b) := isI64_bmod (leNat b)

theorem emod_bmod {m : Nat} (small : m < 2 ^ 64) :
    (Int.bmod m (2 ^ 64) % 2 ^ 64).toNat = m := by
  have same : Int.bmod m (2 ^ 64) % 2 ^ 64 = (m : Int) % 2 ^ 64 := Int.bmod_emod
  rw [same]
  omega

theorem i64ToLe_i64FromLe {b : Bytes} (eight : b.length = 8) : i64ToLe (i64FromLe b) = b := by
  have whole := leBytes_leNat b
  have reduced := leNat_leBytes 8 (leNat b)
  rw [eight] at whole
  rw [whole] at reduced
  have small : leNat b < 2 ^ 64 := by
    generalize leNat b = n at reduced
    omega
  have same : (i64FromLe b % 2 ^ 64).toNat = leNat b := emod_bmod small
  unfold i64ToLe
  rw [same]
  exact whole

/-! ## Item envelopes -/

seal i64FromLe

/-- The clear part of an envelope is complete: its first 25 bytes are those of a header. -/
theorem itemHeader_of_take {b : Bytes} (long : 25 ≤ b.length) (version : b.head? = some 0x01) :
    itemHeader (idAt b long) (i64FromLe ((b.drop 17).take 8)) = b.take 25 := by
  cases b with
  | nil => cases version
  | cons v rest =>
      cases version
      have time : ((0x01 :: rest).drop 17).take 8 = (rest.drop 16).take 8 := rfl
      have eight : ((rest.drop 16).take 8).length = 8 := by
        rw [List.length_cons] at long
        simp only [List.length_take, List.length_drop]
        omega
      have cut : rest.take (16 + 8) = rest.take 16 ++ (rest.drop 16).take 8 := List.take_add
      rw [time, itemHeader, i64ToLe_i64FromLe eight, List.take_succ_cons, cut]
      rfl

theorem header_le {b : Bytes} (long : 25 + 24 + 16 ≤ b.length ∧ b.head? = some 0x01) :
    25 ≤ b.length := by omega

theorem nonce_le {b : Bytes} (long : 25 + 24 + 16 ≤ b.length ∧ b.head? = some 0x01) :
    49 ≤ b.length := by omega

/-- The parts of an envelope. -/
def splitItem (b : Bytes) : Option ((ItemId × Int) × Nonce24 × Bytes) :=
  if long : 25 + 24 + 16 ≤ b.length ∧ b.head? = some 0x01 then
    some ((idAt b (header_le long), i64FromLe ((b.drop 17).take 8)), nonceAt b (nonce_le long),
      b.drop 49)
  else none

theorem splitItem_iff (b : Bytes) (p : ItemId × Int) (nonce : Nonce24) (ct : Bytes) :
    splitItem b = some (p, nonce, ct) ↔
      (IsI64 p.2 ∧ 16 ≤ ct.length) ∧ itemHeader p.1 p.2 ++ nonce.bytes ++ ct = b := by
  constructor
  · intro cut
    unfold splitItem at cut
    split at cut
    · rename_i long
      obtain ⟨first, rest⟩ := Prod.mk.inj (Option.some.inj cut)
      obtain ⟨rfl, rfl⟩ := Prod.mk.inj rest
      rw [← first]
      dsimp only
      have hdr := itemHeader_of_take (by omega) long.2
      refine ⟨⟨isI64_i64FromLe _, by rw [List.length_drop]; omega⟩, ?_⟩
      have middle : (nonceAt b (by omega)).bytes = (b.drop 25).take 24 := rfl
      have back : b.drop 49 = (b.drop 25).drop 24 := by rw [List.drop_drop]
      rw [hdr, middle, back, List.append_assoc, List.take_append_drop, List.take_append_drop]
    · cases cut
  · rintro ⟨⟨inside, tag⟩, rfl⟩
    obtain ⟨id, updatedAt⟩ := p
    have len := length_itemHeader id updatedAt
    have both : (itemHeader id updatedAt ++ nonce.bytes).length = 49 := by
      rw [List.length_append, len, nonce.length]
    have total : 25 + 24 + 16 ≤ (itemHeader id updatedAt ++ nonce.bytes ++ ct).length := by
      rw [List.length_append, both]
      omega
    have read : envelopeMeta ⟨itemHeader id updatedAt ++ (nonce.bytes ++ ct)⟩ =
        .ok (id, updatedAt) := envelopeMeta_header inside.1 inside.2 _
    rw [← List.append_assoc, envelopeMeta, dif_pos (by simp only; omega), Except.ok.injEq] at read
    obtain ⟨ids, times⟩ := Prod.mk.inj read
    have nonces : nonceAt (itemHeader id updatedAt ++ nonce.bytes ++ ct) (by omega) = nonce := by
      simp only [nonceAt, List.append_assoc, ← len, List.drop_left, ← nonce.length,
        List.take_left]
    refine (dif_pos ⟨total, rfl⟩).trans ?_
    rw [nonces, List.drop_left' both, ids, times]

/-- `0x01 | item_id(16) | updated_at i64 LE (8) | nonce(24) | ct`. -/
def itemFormat : Sealing.Format Nonce24 Bytes (ItemId × Int) where
  Fits p ct := IsI64 p.2 ∧ 16 ≤ ct.length
  join p nonce ct := itemHeader p.1 p.2 ++ nonce.bytes ++ ct
  split := splitItem
  split_iff := splitItem_iff

theorem itemFormat_split {b : Bytes} (long : 25 + 24 + 16 ≤ b.length)
    (version : b.head? = some 0x01) : itemFormat.split b =
      some ((idAt b (by omega), i64FromLe ((b.drop 17).take 8)), nonceAt b (by omega), b.drop 49) :=
  dif_pos ⟨long, version⟩

theorem itemFormat_split_none {b : Bytes}
    (bad : ¬ (25 + 24 + 16 ≤ b.length ∧ b.head? = some 0x01)) : itemFormat.split b = none :=
  dif_neg bad

section Except

variable {ε δ α β : Type}

theorem bind_ok_iff {r : Except ε α} {f : α → Except ε β} {b : β} :
    (r >>= f) = .ok b ↔ ∃ a, r = .ok a ∧ f a = .ok b := by
  cases r with
  | error e =>
      constructor
      · intro eq
        cases eq
      · rintro ⟨a, eq, -⟩
        cases eq
  | ok a =>
      constructor
      · intro eq
        exact ⟨a, rfl, eq⟩
      · rintro ⟨a', same, eq⟩
        cases same
        exact eq

theorem elim_ok_iff {o : Option α} {e : ε} {a : α} :
    o.elim (.error e) Except.ok = .ok a ↔ o = some a := by
  cases o <;> simp

theorem mapError_ok_iff {r : Except ε α} {f : ε → δ} {a : α} :
    r.mapError f = .ok a ↔ r = .ok a := by
  cases r <;> simp [Except.mapError]

/-- A check that throws before the rest. -/
theorem throw_ok_iff {p : Prop} [Decidable p] {e : ε} {f : Unit → Except ε α} {r : Except ε α}
    {a : α} : (if p then (throw e : Except ε Unit) >>= f else r) = .ok a ↔ ¬ p ∧ r = .ok a := by
  by_cases holds : p
  · rw [if_pos holds]
    constructor
    · intro eq
      cases eq
    · rintro ⟨other, -⟩
      exact absurd holds other
  · rw [if_neg holds, and_iff_right holds]

end Except

section Items

variable {c : Crypto} {vk : VaultKey} {log : Set Use}

/-- The opener reads what the AEAD opens in the parts of the envelope. -/
theorem openItem_eq_ok {b : Bytes} {item : Item} :
    openItem c vk ⟨b⟩ = .ok item ↔ ∃ p nonce ct pt, itemFormat.split b = some (p, nonce, ct) ∧
      c.aeadOpen (itemKey c vk p.1) (itemHeader p.1 p.2) nonce ct = some pt ∧
        c.itemFromJson pt = .ok item ∧ item.id = p.1 := by
  by_cases long : 25 + 24 + 16 ≤ b.length
  · have hdr := itemHeader_of_take (show 25 ≤ b.length by omega)
    rw [openItem, dif_pos long]
    dsimp only
    simp only [throw_ok_iff, bind_ok_iff, elim_ok_iff, mapError_ok_iff]
    constructor
    · rintro ⟨version, pt, opened, item', read, bound, eq⟩
      cases eq
      rw [← hdr (not_not.mp version)] at opened
      exact ⟨_, _, _, pt, itemFormat_split long (not_not.mp version), opened, read,
        not_not.mp bound⟩
    · rintro ⟨p, nonce, ct, pt, cut, opened, read, bound⟩
      by_cases version : b.head? = some 0x01
      · rw [itemFormat_split long version] at cut
        obtain ⟨rfl, rest⟩ := Prod.mk.inj (Option.some.inj cut)
        obtain ⟨rfl, rfl⟩ := Prod.mk.inj rest
        rw [hdr version] at opened
        exact ⟨not_not.mpr version, pt, opened, item, read, not_not.mpr bound, rfl⟩
      · rw [itemFormat_split_none fun both => version both.2] at cut
        cases cut
  · rw [openItem, dif_neg long, itemFormat_split_none fun both => long both.1]
    constructor
    · intro opens
      cases opens
    · rintro ⟨p, nonce, ct, pt, same, -⟩
      cases same

/-- The envelope of a use. -/
def itemEnvelope (c : Crypto) (vk : VaultKey) (id : ItemId) (updatedAt : Int) (nonce : Nonce24)
    (pt : Bytes) : Bytes :=
  itemFormat.sealAs c.aead (fun p => itemKey c vk p.1) (fun p => itemHeader p.1 p.2)
    (id, updatedAt) nonce pt

/-- The use of the AEAD that makes an envelope. -/
def itemUse (c : Crypto) (vk : VaultKey) (id : ItemId) (updatedAt : Int) (nonce : Nonce24)
    (pt : Bytes) : Use :=
  ⟨itemKey c vk id, itemHeader id updatedAt, nonce, pt⟩

theorem sealItem_eq_ok {nonce : Nonce24} {item : Item} {env : ItemEnvelope} :
    sealItem c vk nonce item = .ok env ↔ ∃ pt, c.itemToJson item = .ok pt ∧
      env = ⟨itemEnvelope c vk item.id item.updatedAt nonce pt⟩ := by
  rw [sealItem, bind_ok_iff]
  simp only [mapError_ok_iff]
  refine exists_congr fun pt => and_congr_right fun _ => ?_
  exact ⟨fun eq => (Except.ok.inj eq).symm, fun eq => eq ▸ rfl⟩

theorem fits_itemEnvelope (ideal : c.Ideal log) {id : ItemId} {updatedAt : Int}
    (inside : IsI64 updatedAt) {nonce : Nonce24} {pt : Bytes} : itemFormat.Fits (id, updatedAt)
      (c.aead.sealed (itemKey c vk id) (itemHeader id updatedAt) nonce pt) := by
  have tagged := ideal.seal_length (itemKey c vk id) (itemHeader id updatedAt) nonce pt
  exact ⟨inside, (Nat.le_add_left 16 _).trans tagged.ge⟩

/-- An envelope opens just if it was sealed: under the key of its id, with its header as
associated data, and over an item with that id. -/
theorem Crypto.Ideal.openItem_iff (ideal : c.Ideal log) {b : Bytes} {item : Item} :
    openItem c vk ⟨b⟩ = .ok item ↔ ∃ updatedAt nonce pt, IsI64 updatedAt ∧
      itemUse c vk item.id updatedAt nonce pt ∈ log ∧ c.itemFromJson pt = .ok item ∧
        itemEnvelope c vk item.id updatedAt nonce pt = b := by
  rw [openItem_eq_ok]
  constructor
  · rintro ⟨⟨id, updatedAt⟩, nonce, ct, pt, cut, opened, read, rfl⟩
    obtain ⟨fits, whole⟩ := (itemFormat.split_iff _ _ _ _).mp cut
    obtain ⟨mem, text⟩ := (ideal.opened_iff _ _ _ _ _).mp opened
    rw [text] at whole
    exact ⟨updatedAt, nonce, pt, fits.1, mem, read, whole⟩
  · rintro ⟨updatedAt, nonce, pt, inside, mem, read, rfl⟩
    exact ⟨(item.id, updatedAt), nonce, _, pt, (itemFormat.split_iff _ _ _ _).mpr
      ⟨fits_itemEnvelope ideal inside, rfl⟩, ideal.opened_sealed mem, read, rfl⟩

theorem laid_itemFormat : itemFormat.Laid (fun h => itemHeader h.1 h.2) Nonce24.bytes 24 where
  join_eq _ _ _ := rfl
  mid_length := Nonce24.length
  mid_inj := nonce_bytes_injective
  rigid _ _ _ := (length_itemHeader _ _).trans (length_itemHeader _ _).symm

theorem openAs_of_openItem {b : Bytes} {item : Item} (opens : openItem c vk ⟨b⟩ = .ok item) :
    ∃ pt, itemFormat.openAs c.aead (fun h => itemKey c vk h.1) (fun h => itemHeader h.1 h.2) b =
      some pt := by
  obtain ⟨h, nonce, ct, pt, cut, opened, -⟩ := openItem_eq_ok.mp opens
  refine ⟨pt, ?_⟩
  rw [Sealing.Format.openAs, cut]
  exact opened

/-- An envelope does not open when one byte of it is changed. -/
theorem Crypto.Ideal.itemEnvelope_set (ideal : c.Ideal log)
    (fresh : Set.InjOn Sealing.Call.nonce log) {id : ItemId} {updatedAt : Int}
    (inside : IsI64 updatedAt) {nonce : Nonce24} {pt : Bytes}
    (mem : itemUse c vk id updatedAt nonce pt ∈ log) {i : Nat} {x : UInt8}
    (changed : (itemEnvelope c vk id updatedAt nonce pt).set i x ≠
      itemEnvelope c vk id updatedAt nonce pt) (vk' : VaultKey) :
    itemFormat.openAs c.aead (fun h => itemKey c vk' h.1) (fun h => itemHeader h.1 h.2)
      ((itemEnvelope c vk id updatedAt nonce pt).set i x) = none := by
  refine laid_itemFormat.openAs_set ideal.toIdeal fresh ?_ (fits_itemEnvelope ideal inside)
    (fun _ same => same) changed
  exact mem

end Items

/-! ## Sync blobs -/

/-- Magic and version. -/
def syncTag : Bytes := [0x53, 0x56, 0x4c, 0x54, 0x01]

theorem syncHeader_le {b : Bytes} (long : 8 + 24 ≤ b.length ∧ b.take 5 = syncTag) :
    32 ≤ b.length := long.1

/-- The parts of a blob. -/
def splitSync (b : Bytes) : Option (Bytes × Nonce24 × Bytes) :=
  if long : 8 + 24 ≤ b.length ∧ b.take 5 = syncTag then
    some (b.take 8, syncNonceAt b (syncHeader_le long), b.drop 32)
  else none

theorem splitSync_iff (b hdr : Bytes) (nonce : Nonce24) (ct : Bytes) :
    splitSync b = some (hdr, nonce, ct) ↔
      (hdr.length = 8 ∧ hdr.take 5 = syncTag) ∧ hdr ++ nonce.bytes ++ ct = b := by
  constructor
  · intro cut
    unfold splitSync at cut
    split at cut
    · rename_i long
      obtain ⟨rfl, rest⟩ := Prod.mk.inj (Option.some.inj cut)
      obtain ⟨rfl, rfl⟩ := Prod.mk.inj rest
      refine ⟨⟨?_, ?_⟩, ?_⟩
      · rw [List.length_take]
        omega
      · rw [List.take_take]
        exact long.2
      · have middle : (syncNonceAt b long.1).bytes = (b.drop 8).take 24 := rfl
        have back : b.drop 32 = (b.drop 8).drop 24 := by rw [List.drop_drop]
        rw [middle, back, List.append_assoc, List.take_append_drop, List.take_append_drop]
    · cases cut
  · rintro ⟨⟨eight, tag⟩, rfl⟩
    have both : (hdr ++ nonce.bytes).length = 32 := by
      rw [List.length_append, eight, nonce.length]
    have long : 8 + 24 ≤ (hdr ++ nonce.bytes ++ ct).length := by
      rw [List.length_append, both]
      omega
    have front : (hdr ++ nonce.bytes ++ ct).take 8 = hdr := by
      rw [List.append_assoc, List.take_left' eight]
    have five : (hdr ++ nonce.bytes ++ ct).take 5 = syncTag := by
      have inner : ((hdr ++ nonce.bytes ++ ct).take 8).take 5 =
          (hdr ++ nonce.bytes ++ ct).take 5 := List.take_take
      rw [← inner, front, tag]
    have nonces : syncNonceAt (hdr ++ nonce.bytes ++ ct) long = nonce := by
      simp only [syncNonceAt, List.append_assoc, List.drop_left' eight,
        List.take_left' nonce.length]
    refine (dif_pos ⟨long, five⟩).trans ?_
    rw [front, nonces, List.drop_left' both]

/-- `header(8) | nonce(24) | ct`, the header being the tag and three more bytes. -/
def syncFormat : Sealing.Format Nonce24 Bytes Bytes where
  Fits hdr _ := hdr.length = 8 ∧ hdr.take 5 = syncTag
  join hdr nonce ct := hdr ++ nonce.bytes ++ ct
  split := splitSync
  split_iff := splitSync_iff

theorem syncFormat_split {b : Bytes} (long : 8 + 24 ≤ b.length) (tag : b.take 5 = syncTag) :
    syncFormat.split b = some (b.take 8, syncNonceAt b long, b.drop 32) := dif_pos ⟨long, tag⟩

theorem syncFormat_split_none {b : Bytes} (bad : ¬ (8 + 24 ≤ b.length ∧ b.take 5 = syncTag)) :
    syncFormat.split b = none := dif_neg bad

theorem laid_syncFormat : syncFormat.Laid (fun hdr => hdr) Nonce24.bytes 24 where
  join_eq _ _ _ := rfl
  mid_length := Nonce24.length
  mid_inj := nonce_bytes_injective
  rigid fits fits' _ := fits.1.trans fits'.1.symm

section Blobs

variable {c : Codec} {vk : VaultKey} {log : Set Use}

/-- The key and the associated data of a blob for a version. -/
def syncUse (c : Codec) (vk : VaultKey) (version : Nat) (hdr : Bytes) (nonce : Nonce24)
    (pt : Bytes) : Use :=
  ⟨c.hkdf32 vk none .vaultOuter, hdr ++ leBytes 8 version, nonce, pt⟩

def syncBlob (c : Codec) (vk : VaultKey) (version : Nat) (hdr : Bytes) (nonce : Nonce24)
    (pt : Bytes) : Bytes :=
  syncFormat.sealAs c.aead (fun _ => c.hkdf32 vk none .vaultOuter)
    (fun hdr => hdr ++ leBytes 8 version) hdr nonce pt

theorem decodeSyncBlob_eq_ok {b : Bytes} {version : Nat} {doc : VaultDocument} :
    decodeSyncBlob c vk b version = .ok doc ↔ ∃ pt json,
      syncFormat.openAs c.aead (fun _ => c.hkdf32 vk none .vaultOuter)
        (fun hdr => hdr ++ leBytes 8 version) b = some pt ∧
      c.decompress pt = .ok json ∧ c.documentFromJson json = .ok doc := by
  by_cases long : 8 + 24 ≤ b.length
  · rw [decodeSyncBlob, dif_pos long]
    dsimp only
    simp only [throw_ok_iff, bind_ok_iff, elim_ok_iff, mapError_ok_iff]
    by_cases tag : b.take 5 = syncTag
    · have magic : ¬ b.take 5 ≠ [0x53, 0x56, 0x4c, 0x54, 0x01] := not_not.mpr tag
      rw [and_iff_right magic, Sealing.Format.openAs, syncFormat_split long tag, Option.bind_some]
      exact exists_congr fun pt => exists_and_left.symm
    · have magic : b.take 5 ≠ [0x53, 0x56, 0x4c, 0x54, 0x01] := tag
      rw [Sealing.Format.openAs, syncFormat_split_none fun both => tag both.2]
      constructor
      · rintro ⟨other, -⟩
        exact absurd magic other
      · rintro ⟨pt, json, opened, -⟩
        cases opened
  · rw [decodeSyncBlob, dif_neg long, Sealing.Format.openAs,
      syncFormat_split_none fun both => long both.1]
    constructor
    · intro opens
      cases opens
    · rintro ⟨pt, json, opened, -⟩
      cases opened

/-- A blob opens at a version just if it was sealed for it. -/
theorem Crypto.Ideal.decodeSyncBlob_iff (ideal : c.toCrypto.Ideal log) {b : Bytes} {version : Nat}
    {doc : VaultDocument} : decodeSyncBlob c vk b version = .ok doc ↔
      ∃ hdr nonce pt json, (hdr.length = 8 ∧ hdr.take 5 = syncTag) ∧
        syncUse c vk version hdr nonce pt ∈ log ∧ c.decompress pt = .ok json ∧
          c.documentFromJson json = .ok doc ∧ syncBlob c vk version hdr nonce pt = b := by
  rw [decodeSyncBlob_eq_ok]
  simp only [Sealing.Format.openAs_iff ideal.toIdeal]
  constructor
  · rintro ⟨pt, json, ⟨hdr, nonce, mem, fits, whole⟩, unpacked, read⟩
    exact ⟨hdr, nonce, pt, json, fits, mem, unpacked, read, whole⟩
  · rintro ⟨hdr, nonce, pt, json, fits, mem, unpacked, read, whole⟩
    exact ⟨pt, json, ⟨hdr, nonce, mem, fits, whole⟩, unpacked, read⟩

theorem leBytes_inj {version version' : Nat} (small : version < 2 ^ 64) (small' : version' < 2 ^ 64)
    (same : leBytes 8 version = leBytes 8 version') : version = version' := by
  have numbers := congrArg leNat same
  rw [leNat_leBytes, leNat_leBytes] at numbers
  omega

theorem openAs_of_decodeSyncBlob {b : Bytes} {version : Nat} {doc : VaultDocument}
    (opens : decodeSyncBlob c vk b version = .ok doc) : ∃ pt,
      syncFormat.openAs c.aead (fun _ => c.hkdf32 vk none .vaultOuter)
        (fun hdr => hdr ++ leBytes 8 version) b = some pt := by
  obtain ⟨pt, json, opened, -⟩ := decodeSyncBlob_eq_ok.mp opens
  exact ⟨pt, opened⟩

/-- A blob opens at no version but its own. -/
theorem Crypto.Ideal.syncBlob_of_ne (ideal : c.toCrypto.Ideal log) {version version' : Nat}
    (small : version < 2 ^ 64) (small' : version' < 2 ^ 64) (other : version' ≠ version)
    {hdr : Bytes} (fits : hdr.length = 8 ∧ hdr.take 5 = syncTag) {nonce : Nonce24} {pt : Bytes}
    (mem : syncUse c vk version hdr nonce pt ∈ log) (vk' : VaultKey) :
    syncFormat.openAs c.aead (fun _ => c.hkdf32 vk' none .vaultOuter)
      (fun hdr => hdr ++ leBytes 8 version') (syncBlob c vk version hdr nonce pt) = none := by
  refine Sealing.Format.openAs_of_ne ideal.toIdeal ?_ fits (.inr fun same => ?_)
  · exact mem
  · exact other (leBytes_inj small' small (List.append_cancel_left same))

/-- A blob opens at no version when one byte of it is changed. -/
theorem Crypto.Ideal.syncBlob_set (ideal : c.toCrypto.Ideal log)
    (fresh : Set.InjOn Sealing.Call.nonce log) {version : Nat} {hdr : Bytes}
    (fits : hdr.length = 8 ∧ hdr.take 5 = syncTag) {nonce : Nonce24} {pt : Bytes}
    (mem : syncUse c vk version hdr nonce pt ∈ log) {i : Nat} {x : UInt8}
    (changed : (syncBlob c vk version hdr nonce pt).set i x ≠ syncBlob c vk version hdr nonce pt)
    (vk' : VaultKey) (version' : Nat) :
    syncFormat.openAs c.aead (fun _ => c.hkdf32 vk' none .vaultOuter)
      (fun hdr => hdr ++ leBytes 8 version') ((syncBlob c vk version hdr nonce pt).set i x) =
        none := by
  refine laid_syncFormat.openAs_set ideal.toIdeal fresh ?_ fits (fun hdr' same => ?_) changed
  · exact mem
  · have eight : (leBytes 8 version').length = (leBytes 8 version).length :=
      (length_leBytes 8 version').trans (length_leBytes 8 version).symm
    exact (List.append_inj' same eight).1

end Blobs

/-! ## Bounds checks -/

/-- `copy_from_slice` into an array of sixteen bytes. -/
def asItemId {ε : Type} (s : Bytes) : Checked ε ItemId :=
  if exact : s.length = 16 then .ok ⟨s, exact⟩ else .trap

/-- `copy_from_slice` into an array of 24 bytes. -/
def asNonce24 {ε : Type} (s : Bytes) : Checked ε Nonce24 :=
  if exact : s.length = 24 then .ok ⟨s, exact⟩ else .trap

/-- `copy_from_slice` into an array of eight bytes, and `i64::from_le_bytes`. -/
def asI64 {ε : Type} (s : Bytes) : Checked ε Int :=
  if s.length = 8 then .ok (i64FromLe s) else .trap

/-- `open_item` with its slices. -/
def openItemSliced (c : Crypto) (vk : VaultKey) (env : ItemEnvelope) : Checked CoreError Item := do
  let b := env.bytes
  Checked.require (decide (25 + 24 + 16 ≤ b.length)) (.format "item envelope" "too short")
  let version ← Checked.slice b 0 1
  Checked.require (version == [0x01])
    (.format "item envelope" s!"unsupported version {version.head?.getD 0}")
  let id ← asItemId (← Checked.slice b 1 16)
  let header ← Checked.slice b 0 25
  let nonce ← asNonce24 (← Checked.slice b 25 24)
  let ct ← Checked.slice b 49 (b.length - 49)
  let pt ← Checked.ofOption .decrypt (c.aeadOpen (itemKey c vk id) header nonce ct)
  let item ← Checked.ofExcept .serde (c.itemFromJson pt)
  Checked.require (decide (item.id = id)) (.format "item envelope" "item id mismatch")
  pure item

/-- `envelope_meta` with its slices. -/
def envelopeMetaSliced (env : ItemEnvelope) : Checked CoreError (ItemId × Int) := do
  let b := env.bytes
  Checked.require (decide (25 ≤ b.length)) (.format "item envelope" "too short for meta")
  let id ← asItemId (← Checked.slice b 1 16)
  let updatedAt ← asI64 (← Checked.slice b 17 8)
  pure (id, updatedAt)

theorem asItemId_eq {ε : Type} {s : Bytes} (exact_ : s.length = 16) :
    (asItemId s : Checked ε ItemId) = .ok ⟨s, exact_⟩ := dif_pos exact_

theorem asNonce24_eq {ε : Type} {s : Bytes} (exact_ : s.length = 24) :
    (asNonce24 s : Checked ε Nonce24) = .ok ⟨s, exact_⟩ := dif_pos exact_

theorem asI64_eq {ε : Type} {s : Bytes} (exact_ : s.length = 8) :
    (asI64 s : Checked ε Int) = .ok (i64FromLe s) := if_pos exact_

theorem length_slice {b : Bytes} {pos n : Nat} (inside : pos + n ≤ b.length) :
    ((b.drop pos).take n).length = n := by
  rw [List.length_take, List.length_drop]
  omega

theorem take_one_eq_iff {b : Bytes} {v : UInt8} : b.take 1 = [v] ↔ b.head? = some v := by
  cases b <;> simp

/-- No bounds check of `open_item` fails. -/
theorem openItemSliced_eq (c : Crypto) (vk : VaultKey) (env : ItemEnvelope) :
    openItemSliced c vk env = Checked.ofExcept id (openItem c vk env) := by
  obtain ⟨b⟩ := env
  rw [openItemSliced, openItem]
  dsimp only
  by_cases long : 25 + 24 + 16 ≤ b.length
  · have all : (b.drop 49).take (b.length - 49) = b.drop 49 :=
      List.take_of_length_le (by rw [List.length_drop])
    rw [decide_eq_true long, dif_pos long, Checked.slice_eq (show 0 + 1 ≤ b.length by omega),
      Checked.slice_eq (show 1 + 16 ≤ b.length by omega),
      Checked.slice_eq (show 0 + 25 ≤ b.length by omega),
      Checked.slice_eq (show 25 + 24 ≤ b.length by omega),
      Checked.slice_eq (show 49 + (b.length - 49) ≤ b.length by omega), all, List.drop_zero]
    simp only [Checked.require_true, Checked.ok_bind,
      asItemId_eq (length_slice (show 1 + 16 ≤ b.length by omega)),
      asNonce24_eq (length_slice (show 25 + 24 ≤ b.length by omega))]
    by_cases version : b.head? = some 0x01
    · have first : (b.take 1 == [0x01]) = true := beq_iff_eq.mpr (take_one_eq_iff.mpr version)
      rw [first, if_neg (not_not.mpr version)]
      simp only [Checked.require_true, Checked.ok_bind]
      change Checked.ofOption _ (c.aeadOpen (itemKey c vk (idAt b (by omega))) _
        (nonceAt b (by omega)) _) >>= _ = Checked.ofExcept _ (_ >>= _)
      cases c.aeadOpen (itemKey c vk (idAt b (by omega))) (b.take 25) (nonceAt b (by omega))
          (b.drop 49) with
      | none => rfl
      | some pt =>
          change Checked.ofExcept _ (c.itemFromJson pt) >>= _ =
            Checked.ofExcept _ (Except.mapError _ (c.itemFromJson pt) >>= _)
          cases c.itemFromJson pt with
          | error e => rfl
          | ok item =>
              change Checked.require (decide (item.id = idAt b (by omega))) _ >>= _ =
                Checked.ofExcept _ (if item.id ≠ idAt b (by omega) then _ else _)
              by_cases bound : item.id = idAt b (by omega)
              · rw [decide_eq_true bound, if_neg (not_not.mpr bound)]
                rfl
              · rw [decide_eq_false bound, if_pos bound]
                rfl
    · have first : (b.take 1 == [0x01]) = false := by
        rw [← Bool.not_eq_true, beq_iff_eq, take_one_eq_iff]
        exact version
      rw [first, if_pos version, List.head?_take, if_neg (by omega)]
      rfl
  · rw [decide_eq_false long, dif_neg long]
    rfl

theorem envelopeMetaSliced_eq (env : ItemEnvelope) :
    envelopeMetaSliced env = Checked.ofExcept id (envelopeMeta env) := by
  obtain ⟨b⟩ := env
  rw [envelopeMetaSliced, envelopeMeta]
  dsimp only
  by_cases long : 25 ≤ b.length
  · rw [decide_eq_true long, dif_pos long, Checked.slice_eq (show 1 + 16 ≤ b.length by omega),
      Checked.slice_eq (show 17 + 8 ≤ b.length by omega)]
    simp only [Checked.require_true, Checked.ok_bind,
      asItemId_eq (length_slice (show 1 + 16 ≤ b.length by omega)),
      asI64_eq (length_slice (show 17 + 8 ≤ b.length by omega))]
    rfl
  · rw [decide_eq_false long, dif_neg long]
    rfl

end Sentinel.Vault
