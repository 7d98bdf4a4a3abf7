import Sentinel.Phone.Portable

/-!
# What the header of an envelope says

The store and the merge read the id and the time of an envelope in its clear header, the apps read
them in the sealed item. `open_item` compares the ids but not the times, and the phone's `openItem`
compares neither. So the header of an accepted envelope agrees with the item just if the client
that sealed it made it so.
-/

namespace Sentinel.Phone

open Vault

seal i64FromLe

variable (p : Platforms) {vk : VaultKey} {log : Set Use}

/-- If an opener accepts the envelope, the header has the id and the time of the item. -/
def HeaderAgrees (vk : VaultKey) (b : Bytes) : Prop :=
  (∀ item, openItem p.codec.toCrypto vk ⟨b⟩ = .ok item →
    envelopeMeta ⟨b⟩ = .ok (item.id, item.updatedAt)) ∧
  ∀ v, VaultCrypto.openItem p vk b = .ok v →
    ∃ id, p.uuid.parse v.id = some id ∧ envelopeMeta ⟨b⟩ = .ok (id, v.updatedAt)

/-- A text sealed under a header: the item that the core reads in it has the header's time if it
has the header's id, and the item that the phone reads in it has both. -/
def SealedAsSaid (id : ItemId) (updatedAt : Int) (pt : Bytes) : Prop :=
  (∀ item, p.codec.itemFromJson pt = .ok item → item.id = id → item.updatedAt = updatedAt) ∧
  ∀ v, p.decode .phone itemReader pt = .ok v →
    p.uuid.parse v.id = some id ∧ v.updatedAt = updatedAt

variable {p}

/-- What `seal_item` makes is sealed as said. -/
theorem sealedAsSaid_sealItem (lossless : p.Lossless) {item : Item} (typed : item.Typed)
    {pt : Bytes} (printed : p.codec.itemToJson item = .ok pt) :
    SealedAsSaid p item.id item.updatedAt pt := by
  have core := lossless.decode_print (Vault.itemReader_json lossless.uuid typed) printed .desktop
  have phone := lossless.decode_print (itemReader_json typed) printed .phone
  constructor
  · intro item' read _
    rw [show p.codec.itemFromJson pt = .ok item from core, Except.ok.injEq] at read
    rw [read]
  · intro v read
    rw [phone, Except.ok.injEq] at read
    subst read
    exact ⟨lossless.uuid.parse_display item.id, rfl⟩

/-- The header of an envelope agrees with what opens in it just if every client that sealed this
envelope sealed an item as said by the header. -/
theorem headerAgrees_iff (ideal : p.codec.toCrypto.Ideal log) (vk : VaultKey) (b : Bytes) :
    HeaderAgrees p vk b ↔ ∀ id updatedAt nonce pt, IsI64 updatedAt →
      itemUse p.codec.toCrypto vk id updatedAt nonce pt ∈ log →
        itemEnvelope p.codec.toCrypto vk id updatedAt nonce pt = b →
          SealedAsSaid p id updatedAt pt := by
  constructor
  · rintro ⟨core, phone⟩ id updatedAt nonce pt inside mem rfl
    have header : envelopeMeta ⟨itemEnvelope p.codec.toCrypto vk id updatedAt nonce pt⟩ =
        .ok (id, updatedAt) := envelopeMeta_itemEnvelope inside nonce pt
    constructor
    · rintro item read rfl
      have said := core item
        (ideal.openItem_iff.mpr ⟨updatedAt, nonce, pt, inside, mem, read, rfl⟩)
      rw [header, Except.ok.injEq] at said
      exact (congrArg Prod.snd said).symm
    · intro v read
      obtain ⟨id', named, said⟩ := phone v ((VaultCrypto.openItem_iff ideal).mpr
        ⟨id, updatedAt, nonce, pt, inside, mem, read, rfl⟩)
      rw [header, Except.ok.injEq] at said
      obtain ⟨rfl, rfl⟩ := Prod.mk.inj said
      exact ⟨named, rfl⟩
  · intro honest
    constructor
    · intro item opens
      obtain ⟨updatedAt, nonce, pt, inside, mem, read, rfl⟩ := ideal.openItem_iff.mp opens
      rw [envelopeMeta_itemEnvelope inside,
        (honest _ _ _ _ inside mem rfl).1 item read rfl]
    · intro v opens
      obtain ⟨id, updatedAt, nonce, pt, inside, mem, read, rfl⟩ :=
        (VaultCrypto.openItem_iff ideal).mp opens
      obtain ⟨named, time⟩ := (honest _ _ _ _ inside mem rfl).2 v read
      refine ⟨id, named, ?_⟩
      rw [envelopeMeta_itemEnvelope inside, time]

theorem read_sampleNoteJson :
    Sample.platforms.codec.itemFromJson Desktop.sampleNoteJson = .ok Desktop.sampleNote ∧
      Sample.platforms.decode .phone itemReader Desktop.sampleNoteJson =
        .ok (VaultItem.mirror Sample.uuid Desktop.sampleNote) := by
  have printed : Sample.platforms.print .desktop (Desktop.sampleNote.json Sample.uuid) =
      .ok Desktop.sampleNoteJson := congrArg Except.ok (if_pos rfl)
  exact ⟨Sample.lossless_platforms.decode_print
      (Vault.itemReader_json Sample.correct_uuid Sample.typed_sampleNote) printed .desktop,
    Sample.lossless_platforms.decode_print (itemReader_json Sample.typed_sampleNote) printed .phone⟩

theorem isI64_small {n : Int} (low : 0 ≤ n) (high : n ≤ 1000) : IsI64 n := by
  constructor
  · have wide : (-(2 ^ 63) : Int) ≤ 0 := by norm_num
    exact wide.trans low
  · have wide : (1000 : Int) < 2 ^ 63 := by norm_num
    exact high.trans_lt wide

/-- The note of time 100, and its envelope with the time. -/
theorem headerAgrees_note : HeaderAgrees Sample.platforms Desktop.sampleKey.bytes
    (itemEnvelope Sample.platforms.codec.toCrypto Desktop.sampleKey.bytes sampleId 100
      (Desktop.nonceOf 5) Desktop.sampleNoteJson) := by
  rw [headerAgrees_iff Sample.ideal_platforms]
  intro id updatedAt nonce pt inside mem same
  have mem' : itemUse Sample.platforms.codec.toCrypto Desktop.sampleKey.bytes sampleId 100
      (Desktop.nonceOf 5) Desktop.sampleNoteJson ∈ {call | ∃ ct, (call, ct) ∈ Sample.table} :=
    ⟨_, List.mem_cons_self⟩
  have inside' : IsI64 100 := isI64_small (by norm_num) (by norm_num)
  obtain ⟨headers, nonces, -⟩ := Sealing.Format.join_inj
    (fits_itemEnvelope Sample.ideal_platforms inside)
    (fits_itemEnvelope Sample.ideal_platforms inside') same
  obtain ⟨rfl, rfl⟩ := Prod.mk.inj headers
  have texts := congrArg Sealing.Call.plain (Sample.fresh_table mem mem' nonces)
  change pt = Desktop.sampleNoteJson at texts
  subst texts
  obtain ⟨core, phone⟩ := read_sampleNoteJson
  constructor
  · intro item read _
    rw [core, Except.ok.injEq] at read
    rw [← read]
    rfl
  · intro v read
    rw [phone, Except.ok.injEq] at read
    rw [← read]
    exact ⟨Sample.parseId_display sampleId, rfl⟩

/-- The note of time 100 under a header with the time 200. -/
def mismatched : Bytes :=
  itemEnvelope Sample.platforms.codec.toCrypto Desktop.sampleKey.bytes sampleId 200
    (Desktop.nonceOf 7) Desktop.sampleNoteJson

/-- Both openers accept it: the merge orders by 200, the user sees 100. -/
theorem mismatched_accepted :
    openItem Sample.platforms.codec.toCrypto Desktop.sampleKey.bytes ⟨mismatched⟩ =
      .ok Desktop.sampleNote ∧
    VaultCrypto.openItem Sample.platforms Desktop.sampleKey.bytes mismatched =
      .ok (VaultItem.mirror Sample.uuid Desktop.sampleNote) ∧
    envelopeMeta ⟨mismatched⟩ = .ok (sampleId, 200) ∧ Desktop.sampleNote.updatedAt = 100 ∧
    ¬ HeaderAgrees Sample.platforms Desktop.sampleKey.bytes mismatched := by
  have mem : itemUse Sample.platforms.codec.toCrypto Desktop.sampleKey.bytes sampleId 200
      (Desktop.nonceOf 7) Desktop.sampleNoteJson ∈ {call | ∃ ct, (call, ct) ∈ Sample.table} :=
    ⟨_, List.mem_cons_of_mem _ List.mem_cons_self⟩
  have inside : IsI64 200 := isI64_small (by norm_num) (by norm_num)
  obtain ⟨core, phone⟩ := read_sampleNoteJson
  have header : envelopeMeta ⟨mismatched⟩ = .ok (sampleId, 200) :=
    envelopeMeta_itemEnvelope inside _ _
  have opens : openItem Sample.platforms.codec.toCrypto Desktop.sampleKey.bytes ⟨mismatched⟩ =
      .ok Desktop.sampleNote :=
    Sample.ideal_platforms.openItem_iff.mpr ⟨200, _, _, inside, mem, core, rfl⟩
  refine ⟨opens, (VaultCrypto.openItem_iff Sample.ideal_platforms).mpr
    ⟨sampleId, 200, _, _, inside, mem, phone, rfl⟩, header, rfl, ?_⟩
  rintro ⟨agrees, -⟩
  have said := agrees Desktop.sampleNote opens
  rw [header, Except.ok.injEq] at said
  have times : (200 : Int) = 100 := congrArg Prod.snd said
  norm_num at times

end Sentinel.Phone
