import Sentinel.Vault.Sealed
import Sentinel.Vault.Store
import Sentinel.Desktop.Wrapper

/-!
# A suite from recorded values

The third-party code as far as a finite table of its values goes. Where the table says
nothing, the cipher appends a tag that no recorded ciphertext ends with, so that it still
opens what it sealed and nothing else (`Records.Injective.correct`); the other functions answer
nothing there.
-/

namespace Sentinel.Desktop

open Vault

deriving instance DecidableEq for Passkey

deriving instance DecidableEq for Item

/-- The tag of a ciphertext that is not recorded: sixteen bytes, of which the first is zero. -/
def spareTag (key : Key32) : Bytes := 0 :: (key ++ List.replicate 15 0).take 15

theorem length_spareTag (key : Key32) : (spareTag key).length = 16 := by
  simp [spareTag]

/-- The last sixteen bytes. -/
def tagOf (ct : Bytes) : Bytes := ct.drop (ct.length - 16)

def spareSeal (key : Key32) (pt : Bytes) : Bytes := pt ++ spareTag key

def spareOpen (key : Key32) (ct : Bytes) : Option Bytes :=
  if tagOf ct = spareTag key then some (ct.take (ct.length - 16)) else none

theorem length_spareSeal (key : Key32) (pt : Bytes) :
    (spareSeal key pt).length - 16 = pt.length := by
  rw [spareSeal, List.length_append, length_spareTag, Nat.add_sub_cancel]

theorem tagOf_spareSeal (key : Key32) (pt : Bytes) : tagOf (spareSeal key pt) = spareTag key := by
  rw [tagOf, length_spareSeal, spareSeal, List.drop_left]

theorem take_spareSeal (key : Key32) (pt : Bytes) :
    (spareSeal key pt).take ((spareSeal key pt).length - 16) = pt := by
  rw [length_spareSeal, spareSeal, List.take_left]

/-- The recorded ciphertexts have a tag each, not one of the spare ones, and determine their
texts. -/
def Consistent (table : List (Use × Bytes)) : Prop :=
  ∀ e ∈ table, e.2.length = e.1.plain.length + 16 ∧ (tagOf e.2).head? ≠ some 0 ∧
    ∀ e' ∈ table, e.2 = e'.2 → e.1.plain = e'.1.plain

instance (table : List (Use × Bytes)) : Decidable (Consistent table) := by
  unfold Consistent
  infer_instance

theorem Consistent.spares {table : List (Use × Bytes)} (consistent : Consistent table) :
    Sealing.Aead.Spares table spareSeal spareOpen where
  reads key pt := by rw [spareOpen, if_pos (tagOf_spareSeal key pt), take_spareSeal]
  committing key key' pt pt' opened := by
    unfold spareOpen at opened
    split at opened
    · cases opened
      exact take_spareSeal key pt
    · cases opened
  apart e mem key := by
    refine if_neg fun spare => (consistent e mem).2.1 ?_
    rw [spare]
    rfl
  texts e mem := (consistent e mem).2.2

/-- Recorded values of the third-party code. -/
structure Records where
  seals : List (Use × Bytes) := []
  hkdf : List ((Bytes × Option Bytes × Info) × Key32) := []
  argon2id : List ((Bytes × Bytes) × Key32) := []
  items : List (Item × Bytes) := []
  hmac : List ((TotpAlgo × Bytes × Bytes) × Bytes) := []

/-- No two items have one serialization. -/
def Records.Injective (r : Records) : Prop :=
  Consistent r.seals ∧ ∀ a ∈ r.items, ∀ b ∈ r.items, a.2 = b.2 → a.1 = b.1

instance (r : Records) : Decidable r.Injective := by
  unfold Records.Injective
  infer_instance

/-- The suite that answers as recorded. -/
def Records.suite (r : Records) : Suite where
  hkdf32 key salt info := (r.hkdf.lookup (key, salt, info)).getD []
  aeadSeal := (Sealing.Aead.extended r.seals spareSeal spareOpen).sealed
  aeadOpen := (Sealing.Aead.extended r.seals spareSeal spareOpen).opened
  itemToJson item := (r.items.lookup item).elim (.error "not recorded") .ok
  itemFromJson json :=
    ((r.items.find? fun e => decide (e.2 = json)).map Prod.fst).elim (.error "not recorded") .ok
  compress _ := .error "not recorded"
  decompress _ := .error "not recorded"
  documentToJson _ := .error "not recorded"
  documentFromJson _ := .error "not recorded"
  hmac algo key msg := (r.hmac.lookup (algo, key, msg)).getD []
  queryPairs _ := none
  argon2idKek secret salt := (r.argon2id.lookup (secret, salt)).getD []
  recoveryKitDecode _ := .error "not recorded"
  base64Error _ := "not recorded"
  urlSafeDecode _ := none
  joinBundleFromJson _ := none
  parseUuid _ := none

theorem mem_of_lookup {α β : Type} [DecidableEq α] {l : List (α × β)} {a : α} {b : β}
    (h : l.lookup a = some b) : (a, b) ∈ l := by
  induction l with
  | nil => cases h
  | cons e rest ih =>
      rw [List.lookup_cons] at h
      split at h
      · rename_i same
        cases h
        rw [eq_of_beq same]
        exact List.mem_cons_self
      · exact List.mem_cons_of_mem _ (ih h)

theorem Records.Injective.correct {r : Records} (h : r.Injective) :
    r.suite.toCrypto.Correct ∧ Committing r.suite.toCrypto where
  left :=
    { open_seal := h.1.spares.opened_sealed
      seal_length := by
        intro key aad nonce pt
        obtain ⟨ct, mem, text⟩ | ⟨-, text⟩ :=
          Sealing.Aead.extended_cases r.seals spareSeal spareOpen ⟨key, aad, nonce, pt⟩
        · exact (congrArg List.length text).trans (h.1 _ mem).1
        · refine (congrArg List.length text).trans ?_
          rw [spareSeal, List.length_append, length_spareTag]
      item_json := by
        intro item json written
        simp only [suite] at written ⊢
        cases found : r.items.lookup item with
        | none =>
            rw [found] at written
            cases written
        | some bytes =>
            rw [found] at written
            cases written
            have mem := mem_of_lookup found
            cases back : r.items.find? fun e => decide (e.2 = json) with
            | none =>
                have none_ := List.find?_eq_none.mp back _ mem
                simp at none_
            | some e =>
                have same := List.find?_some back
                simp only [decide_eq_true_eq] at same
                rw [Option.map_some, h.2 e (List.mem_of_find?_eq_some back) _ mem same]
                rfl }
  right := fun _ _ _ _ _ _ opened => h.1.spares.eq_of_opened opened

/-- A key, and a note for the concrete runs. -/
def sampleKey : Key := ⟨List.replicate 32 9, rfl⟩

def sampleNote : Item where
  id := sampleId
  itemType := .note
  title := "n"
  tags := []
  urls := []
  notes := none
  customFields := []
  login := none
  card := none
  identity := none
  passkey := none
  createdAt := 100
  updatedAt := 100
  passwordChangedAt := none

def sampleNoteJson : Bytes :=
  Api.utf8 ("\x7b\"id\":\"07070707-0707-0707-0707-070707070707\",\"type\":\"note\",\"title\":\"n\"," ++
    "\"tags\":[],\"urls\":[],\"custom_fields\":[],\"created_at\":100,\"updated_at\":100\x7d")

def nonceOf (b : UInt8) : Nonce24 := ⟨List.replicate 24 b, by simp⟩

/-- HKDF of the key for the note. -/
def sampleItemKey : Key32 :=
  [22, 167, 207, 90, 10, 18, 169, 89, 222, 191, 253, 237, 211, 165, 170, 168, 135, 253, 165, 169,
   175, 233, 0, 138, 136, 19, 197, 18, 100, 26, 136, 77]

/-- Argon2id of `correct horse` with a salt of ones. -/
def horseKek : Key32 :=
  [68, 113, 37, 111, 165, 140, 242, 3, 201, 195, 15, 136, 172, 248, 40, 76, 183, 101, 171, 245,
   253, 176, 47, 14, 48, 15, 107, 173, 225, 23, 147, 209]

/-- Argon2id of `battery staple` with a salt of threes. -/
def stapleKek : Key32 :=
  [46, 153, 233, 213, 63, 169, 201, 1, 155, 97, 68, 243, 246, 236, 232, 167, 213, 252, 51, 38,
   90, 172, 120, 23, 198, 70, 23, 159, 35, 143, 101, 39]

/-- The key under the two passwords, and the note under the key. -/
def sampleRecords : Records where
  seals :=
    [(⟨horseKek, WrappedBlob.header .password (List.replicate 16 1), nonceOf 2, sampleKey.bytes⟩,
      [2, 64, 34, 78, 81, 221, 241, 102, 133, 96, 246, 155, 82, 253, 95, 160, 57, 143, 152, 53,
       232, 187, 46, 221, 225, 131, 13, 85, 154, 221, 62, 91, 150, 99, 33, 117, 102, 63, 208, 97,
       207, 205, 114, 91, 111, 22, 98, 142]),
     (⟨stapleKek, WrappedBlob.header .password (List.replicate 16 3), nonceOf 4, sampleKey.bytes⟩,
      [113, 85, 22, 68, 175, 165, 148, 34, 45, 153, 22, 130, 94, 43, 58, 138, 245, 137, 98, 15,
       209, 253, 30, 156, 163, 229, 252, 201, 99, 152, 45, 174, 200, 74, 129, 206, 129, 114, 23,
       76, 39, 190, 61, 193, 105, 108, 54, 155]),
     (⟨sampleItemKey, itemHeader sampleId 100, nonceOf 5, sampleNoteJson⟩,
      [82, 230, 216, 130, 210, 250, 89, 111, 164, 191, 206, 223, 62, 91, 252, 154, 44, 142, 245,
       241, 73, 56, 254, 249, 113, 12, 243, 155, 168, 169, 80, 40, 31, 25, 159, 204, 11, 54, 26,
       50, 159, 204, 224, 61, 55, 113, 104, 64, 190, 125, 123, 64, 145, 60, 69, 213, 21, 167,
       199, 122, 134, 216, 199, 183, 245, 128, 74, 250, 16, 22, 221, 170, 31, 106, 255, 222, 118,
       95, 177, 11, 155, 75, 190, 65, 242, 171, 2, 211, 218, 225, 111, 6, 140, 118, 176, 98, 87,
       2, 64, 237, 129, 219, 234, 220, 96, 93, 58, 184, 249, 153, 96, 105, 125, 167, 244, 188,
       179, 174, 236, 2, 28, 146, 179, 169, 68, 118, 243, 91, 146, 2, 58, 6, 53, 132, 230, 46,
       215, 131, 83, 136, 110, 67, 168, 17, 24, 130, 120, 151, 249, 251, 249, 179, 144, 222, 116,
       136, 233, 63, 33, 226])]
  hkdf := [((sampleKey.bytes, some sampleId.bytes, .vaultItem), sampleItemKey)]
  argon2id :=
    [((Api.utf8 "correct horse", List.replicate 16 1), horseKek),
     ((Api.utf8 "battery staple", List.replicate 16 3), stapleKek)]
  items := [(sampleNote, sampleNoteJson)]

theorem sampleRecords_injective : sampleRecords.Injective := by decide +kernel

abbrev sampleSuite : Suite := sampleRecords.suite

/-- The note as it is stored. -/
def sampleNoteEnvelope : ItemEnvelope :=
  ⟨itemHeader sampleId 100 ++ (nonceOf 5).bytes ++
    sampleSuite.aeadSeal sampleItemKey (itemHeader sampleId 100) (nonceOf 5) sampleNoteJson⟩

end Sentinel.Desktop
