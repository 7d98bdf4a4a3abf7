import Sentinel.Vault.ItemJson

/-!
# The phone's mirrors of the vault model

`apps/ios-key/NorthKey/Vault/VaultModels.swift`: the types in which the phone holds items and the
sync document, and their JSON. Ids, types and URL modes are texts there, cards, identities and
passkeys are raw JSON, and a tombstone is an array of texts and numbers. `Mirrors` says when such
a value stands for a value of the core.

Raw JSON is kept with the members of its objects sorted, since a Swift dictionary has no order.
-/

namespace Sentinel.Phone

open Serial Vault

/-- `VaultDocument.TombstoneField`. -/
inductive TombstoneField where
  | id (s : String)
  | ts (t : Int)
  deriving DecidableEq, Repr

structure VaultDocument where
  format : Nat
  items : List String
  tombstones : List (List TombstoneField)
  deriving DecidableEq, Repr

structure VaultLogin where
  username : Option String := none
  password : Option String := none
  totp : Option String := none
  deriving DecidableEq, Repr

structure VaultUrlMatch where
  url : String
  mode : String
  deriving DecidableEq, Repr

structure VaultCustomField where
  name : String
  value : String
  secret : Bool
  deriving DecidableEq, Repr

/-- `VaultItem`. -/
structure VaultItem where
  id : String
  type : String
  title : String
  tags : List String
  urls : List VaultUrlMatch
  notes : Option String
  customFields : List VaultCustomField
  login : Option VaultLogin
  card : Option Value
  identity : Option Value
  passkey : Option Value
  createdAt : Int
  updatedAt : Int
  passwordChangedAt : Option Int

/-! ## Encoding and decoding -/

def TombstoneField.json : TombstoneField → Value
  | id s => .text s
  | ts t => .int t

/-- `init(from:)`: a text if it is one, else a number. -/
def tombstoneFieldReader : Reader TombstoneField where
  read
    | .text s => some (.id s)
    | v => (i64Reader.read v).map .ts
  read_canon v := by cases v <;> rfl

def VaultDocument.json (doc : VaultDocument) : Value :=
  written [("format", some (.int doc.format)), ("items", some (.array (doc.items.map .text))),
    ("tombstones", some (.array (doc.tombstones.map fun t => .array (t.map TombstoneField.json))))]

def documentReader : Reader VaultDocument :=
  .record .keyed
    (fun slots => do
      let format ← (natReader 8).required (slots "format")
      let items ← Reader.text.list.required (slots "items")
      let tombstones ← tombstoneFieldReader.list.list.required (slots "tombstones")
      pure { format, items, tombstones })
    fun s => by simp only [Reader.required_canon]

def VaultLogin.json (l : VaultLogin) : Value :=
  written [("username", l.username.map .text), ("password", l.password.map .text),
    ("totp", l.totp.map .text)]

def loginReader : Reader VaultLogin :=
  .record .keyed
    (fun slots => do
      let username ← Reader.text.optional (slots "username")
      let password ← Reader.text.optional (slots "password")
      let totp ← Reader.text.optional (slots "totp")
      pure { username, password, totp })
    fun s => by simp only [Reader.optional_canon]

def VaultUrlMatch.json (m : VaultUrlMatch) : Value :=
  written [("url", some (.text m.url)), ("mode", some (.text m.mode))]

def urlReader : Reader VaultUrlMatch :=
  .record .keyed
    (fun slots => do
      let url ← Reader.text.required (slots "url")
      let mode ← Reader.text.required (slots "mode")
      pure { url, mode })
    fun s => by simp only [Reader.required_canon]

def VaultCustomField.json (f : VaultCustomField) : Value :=
  written [("name", some (.text f.name)), ("value", some (.text f.value)),
    ("secret", some (.bool f.secret))]

def customFieldReader : Reader VaultCustomField :=
  .record .keyed
    (fun slots => do
      let name ← Reader.text.required (slots "name")
      let value ← Reader.text.required (slots "value")
      let secret ← Reader.bool.required (slots "secret")
      pure { name, value, secret })
    fun s => by simp only [Reader.required_canon]

/-- `encode(to:)`. -/
def VaultItem.json (item : VaultItem) : Value :=
  written [("id", some (.text item.id)), ("type", some (.text item.type)),
    ("title", some (.text item.title)), ("tags", some (.array (item.tags.map .text))),
    ("urls", some (.array (item.urls.map VaultUrlMatch.json))), ("notes", item.notes.map .text),
    ("custom_fields", some (.array (item.customFields.map VaultCustomField.json))),
    ("login", item.login.map VaultLogin.json), ("card", item.card), ("identity", item.identity),
    ("passkey", item.passkey), ("created_at", some (.int item.createdAt)),
    ("updated_at", some (.int item.updatedAt)),
    ("password_changed_at", item.passwordChangedAt.map .int)]

/-- `init(from:)`. -/
def itemReader : Reader VaultItem :=
  .record .keyed
    (fun slots => do
      let id ← Reader.text.required (slots "id")
      let type ← Reader.text.required (slots "type")
      let title ← Reader.text.required (slots "title")
      let tags ← Reader.text.list.orNull [] (slots "tags")
      let urls ← urlReader.list.orNull [] (slots "urls")
      let notes ← Reader.text.optional (slots "notes")
      let customFields ← customFieldReader.list.orNull [] (slots "custom_fields")
      let login ← loginReader.optional (slots "login")
      let card ← Reader.whole.optional (slots "card")
      let identity ← Reader.whole.optional (slots "identity")
      let passkey ← Reader.whole.optional (slots "passkey")
      let createdAt ← i64Reader.required (slots "created_at")
      let updatedAt ← i64Reader.required (slots "updated_at")
      let passwordChangedAt ← i64Reader.optional (slots "password_changed_at")
      pure { id, type, title, tags, urls, notes, customFields, login, card, identity, passkey,
             createdAt, updatedAt, passwordChangedAt })
    fun s => by simp only [Reader.required_canon, Reader.optional_canon, Reader.orNull_canon]

/-! ## What a value stands for -/

/-- The phone's URL match has the URL and the mode of the core's. -/
def VaultUrlMatch.Mirrors (m : VaultUrlMatch) (m' : UrlMatch) : Prop :=
  m.url = m'.url ∧ UrlMode.ofName m.mode = some m'.mode

def VaultCustomField.mirror (f : CustomField) : VaultCustomField := ⟨f.name, f.value, f.isSecret⟩

def VaultLogin.mirror (l : Login) : VaultLogin := ⟨l.username, l.password, l.totp⟩

/-- The phone's item stands for the core's: the same texts, numbers and parts, its id, type and
modes those the texts name, and its raw parts those the JSON encodes. -/
structure VaultItem.Mirrors (u : UuidText) (v : VaultItem) (item : Item) : Prop where
  id : u.uuidString v.id = some item.id
  type : ItemType.ofName v.type = some item.itemType
  title : v.title = item.title
  tags : v.tags = item.tags
  urls : List.Forall₂ VaultUrlMatch.Mirrors v.urls item.urls
  notes : v.notes = item.notes
  customFields : v.customFields = item.customFields.map .mirror
  login : v.login = item.login.map .mirror
  card : cardReader.optional v.card = some item.card
  identity : identityReader.optional v.identity = some item.identity
  passkey : passkeyReader.optional v.passkey = some item.passkey
  createdAt : v.createdAt = item.createdAt
  updatedAt : v.updatedAt = item.updatedAt
  passwordChangedAt : v.passwordChangedAt = item.passwordChangedAt

/-- The item the phone decodes from the core's JSON. -/
def VaultItem.mirror (u : UuidText) (item : Item) : VaultItem where
  id := u.display item.id
  type := item.itemType.name
  title := item.title
  tags := item.tags
  urls := item.urls.map fun m => ⟨m.url, m.mode.name⟩
  notes := item.notes
  customFields := item.customFields.map .mirror
  login := item.login.map .mirror
  card := item.card.map fun c => c.json.canon
  identity := item.identity.map fun i => i.json.canon
  passkey := item.passkey.map fun p => p.json.canon
  createdAt := item.createdAt
  updatedAt := item.updatedAt
  passwordChangedAt := item.passwordChangedAt

/-- The phone's document has the items of the core's, and its tombstones as pairs. -/
structure VaultDocument.Mirrors (u : UuidText) (v : VaultDocument) (doc : Vault.VaultDocument) :
    Prop where
  format : v.format = doc.format
  items : v.items = doc.items
  tombstones : List.Forall₂ (fun t t' => ∃ s, t = [TombstoneField.id s, .ts t'.2] ∧
    u.uuidString s = some t'.1) v.tombstones doc.tombstones

def VaultDocument.mirror (u : UuidText) (doc : Vault.VaultDocument) : VaultDocument where
  format := doc.format
  items := doc.items
  tombstones := doc.tombstones.map fun t => [.id (u.display t.1), .ts t.2]

section Agreement

variable {u : UuidText} (correct : u.Correct)

/-- A raw part is what its JSON says, in whatever order. -/
theorem optional_canon_json {α : Type} (r : Reader α) {write : α → Value} {o : Option α}
    (plain : ∀ a, write a ≠ .null) (each : ∀ a ∈ o, r.read (write a) = some a) :
    r.optional (o.map fun a => (write a).canon) = some o := by
  have mapped : (o.map fun a => (write a).canon) = (o.map write).map Value.canon := by
    rw [Option.map_map]
    rfl
  rw [mapped, r.optional_canon, r.optional_map plain each]

include correct in
/-- What the phone decodes stands for the item. -/
theorem VaultItem.mirrors_mirror {item : Item} (typed : item.Typed) :
    (VaultItem.mirror u item).Mirrors u item where
  id := correct.uuidString_display item.id
  type := ItemType.ofName_name item.itemType
  title := rfl
  tags := rfl
  urls := by
    rw [VaultItem.mirror, List.forall₂_map_left_iff]
    exact List.forall₂_same.mpr fun m _ => ⟨rfl, UrlMode.ofName_name m.mode⟩
  notes := rfl
  customFields := rfl
  login := rfl
  card := optional_canon_json _ (fun _ => json_ne_null) fun c mem => cardReader_json (typed.card c mem)
  identity := optional_canon_json _ (fun _ => json_ne_null) fun i _ => identityReader_json i
  passkey := optional_canon_json _ (fun _ => json_ne_null)
    fun p mem => passkeyReader_json (typed.passkey p mem)
  createdAt := rfl
  updatedAt := rfl
  passwordChangedAt := rfl

/-- The phone decodes an item of the core to its mirror. -/
theorem itemReader_json {item : Item} (typed : item.Typed) :
    itemReader.read (item.json u) = some (VaultItem.mirror u item) := by
  have urls : urlReader.list.read (.array (item.urls.map UrlMatch.json)) =
      some (VaultItem.mirror u item).urls := by
    refine urlReader.list_read_map fun m _ => ?_
    refine (Reader.record_written (Slots.keyed_written (by simp))).trans ?_
    simp [field]
  have customFields : customFieldReader.list.read
      (.array (item.customFields.map CustomField.json)) =
        some (VaultItem.mirror u item).customFields := by
    refine customFieldReader.list_read_map fun f _ => ?_
    refine (Reader.record_written (Slots.keyed_written (by simp))).trans ?_
    simp [field, VaultCustomField.mirror]
  have login : loginReader.optional (item.login.map Login.json) =
      some (VaultItem.mirror u item).login := by
    refine loginReader.optional_map_value (fun _ => json_ne_null) fun l _ => ?_
    refine (Reader.record_written (Slots.keyed_written (by simp))).trans ?_
    simp [field, VaultLogin.mirror]
  have card : Reader.whole.optional (item.card.map Card.json) =
      some (VaultItem.mirror u item).card :=
    Reader.whole.optional_map_value (fun _ => json_ne_null) fun _ _ => rfl
  have identity : Reader.whole.optional (item.identity.map Identity.json) =
      some (VaultItem.mirror u item).identity :=
    Reader.whole.optional_map_value (fun _ => json_ne_null) fun _ _ => rfl
  have passkey : Reader.whole.optional (item.passkey.map Passkey.json) =
      some (VaultItem.mirror u item).passkey :=
    Reader.whole.optional_map_value (fun _ => json_ne_null) fun _ _ => rfl
  have changed : i64Reader.optional (item.passwordChangedAt.map .int) =
      some item.passwordChangedAt := Reader.optional_int typed.passwordChangedAt
  refine (Reader.record_written (Slots.keyed_written (by simp))).trans ?_
  simp [field, Reader.orNull_some, urls, customFields, login, card, identity, passkey, changed,
    i64Reader_read typed.createdAt, i64Reader_read typed.updatedAt]
  rfl

include correct in
/-- The core decodes what the phone encodes to the item it stands for. -/
theorem itemReader_of_mirrors {v : VaultItem} {item : Item} (typed : item.Typed)
    (mirrors : v.Mirrors u item) : (Vault.itemReader u).read v.json = some item := by
  have id : (Reader.text.refine u.parse).read (.text v.id) = some item.id :=
    (Reader.text.refine_read rfl).trans (correct.parse_of_uuidString _ _ mirrors.id)
  have type : typeReader.read (.text v.type) = some item.itemType := mirrors.type
  have urls : Vault.urlReader.list.read (.array (v.urls.map VaultUrlMatch.json)) =
      some item.urls := by
    refine Vault.urlReader.list_read_forall₂ (List.forall₂_map_left_iff.mpr ?_)
    refine mirrors.urls.imp fun m m' same => ?_
    have mode : modeReader.read (.text m.mode) = some m'.mode := same.2
    refine (Reader.record_written (Slots.derived_written _ (by simp))).trans ?_
    simp [field, mode, same.1]
  have customFields : Vault.customFieldReader.list.read
      (.array (v.customFields.map VaultCustomField.json)) = some item.customFields := by
    rw [mirrors.customFields, List.map_map]
    exact Vault.customFieldReader.list_read fun f _ => customFieldReader_json f
  have login : Vault.loginReader.optional (v.login.map VaultLogin.json) = some item.login := by
    rw [mirrors.login, Option.map_map]
    exact Vault.loginReader.optional_map (fun _ => json_ne_null) fun l _ => loginReader_json l
  have changed : i64Reader.optional (v.passwordChangedAt.map .int) =
      some item.passwordChangedAt := by
    rw [mirrors.passwordChangedAt]
    exact Reader.optional_int typed.passwordChangedAt
  refine (Reader.record_written (Slots.derived_written _ (by simp))).trans ?_
  simp [field, id, type, urls, customFields, login, changed, mirrors.title, mirrors.tags,
    mirrors.notes, mirrors.card, mirrors.identity, mirrors.passkey, mirrors.createdAt,
    mirrors.updatedAt, i64Reader_read typed.createdAt, i64Reader_read typed.updatedAt]

include correct in
theorem VaultDocument.mirrors_mirror (doc : Vault.VaultDocument) :
    (VaultDocument.mirror u doc).Mirrors u doc where
  format := rfl
  items := rfl
  tombstones := by
    rw [VaultDocument.mirror, List.forall₂_map_left_iff]
    exact List.forall₂_same.mpr fun t _ => ⟨_, rfl, correct.uuidString_display t.1⟩

/-- The phone decodes a document of the core to its mirror. -/
theorem documentReader_json {doc : Vault.VaultDocument} (typed : doc.Typed) :
    documentReader.read (doc.json u) = some (VaultDocument.mirror u doc) := by
  have tombstones : tombstoneFieldReader.list.list.read (.array (doc.tombstones.map fun t =>
      .array [.text (u.display t.1), .int t.2])) = some (VaultDocument.mirror u doc).tombstones := by
    refine tombstoneFieldReader.list.list_read_map fun t mem => ?_
    have time : tombstoneFieldReader.read (.int t.2) = some (.ts t.2) :=
      congrArg (Option.map TombstoneField.ts) (i64Reader_read (typed.tombstones t mem))
    exact tombstoneFieldReader.list_read_forall₂ (.cons rfl (.cons time .nil))
  refine (Reader.record_written (Slots.keyed_written (by simp))).trans ?_
  simp [field, tombstones, natReader_read typed.format]
  rfl

include correct in
/-- The core decodes what the phone encodes to the document it stands for. -/
theorem documentReader_of_mirrors {v : VaultDocument} {doc : Vault.VaultDocument}
    (typed : doc.Typed) (mirrors : v.Mirrors u doc) :
    (Vault.documentReader u).read v.json = some doc := by
  have tombstones : (tombstoneReader u).list.read
      (.array (v.tombstones.map fun t => .array (t.map TombstoneField.json))) =
        some doc.tombstones := by
    refine (tombstoneReader u).list_read_forall₂ (List.forall₂_map_left_iff.mpr ?_)
    refine (List.forall₂_iff_zip.mpr ⟨mirrors.tombstones.length_eq, ?_⟩)
    intro t t' mem
    obtain ⟨s, rfl, read⟩ := List.forall₂_zip mirrors.tombstones mem
    refine Reader.pair_read ?_ ?_
    · exact (Reader.text.refine_read rfl).trans (correct.parse_of_uuidString _ _ read)
    · exact i64Reader_read (typed.tombstones t' (List.of_mem_zip mem).2)
  refine (Reader.record_written (Slots.derived_written _ (by simp))).trans ?_
  simp [field, tombstones, mirrors.format, mirrors.items, natReader_read typed.format]

end Agreement

end Sentinel.Phone
