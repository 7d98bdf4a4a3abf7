import Sentinel.Lib.Serial
import Sentinel.Vault.Document

/-!
# Items and documents as JSON

The shapes that `serde` derives in `crates/core/src/vault/model.rs` and `document.rs`: a record is
an object of its fields, an absent option is left out, and a reader takes the fields by name or by
position. The text of ids is third-party code, a parameter here.
-/

namespace Sentinel.Vault

open Serial

/-- A number of a fixed width. -/
def natReader (bits : Nat) : Reader Nat := (Reader.int 0 (2 ^ bits)).refine fun n => some n.toNat

def i32Reader : Reader Int := .int (-(2 ^ 31)) (2 ^ 31)

def i64Reader : Reader Int := .int (-(2 ^ 63)) (2 ^ 63)

theorem natReader_read {bits n : Nat} (small : n < 2 ^ bits) :
    (natReader bits).read (.int n) = some n := by
  have inside : (0 : Int) ≤ n ∧ (n : Int) < 2 ^ bits := ⟨by omega, by exact_mod_cast small⟩
  exact (Reader.int _ _).refine_read (Reader.int_read inside)

theorem i32Reader_read {n : Int} (inside : -(2 ^ 31) ≤ n ∧ n < 2 ^ 31) :
    i32Reader.read (.int n) = some n := Reader.int_read inside

theorem i64Reader_read {n : Int} (inside : -(2 ^ 63) ≤ n ∧ n < 2 ^ 63) :
    i64Reader.read (.int n) = some n := Reader.int_read inside

/-- A variant without data: its name, or an object of its name and `null`. -/
def variantReader {α : Type} (ofName : String → Option α) : Reader α where
  read
    | .text s => ofName s
    | .object [m] => match m.2 with
      | .null => ofName m.1
      | _ => none
    | _ => none
  read_canon v := by
    cases v with
    | object members =>
        cases members with
        | nil => rfl
        | cons m members =>
            cases members with
            | nil =>
                obtain ⟨name, value⟩ := m
                cases value <;> rfl
            | cons m' members =>
                have long : (List.insertionSort Value.ByKey
                    (Value.canonMembers (m :: m' :: members))).length = members.length + 2 := by
                  rw [List.length_insertionSort, Value.canonMembers_eq, List.length_map]
                  rfl
                rw [Value.canon]
                generalize List.insertionSort Value.ByKey _ = sorted at long
                cases sorted with
                | nil => cases long
                | cons a sorted =>
                    cases sorted with
                    | nil => cases long
                    | cons b sorted => rfl
    | _ => rfl

/-! ## The variants -/

def ItemType.name : ItemType → String
  | login => "login"
  | note => "note"
  | card => "card"
  | identity => "identity"
  | passkey => "passkey"

def ItemType.ofName (s : String) : Option ItemType :=
  if s = "login" then some login
  else if s = "note" then some note
  else if s = "card" then some card
  else if s = "identity" then some identity
  else if s = "passkey" then some passkey
  else none

@[simp] theorem ItemType.ofName_name (t : ItemType) : ofName t.name = some t := by
  cases t <;> rfl

def UrlMode.name : UrlMode → String
  | domain => "domain"
  | host => "host"

def UrlMode.ofName (s : String) : Option UrlMode :=
  if s = "domain" then some domain else if s = "host" then some host else none

@[simp] theorem UrlMode.ofName_name (m : UrlMode) : ofName m.name = some m := by
  cases m <;> rfl

def typeReader : Reader ItemType := variantReader ItemType.ofName

def modeReader : Reader UrlMode := variantReader UrlMode.ofName

@[simp] theorem typeReader_read (t : ItemType) : typeReader.read (.text t.name) = some t :=
  ItemType.ofName_name t

@[simp] theorem modeReader_read (m : UrlMode) : modeReader.read (.text m.name) = some m :=
  UrlMode.ofName_name m

/-! ## The parts of an item -/

def UrlMatch.json (u : UrlMatch) : Value :=
  written [("url", some (.text u.url)), ("mode", some (.text u.mode.name))]

def urlReader : Reader UrlMatch :=
  .record (.derived ["url", "mode"])
    (fun slots => do
      let url ← Reader.text.required (slots "url")
      let mode ← modeReader.required (slots "mode")
      pure { url, mode })
    fun s => by simp only [Reader.required_canon]

theorem urlReader_json (u : UrlMatch) : urlReader.read u.json = some u := by
  refine (Reader.record_written (Slots.derived_written _ (by simp))).trans ?_
  simp [field]

def CustomField.json (f : CustomField) : Value :=
  written [("name", some (.text f.name)), ("value", some (.text f.value)),
    ("secret", some (.bool f.isSecret))]

def customFieldReader : Reader CustomField :=
  .record (.derived ["name", "value", "secret"])
    (fun slots => do
      let name ← Reader.text.required (slots "name")
      let value ← Reader.text.required (slots "value")
      let isSecret ← Reader.bool.required (slots "secret")
      pure { name, value, isSecret })
    fun s => by simp only [Reader.required_canon]

def Login.json (l : Login) : Value :=
  written [("username", l.username.map .text), ("password", l.password.map .text),
    ("totp", l.totp.map .text)]

def loginReader : Reader Login :=
  .record (.derived ["username", "password", "totp"])
    (fun slots => do
      let username ← Reader.text.optional (slots "username")
      let password ← Reader.text.optional (slots "password")
      let totp ← Reader.text.optional (slots "totp")
      pure { username, password, totp })
    fun s => by simp only [Reader.optional_canon]

def Card.json (c : Card) : Value :=
  written [("cardholder", c.cardholder.map .text), ("number", c.number.map .text),
    ("brand", c.brand.map .text), ("exp_month", c.expMonth.map fun n : Nat => .int n),
    ("exp_year", c.expYear.map fun n : Nat => .int n), ("cvv", c.cvv.map .text)]

def cardReader : Reader Card :=
  .record (.derived ["cardholder", "number", "brand", "exp_month", "exp_year", "cvv"])
    (fun slots => do
      let cardholder ← Reader.text.optional (slots "cardholder")
      let number ← Reader.text.optional (slots "number")
      let brand ← Reader.text.optional (slots "brand")
      let expMonth ← (natReader 8).optional (slots "exp_month")
      let expYear ← (natReader 16).optional (slots "exp_year")
      let cvv ← Reader.text.optional (slots "cvv")
      pure { cardholder, number, brand, expMonth, expYear, cvv })
    fun s => by simp only [Reader.optional_canon]

def Identity.json (i : Identity) : Value :=
  written [("full_name", i.fullName.map .text), ("email", i.email.map .text),
    ("phone", i.phone.map .text), ("address", i.address.map .text)]

def identityReader : Reader Identity :=
  .record (.derived ["full_name", "email", "phone", "address"])
    (fun slots => do
      let fullName ← Reader.text.optional (slots "full_name")
      let email ← Reader.text.optional (slots "email")
      let phone ← Reader.text.optional (slots "phone")
      let address ← Reader.text.optional (slots "address")
      pure { fullName, email, phone, address })
    fun s => by simp only [Reader.optional_canon]

def Passkey.json (p : Passkey) : Value :=
  written [("rp_id", some (.text p.rpId)), ("rp_name", p.rpName.map .text),
    ("user_name", some (.text p.userName)), ("user_display_name", p.userDisplayName.map .text),
    ("user_handle", some (.text p.userHandle)), ("credential_id", some (.text p.credentialId)),
    ("private_key", some (.text p.privateKey)), ("algorithm", some (.int p.algorithm)),
    ("sign_count", some (.int p.signCount))]

def passkeyReader : Reader Passkey :=
  .record (.derived ["rp_id", "rp_name", "user_name", "user_display_name", "user_handle",
      "credential_id", "private_key", "algorithm", "sign_count"])
    (fun slots => do
      let rpId ← Reader.text.required (slots "rp_id")
      let rpName ← Reader.text.optional (slots "rp_name")
      let userName ← Reader.text.required (slots "user_name")
      let userDisplayName ← Reader.text.optional (slots "user_display_name")
      let userHandle ← Reader.text.required (slots "user_handle")
      let credentialId ← Reader.text.required (slots "credential_id")
      let privateKey ← Reader.text.required (slots "private_key")
      let algorithm ← i32Reader.required (slots "algorithm")
      let signCount ← (natReader 32).required (slots "sign_count")
      pure { rpId, rpName, userName, userDisplayName, userHandle, credentialId, privateKey,
             algorithm, signCount })
    fun s => by simp only [Reader.required_canon, Reader.optional_canon]

/-! ## Items -/

/-- The text of ids: `Display` and the parser of the `uuid` crate, and `UUID(uuidString:)` of the
phone. -/
structure UuidText where
  display : ItemId → String
  parse : String → Option ItemId
  uuidString : String → Option ItemId

/-- Both parsers read the hyphenated form, and the phone's reads no other. -/
structure UuidText.Correct (u : UuidText) : Prop where
  parse_display : ∀ id, u.parse (u.display id) = some id
  uuidString_display : ∀ id, u.uuidString (u.display id) = some id
  parse_of_uuidString : ∀ s id, u.uuidString s = some id → u.parse s = some id

variable (u : UuidText)

def Item.json (item : Item) : Value :=
  written [("id", some (.text (u.display item.id))), ("type", some (.text item.itemType.name)),
    ("title", some (.text item.title)), ("tags", some (.array (item.tags.map .text))),
    ("urls", some (.array (item.urls.map UrlMatch.json))), ("notes", item.notes.map .text),
    ("custom_fields", some (.array (item.customFields.map CustomField.json))),
    ("login", item.login.map Login.json), ("card", item.card.map Card.json),
    ("identity", item.identity.map Identity.json), ("passkey", item.passkey.map Passkey.json),
    ("created_at", some (.int item.createdAt)), ("updated_at", some (.int item.updatedAt)),
    ("password_changed_at", item.passwordChangedAt.map .int)]

def itemReader : Reader Item :=
  .record (.derived ["id", "type", "title", "tags", "urls", "notes", "custom_fields", "login",
      "card", "identity", "passkey", "created_at", "updated_at", "password_changed_at"])
    (fun slots => do
      let id ← (Reader.text.refine u.parse).required (slots "id")
      let itemType ← typeReader.required (slots "type")
      let title ← Reader.text.required (slots "title")
      let tags ← Reader.text.list.orElse [] (slots "tags")
      let urls ← urlReader.list.orElse [] (slots "urls")
      let notes ← Reader.text.optional (slots "notes")
      let customFields ← customFieldReader.list.orElse [] (slots "custom_fields")
      let login ← loginReader.optional (slots "login")
      let card ← cardReader.optional (slots "card")
      let identity ← identityReader.optional (slots "identity")
      let passkey ← passkeyReader.optional (slots "passkey")
      let createdAt ← i64Reader.required (slots "created_at")
      let updatedAt ← i64Reader.required (slots "updated_at")
      let passwordChangedAt ← i64Reader.optional (slots "password_changed_at")
      pure { id, itemType, title, tags, urls, notes, customFields, login, card, identity, passkey,
             createdAt, updatedAt, passwordChangedAt })
    fun s => by simp only [Reader.required_canon, Reader.optional_canon, Reader.orElse_canon]

/-- The numbers are of the source's widths. -/
structure Card.Typed (c : Card) : Prop where
  expMonth : ∀ n ∈ c.expMonth, n < 2 ^ 8
  expYear : ∀ n ∈ c.expYear, n < 2 ^ 16

structure Passkey.Typed (p : Passkey) : Prop where
  algorithm : -(2 ^ 31) ≤ p.algorithm ∧ p.algorithm < 2 ^ 31
  signCount : p.signCount < 2 ^ 32

structure Item.Typed (item : Item) : Prop where
  card : ∀ c ∈ item.card, c.Typed
  passkey : ∀ p ∈ item.passkey, p.Typed
  createdAt : -(2 ^ 63) ≤ item.createdAt ∧ item.createdAt < 2 ^ 63
  updatedAt : -(2 ^ 63) ≤ item.updatedAt ∧ item.updatedAt < 2 ^ 63
  passwordChangedAt : ∀ n ∈ item.passwordChangedAt, -(2 ^ 63) ≤ n ∧ n < 2 ^ 63

theorem optional_nat {bits : Nat} {o : Option Nat} (small : ∀ n ∈ o, n < 2 ^ bits) :
    (natReader bits).optional (o.map fun n : Nat => .int n) = some o :=
  (natReader bits).optional_map (fun _ => by simp) fun n mem => natReader_read (small n mem)

theorem customFieldReader_json (f : CustomField) : customFieldReader.read f.json = some f := by
  refine (Reader.record_written (Slots.derived_written _ (by simp))).trans ?_
  simp [field]

theorem loginReader_json (l : Login) : loginReader.read l.json = some l := by
  refine (Reader.record_written (Slots.derived_written _ (by simp))).trans ?_
  simp [field]

theorem cardReader_json {c : Card} (typed : c.Typed) : cardReader.read c.json = some c := by
  refine (Reader.record_written (Slots.derived_written _ (by simp))).trans ?_
  simp [field, optional_nat typed.expMonth, optional_nat typed.expYear]

theorem identityReader_json (i : Identity) : identityReader.read i.json = some i := by
  refine (Reader.record_written (Slots.derived_written _ (by simp))).trans ?_
  simp [field]

theorem passkeyReader_json {p : Passkey} (typed : p.Typed) :
    passkeyReader.read p.json = some p := by
  refine (Reader.record_written (Slots.derived_written _ (by simp))).trans ?_
  simp [field, i32Reader_read typed.algorithm, natReader_read typed.signCount]

theorem json_ne_null {fields : List (String × Option Value)} : written fields ≠ .null := by
  simp [written]

/-- An item is read back from its JSON. -/
theorem itemReader_json {u : UuidText} (correct : u.Correct) {item : Item} (typed : item.Typed) :
    (itemReader u).read (item.json u) = some item := by
  have id : (Reader.text.refine u.parse).read (.text (u.display item.id)) = some item.id :=
    (Reader.text.refine_read rfl).trans (correct.parse_display item.id)
  have urls : urlReader.list.read (.array (item.urls.map UrlMatch.json)) = some item.urls :=
    urlReader.list_read fun m _ => urlReader_json m
  have customFields : customFieldReader.list.read
      (.array (item.customFields.map CustomField.json)) = some item.customFields :=
    customFieldReader.list_read fun f _ => customFieldReader_json f
  have login : loginReader.optional (item.login.map Login.json) = some item.login :=
    loginReader.optional_map (fun _ => json_ne_null) fun l _ => loginReader_json l
  have card : cardReader.optional (item.card.map Card.json) = some item.card :=
    cardReader.optional_map (fun _ => json_ne_null) fun c mem => cardReader_json (typed.card c mem)
  have identity : identityReader.optional (item.identity.map Identity.json) = some item.identity :=
    identityReader.optional_map (fun _ => json_ne_null) fun i _ => identityReader_json i
  have passkey : passkeyReader.optional (item.passkey.map Passkey.json) = some item.passkey :=
    passkeyReader.optional_map (fun _ => json_ne_null)
      fun p mem => passkeyReader_json (typed.passkey p mem)
  have changed : i64Reader.optional (item.passwordChangedAt.map .int) =
      some item.passwordChangedAt := Reader.optional_int typed.passwordChangedAt
  refine (Reader.record_written (Slots.derived_written _ (by simp))).trans ?_
  simp [field, id, urls, customFields, login, card, identity, passkey, changed,
    i64Reader_read typed.createdAt, i64Reader_read typed.updatedAt]

/-! ## Documents -/

def VaultDocument.json (doc : VaultDocument) : Value :=
  written [("format", some (.int doc.format)), ("items", some (.array (doc.items.map .text))),
    ("tombstones", some (.array (doc.tombstones.map fun t =>
      .array [.text (u.display t.1), .int t.2])))]

def tombstoneReader : Reader (ItemId × Int) := (Reader.text.refine u.parse).pair i64Reader

def documentReader : Reader VaultDocument :=
  .record (.derived ["format", "items", "tombstones"])
    (fun slots => do
      let format ← (natReader 8).required (slots "format")
      let items ← Reader.text.list.required (slots "items")
      let tombstones ← (tombstoneReader u).list.required (slots "tombstones")
      pure { format, items, tombstones })
    fun s => by simp only [Reader.required_canon]

structure VaultDocument.Typed (doc : VaultDocument) : Prop where
  format : doc.format < 2 ^ 8
  tombstones : ∀ t ∈ doc.tombstones, -(2 ^ 63) ≤ t.2 ∧ t.2 < 2 ^ 63

theorem documentReader_json {u : UuidText} (correct : u.Correct) {doc : VaultDocument}
    (typed : doc.Typed) : (documentReader u).read (doc.json u) = some doc := by
  have tombstones : (tombstoneReader u).list.read (.array (doc.tombstones.map fun t =>
      .array [.text (u.display t.1), .int t.2])) = some doc.tombstones := by
    refine (tombstoneReader u).list_read fun t mem => Reader.pair_read ?_ ?_
    · exact (Reader.text.refine_read rfl).trans (correct.parse_display t.1)
    · exact i64Reader_read (typed.tombstones t mem)
  refine (Reader.record_written (Slots.derived_written _ (by simp))).trans ?_
  simp [field, tombstones, natReader_read typed.format]

end Sentinel.Vault
