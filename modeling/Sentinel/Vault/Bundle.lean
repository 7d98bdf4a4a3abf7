import Sentinel.Lib.Codec
import Sentinel.Vault.Envelope

/-!
# Bundles of files

`crates/core/src/vault/fileblob.rs`: several files ride one transfer as
`"NKAR" | 0x01 | count u32 LE | [name_len u32 LE | name | data_len u64 LE | data]*`.
The desktop packs and unpacks them (`packBundle`, `unpackBundle`), the phone unpacks them
with signed arithmetic that traps on overflow (`VaultCrypto.unpackBundle`). `bundle` is the
format as a codec, which both decoders are compared with.
-/

namespace Sentinel.Vault

open Wire

/-! ## Numbers and names on the wire -/

theorem leBytes_leNat (b : Bytes) : leBytes b.length (leNat b) = b := by
  induction b with
  | nil => rfl
  | cons x b ih =>
      have byte := x.toNat_lt
      have low : (x.toNat + 256 * leNat b) % 256 = x.toNat := by omega
      have high : (x.toNat + 256 * leNat b) / 256 = leNat b := by omega
      rw [leNat, List.length_cons, leBytes, low, high, ih, UInt8.ofNat_toNat]

/-- A number in `k` little-endian bytes. -/
def le (k : Nat) : Codec UInt8 Nat where
  Fits n := n < 256 ^ k
  encode n := leBytes k n
  decode b := if k ≤ b.length then some (leNat (b.take k), b.drop k) else none
  decode_encode := by
    intro n fits rest
    have length := length_leBytes k n
    rw [if_pos (by rw [List.length_append]; omega), List.take_left' length,
      List.drop_left' length, leNat_leBytes, Nat.mod_eq_of_lt fits]
  encode_of_decode := by
    intro b n rest read
    split at read
    · cases read
      have length : (b.take k).length = k := List.length_take_of_le ‹_›
      constructor
      · nth_rewrite 1 [← length]
        rw [leBytes_leNat, List.take_append_drop]
      · have small := leNat_lt (b.take k)
        rwa [length] at small
    · cases read

/-- `str::as_bytes`. -/
def asBytes (s : String) : Bytes := s.toUTF8.data.toList

/-- `String::from_utf8`. -/
def fromUtf8 (b : Bytes) : Option String := String.fromUTF8? ⟨b.toArray⟩

theorem fromUtf8_asBytes (s : String) : fromUtf8 (asBytes s) = some s := by
  rw [fromUtf8, asBytes, Array.toArray_toList]
  exact dif_pos s.isValidUTF8

theorem asBytes_fromUtf8 (b : Bytes) (s : String) (read : fromUtf8 b = some s) : asBytes s = b := by
  rw [fromUtf8, String.fromUTF8?] at read
  split at read
  · cases read
    rfl
  · cases read

/-- One file inside a bundle. -/
structure BundleEntry where
  name : String
  data : Bytes
  deriving DecidableEq, Repr

/-! ## The format -/

/-- `NKAR_MAGIC` and `NKAR_VERSION`. -/
def nkarTag : Bytes := [0x4E, 0x4B, 0x41, 0x52, 0x01]

def entryName : Codec UInt8 String :=
  (Codec.sized (le 4)).refine fromUtf8 asBytes fromUtf8_asBytes asBytes_fromUtf8

def entry : Codec UInt8 BundleEntry :=
  entryName.dependent (fun _ => Codec.sized (le 8)) BundleEntry.mk BundleEntry.name
    BundleEntry.data (fun _ => rfl) (fun _ _ _ => rfl) fun _ _ => rfl

def bundle : Codec UInt8 (List BundleEntry) := Codec.tagged nkarTag (Codec.counted (le 4) entry)

/-! ## The desktop -/

/-- What the loop of `pack_bundle` appends for an entry. -/
def packEntry (e : BundleEntry) : Bytes :=
  leBytes 4 (asBytes e.name).length ++ asBytes e.name ++ leBytes 8 e.data.length ++ e.data

/-- `pack_bundle`. -/
def packBundle (entries : List BundleEntry) : Bytes :=
  nkarTag ++ leBytes 4 entries.length ++ entries.flatMap packEntry

/-- A byte vector: an allocation holds at most `isize::MAX` bytes. -/
structure Buffer where
  bytes : Bytes
  bounded : bytes.length < 2 ^ 63

def bundleError (detail : String) : CoreError := .format "file bundle" detail

/-- `pos.checked_add(n).map(|end| end <= len).unwrap_or(false)` on a 64-bit `usize`. -/
def fits (b : Bytes) (pos n : Nat) : Bool := decide (pos + n < 2 ^ 64) && decide (pos + n ≤ b.length)

/-- A length of `k` bytes and as many bytes after it, with the two errors; the position moves
behind both. -/
def readSized (b : Bytes) (k pos : Nat) (noLength noBody : String) :
    Checked CoreError (Bytes × Nat) := do
  Checked.require (fits b pos k) (bundleError noLength)
  let n := leNat (← Checked.slice b pos k)
  Checked.require (fits b (pos + k) n) (bundleError noBody)
  let body ← Checked.slice b (pos + k) n
  pure (body, pos + k + n)

/-- The body of the loop of `unpack_bundle`. -/
def unpackEntry (b : Bytes) (pos : Nat) : Checked CoreError (BundleEntry × Nat) := do
  let (name, pos) ← readSized b 4 pos "truncated (name length)" "truncated (name)"
  let name ← Checked.ofOption (bundleError "name not utf-8") (fromUtf8 name)
  let (data, pos) ← readSized b 8 pos "truncated (data length)" "truncated (data)"
  pure (⟨name, data⟩, pos)

/-- The loop: `count` entries from a position on, behind those already read. -/
def unpackEntries (b : Bytes) : Nat → Nat → List BundleEntry →
    Checked CoreError (List BundleEntry × Nat)
  | 0, pos, out => pure (out, pos)
  | count + 1, pos, out => do
      let (e, pos) ← unpackEntry b pos
      unpackEntries b count pos (out ++ [e])

/-- `unpack_bundle`. -/
def unpackBundle (buffer : Buffer) : Checked CoreError (List BundleEntry) := do
  let b := buffer.bytes
  Checked.require (decide (9 ≤ b.length) && b.take 4 == nkarTag.take 4) (bundleError "bad magic")
  let version ← Checked.slice b 4 1
  Checked.require (version == [0x01]) (bundleError "unsupported version")
  let count := leNat (← Checked.slice b 5 4)
  let (out, pos) ← unpackEntries b count 9 []
  Checked.require (pos == b.length) (bundleError "trailing bytes")
  pure out

/-! ## The decoder reads the format -/

theorem encode_entry : entry.encode = packEntry := by
  funext e
  exact (List.append_assoc ..).symm

theorem encode_bundle (entries : List BundleEntry) : bundle.encode entries = packBundle entries := by
  change nkarTag ++ (leBytes 4 entries.length ++ entries.flatMap entry.encode) = _
  rw [encode_entry, packBundle, List.append_assoc]

/-- The entries the format can express. -/
theorem fits_bundle (entries : List BundleEntry) : bundle.Fits entries ↔
    entries.length < 2 ^ 32 ∧ ∀ e ∈ entries, (asBytes e.name).length < 2 ^ 32 ∧
      e.data.length < 2 ^ 64 := by
  have four : 256 ^ 4 = 2 ^ 32 := by norm_num
  have eight : 256 ^ 8 = 2 ^ 64 := by norm_num
  change (entries.length < 256 ^ 4 ∧ entries.length = entries.length ∧
    ∀ e ∈ entries, ((asBytes e.name).length < 256 ^ 4 ∧ (asBytes e.name).length = _) ∧
      e.data.length < 256 ^ 8 ∧ e.data.length = e.data.length) ↔ _
  simp only [four, eight, and_true, true_and]

theorem readAt_le {k : Nat} {b : Bytes} {pos : Nat} (start : pos ≤ b.length) :
    (le k).readAt b pos =
      if pos + k ≤ b.length then some (leNat ((b.drop pos).take k), pos + k) else none :=
  Codec.readAt_prefix leNat (fun _ => rfl) start

theorem readAt_sized {k : Nat} {b : Bytes} {pos : Nat} (start : pos ≤ b.length) :
    (Codec.sized (le k)).readAt b pos =
      if pos + k ≤ b.length ∧ pos + k + leNat ((b.drop pos).take k) ≤ b.length then
        some ((b.drop (pos + k)).take (leNat ((b.drop pos).take k)),
          pos + k + leNat ((b.drop pos).take k))
      else none := by
  rw [Codec.readAt_sized, readAt_le start]
  by_cases inside : pos + k ≤ b.length
  · rw [if_pos inside, Option.bind_some, Codec.readAt_block inside]
    by_cases body : pos + k + leNat ((b.drop pos).take k) ≤ b.length
    · rw [if_pos body, if_pos ⟨inside, body⟩]
    · rw [if_neg body, if_neg fun both => body both.2]
  · rw [if_neg inside, if_neg fun both => inside both.1, Option.bind_none]

theorem fits_iff {buffer : Buffer} {pos n : Nat} :
    fits buffer.bytes pos n = true ↔ pos + n ≤ buffer.bytes.length := by
  have bounded := buffer.bounded
  rw [fits, Bool.and_eq_true, decide_eq_true_iff, decide_eq_true_iff]
  omega

theorem fits_false {buffer : Buffer} {pos n : Nat} (past : ¬ pos + n ≤ buffer.bytes.length) :
    fits buffer.bytes pos n = false := by
  rw [← Bool.not_eq_true, fits_iff]
  exact past

theorem readSized_agrees (buffer : Buffer) (k : Nat) {pos : Nat} (noLength noBody : String)
    (start : pos ≤ buffer.bytes.length) : (readSized buffer.bytes k pos noLength noBody).Agrees
      ((Codec.sized (le k)).readAt buffer.bytes pos) := by
  rw [readAt_sized start, readSized]
  by_cases inside : pos + k ≤ buffer.bytes.length
  · rw [fits_iff.mpr inside, Checked.slice_eq inside, Checked.require_true, Checked.ok_bind,
      Checked.ok_bind]
    dsimp only
    by_cases body : pos + k + leNat ((buffer.bytes.drop pos).take k) ≤ buffer.bytes.length
    · rw [if_pos ⟨inside, body⟩, fits_iff.mpr body, Checked.slice_eq body]
      rfl
    · rw [if_neg fun both => body both.2, fits_false body]
      trivial
  · rw [if_neg fun both => inside both.1, fits_false inside]
    trivial

/-- What is read of a string ends inside it. -/
theorem readAt_le_length {α : Type} (c : Codec UInt8 α) {b : Bytes} {pos : Nat} {r : α × Nat}
    (read : c.readAt b pos = some r) : r.2 ≤ b.length := by
  obtain ⟨s, -, rfl⟩ := Option.map_eq_some_iff.mp read
  exact Nat.sub_le _ _

theorem unpackEntry_agrees (buffer : Buffer) {pos : Nat} (start : pos ≤ buffer.bytes.length) :
    (unpackEntry buffer.bytes pos).Agrees (entry.readAt buffer.bytes pos) := by
  rw [entry, Codec.readAt_dependent, entryName, Codec.readAt_refine, Option.bind_assoc]
  refine (readSized_agrees buffer 4 _ _ start).bind fun r named => ?_
  rw [Option.bind_map]
  refine (Checked.ofOption_agrees _ _).bind fun name utf8 => ?_
  exact (readSized_agrees buffer 8 _ _ (readAt_le_length _ named)).bind_ok _

theorem unpackEntries_agrees (buffer : Buffer) (count : Nat) {pos : Nat}
    (start : pos ≤ buffer.bytes.length) (out : List BundleEntry) :
    (unpackEntries buffer.bytes count pos out).Agrees
      (((entry.times count).readAt buffer.bytes pos).map fun r => (out ++ r.1, r.2)) := by
  induction count generalizing pos out with
  | zero =>
      rw [Codec.readAt_times_zero _ start, Option.map_some, List.append_nil]
      rfl
  | succ count ih =>
      rw [Codec.readAt_times_succ, Option.map_bind]
      refine (unpackEntry_agrees buffer start).bind fun r read => ?_
      rw [Function.comp_apply, Option.map_map]
      have later := ih (readAt_le_length _ read) (out ++ [r.1])
      simpa only [Function.comp_def, List.append_assoc, List.singleton_append] using later

/-- The entries of a string that is a bundle as a whole. -/
def wholeBundle (b : Bytes) : Option (List BundleEntry) :=
  (bundle.readAt b 0).bind fun r => if r.2 = b.length then some r.1 else none

theorem wholeBundle_iff {b : Bytes} {es : List BundleEntry} :
    wholeBundle b = some es ↔ bundle.Fits es ∧ packBundle es = b := by
  rw [← encode_bundle, ← Codec.readAt_whole_iff, wholeBundle]
  constructor
  · intro whole
    obtain ⟨⟨x, pos⟩, read, value⟩ := Option.bind_eq_some_iff.mp whole
    split at value
    · rename_i last
      cases value
      rw [read]
      exact congrArg some (Prod.ext rfl last)
    · cases value
  · intro read
    rw [read]
    exact if_pos rfl

/-- A tag of five bytes is the magic and the version. -/
theorem tag_iff {tag b : Bytes} (five : tag.length = 5) :
    b.take 5 = tag ↔ b.take 4 = tag.take 4 ∧ (b.drop 4).take 1 = tag.drop 4 := by
  have parts : b.take (4 + 1) = b.take 4 ++ (b.drop 4).take 1 := List.take_add
  change b.take (4 + 1) = tag ↔ _
  rw [parts]
  constructor
  · intro eq
    have length := congrArg List.length eq
    rw [List.length_append, List.length_take, List.length_take, List.length_drop] at length
    have four : (b.take 4).length = (tag.take 4).length := by
      rw [List.length_take, List.length_take]
      omega
    exact List.append_inj (eq.trans (List.take_append_drop 4 tag).symm) four
  · rintro ⟨magic, version⟩
    rw [magic, version, List.take_append_drop]

theorem take_nkarTag_iff {b : Bytes} :
    b.take 5 = nkarTag ↔ b.take 4 = nkarTag.take 4 ∧ (b.drop 4).take 1 = [0x01] := tag_iff rfl

/-- The magic, the version and the count. -/
def HasHeader (b : Bytes) : Prop := 9 ≤ b.length ∧ b.take 5 = nkarTag

/-- The checks of the header, with the two errors, before what reads the entries. -/
def withHeader {ε α : Type} (b : Bytes) (badMagic badVersion : ε) (entries : Bytes → Checked ε α) :
    Checked ε α := do
  Checked.require (decide (9 ≤ b.length) && b.take 4 == nkarTag.take 4) badMagic
  let version ← Checked.slice b 4 1
  Checked.require (version == [0x01]) badVersion
  entries (← Checked.slice b 5 4)

theorem withHeader_eq {ε α : Type} {b : Bytes} (header : HasHeader b) (badMagic badVersion : ε)
    (entries : Bytes → Checked ε α) :
    withHeader b badMagic badVersion entries = entries ((b.drop 5).take 4) := by
  obtain ⟨long, tag⟩ := header
  obtain ⟨magic, version⟩ := take_nkarTag_iff.mp tag
  have one : 4 + 1 ≤ b.length := by omega
  rw [withHeader, decide_eq_true long, beq_iff_eq.mpr magic, Checked.slice_eq one,
    Checked.slice_eq long, version]
  rfl

theorem withHeader_err {ε α : Type} {b : Bytes} (header : ¬ HasHeader b) (badMagic badVersion : ε)
    (entries : Bytes → Checked ε α) : (withHeader b badMagic badVersion entries).Agrees none := by
  rw [withHeader]
  by_cases first : 9 ≤ b.length ∧ b.take 4 = nkarTag.take 4
  · obtain ⟨long, magic⟩ := first
    have one : 4 + 1 ≤ b.length := by omega
    have other : (b.drop 4).take 1 ≠ [0x01] := fun version =>
      header ⟨long, take_nkarTag_iff.mpr ⟨magic, version⟩⟩
    rw [decide_eq_true long, beq_iff_eq.mpr magic, Checked.slice_eq one]
    change (Checked.require _ badVersion >>= _).Agrees none
    rw [beq_eq_false_iff_ne.mpr other]
    trivial
  · have no : (decide (9 ≤ b.length) && b.take 4 == nkarTag.take 4) = false := by
      rw [← Bool.not_eq_true, Bool.and_eq_true, decide_eq_true_iff, beq_iff_eq]
      exact first
    rw [no]
    trivial

theorem wholeBundle_none {b : Bytes} (header : ¬ HasHeader b) : wholeBundle b = none := by
  rw [wholeBundle, bundle, Codec.readAt_tagged, List.drop_zero]
  split
  · rename_i tag
    have short : ¬ 9 ≤ b.length := fun long => header ⟨long, tag⟩
    have none_ : (le 4).readAt b 5 = none := by
      change Option.map _ (if 4 ≤ (b.drop 5).length then _ else none) = none
      rw [List.length_drop, if_neg (by omega), Option.map_none]
    rw [Codec.readAt_counted]
    change (((le 4).readAt b 5).bind _).bind _ = _
    rw [none_, Option.bind_none, Option.bind_none]
  · rfl

theorem wholeBundle_eq {b : Bytes} (header : HasHeader b) : wholeBundle b =
    ((entry.times (leNat ((b.drop 5).take 4))).readAt b 9).bind fun r =>
      if r.2 = b.length then some r.1 else none := by
  obtain ⟨long, tag⟩ := header
  rw [wholeBundle, bundle, Codec.readAt_tagged, List.drop_zero]
  change (ite (b.take 5 = nkarTag) _ _ : Option _).bind _ = _
  rw [if_pos tag, Codec.readAt_counted]
  change (((le 4).readAt b 5).bind _).bind _ = _
  rw [readAt_le (by omega), if_pos long, Option.bind_some]

/-- Nothing may follow the entries. -/
theorem agrees_whole {ε : Type} {b : Bytes} {r : Checked ε (List BundleEntry × Nat)}
    {o : Option (List BundleEntry × Nat)}
    (agrees : r.Agrees (o.map fun r => ([] ++ r.1, r.2))) (trailing : ε) :
    (r >>= fun x => Checked.require (x.2 == b.length) trailing >>= fun _ => .ok x.1).Agrees
      (o.bind fun r => if r.2 = b.length then some r.1 else none) := by
  rw [show (fun r : List BundleEntry × Nat => ([] ++ r.1, r.2)) = id from rfl,
    Option.map_id_fun, id] at agrees
  refine Checked.Agrees.bind agrees fun x _ => ?_
  by_cases last : x.2 = b.length
  · rw [if_pos last, beq_iff_eq.mpr last]
    rfl
  · rw [if_neg last, beq_eq_false_iff_ne.mpr last]
    trivial

theorem unpackBundle_agrees (buffer : Buffer) :
    (unpackBundle buffer).Agrees (wholeBundle buffer.bytes) := by
  change (withHeader buffer.bytes _ _ _).Agrees _
  by_cases header : HasHeader buffer.bytes
  · rw [withHeader_eq header, wholeBundle_eq header]
    exact agrees_whole (unpackEntries_agrees buffer _ header.1 []) _
  · rw [wholeBundle_none header]
    exact withHeader_err header _ _ _

/-- An entry is part of the bundle. -/
theorem length_packEntry_le {entries : List BundleEntry} {e : BundleEntry} (mem : e ∈ entries) :
    (packEntry e).length ≤ (packBundle entries).length := by
  rw [packBundle, List.length_append, List.length_flatMap]
  have part := List.le_sum_of_mem (List.mem_map_of_mem (f := fun e => (packEntry e).length) mem)
  exact part.trans (Nat.le_add_left _ _)

/-- For every list of fewer than `2 ^ 32` entries with names shorter than `2 ^ 32` bytes that
packs into a byte vector, unpacking gives the list back; and for every byte vector unpacking ends
without a panic, and the entries it gives pack into just that vector. -/
theorem bundle_bijection :
    (∀ (entries : List BundleEntry) (bounded : (packBundle entries).length < 2 ^ 63),
      entries.length < 2 ^ 32 → (∀ e ∈ entries, (asBytes e.name).length < 2 ^ 32) →
      unpackBundle ⟨packBundle entries, bounded⟩ = .ok entries) ∧
    ∀ buffer, unpackBundle buffer ≠ .trap ∧
      ∀ entries, unpackBundle buffer = .ok entries → packBundle entries = buffer.bytes := by
  constructor
  · intro entries bounded few names
    have small : ∀ e ∈ entries, e.data.length < 2 ^ 64 := by
      intro e mem
      have inside := length_packEntry_le mem
      have data : e.data.length ≤ (packEntry e).length := by
        rw [packEntry, List.length_append]
        exact Nat.le_add_left _ _
      omega
    have whole := wholeBundle_iff.mpr ⟨(fits_bundle entries).mpr
      ⟨few, fun e mem => ⟨names e mem, small e mem⟩⟩, rfl⟩
    exact ((unpackBundle_agrees ⟨_, bounded⟩).total.2 entries).mpr whole
  · intro buffer
    obtain ⟨total, values⟩ := (unpackBundle_agrees buffer).total
    exact ⟨total, fun entries eq => (wholeBundle_iff.mp ((values entries).mp eq)).2⟩

/-- Three files, one of them in a folder and one empty. -/
def sampleBundle : List BundleEntry :=
  [⟨"a.txt", [104, 101, 108, 108, 111]⟩, ⟨"nested/b.bin", [0, 255, 7, 42, 7]⟩, ⟨"empty", []⟩]

theorem bundle_bijection_sample :
    unpackBundle ⟨packBundle sampleBundle, by decide +kernel⟩ = .ok sampleBundle :=
  bundle_bijection.1 sampleBundle (by decide +kernel) (by decide) (by decide +kernel)

end Sentinel.Vault
