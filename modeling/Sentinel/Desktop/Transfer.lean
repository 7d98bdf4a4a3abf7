import Sentinel.Api.Handler
import Sentinel.Desktop.Wrapper
import Sentinel.Lib.Path
import Sentinel.Vault.FileBlob

/-!
# File names of transfers

The transfer commands of `sync.rs`, up to the request that the relay gets and from the blob that
it returns. A name is cleaned twice on its way out (`safeBundleName` keeps the folders of a
bundle's file, `safeBasename` only the last component) and once on its way in: the sealed name
of the transfer, not the names inside a bundle.

The vault key of the session, the answers of the relay and the random bytes are arguments, and a
base64 field holds the bytes it encodes.
-/

namespace Sentinel.Desktop

open Wire Vault Paths

/-- `safe_basename`. -/
def safeBasename (platform : Platform) (name : String) : String :=
  let base := Api.trim (String.ofList ((fileName platform name.toList).getD []))
  if base = "" ∨ base = "." ∨ base = ".." then "download.bin" else base

/-- The parts of a relative path that `safe_bundle_name` keeps. -/
def keptParts (name : String) : List (List Char) :=
  (name.toList.splitOnP isSlash).filter fun s => s ≠ [] ∧ s ≠ ['.'] ∧ s ≠ ['.', '.']

/-- `safe_bundle_name`. -/
def safeBundleName (name : String) : String :=
  let joined := joinParts (keptParts name)
  if joined = [] then "file" else String.ofList joined

/-! ## Sending -/

structure BundleInput where
  name : String
  dataB64 : String

structure Retention where
  deleteOnDownload : Bool
  permanent : Bool
  ttlDays : Option Int
  deriving DecidableEq, Repr

instance : Inhabited Retention := ⟨⟨false, false, none⟩⟩

/-- The arguments of `create_transfer`. -/
structure Upload where
  recipientDeviceId : Option String
  sizeBytes : Nat
  ciphertext : Bytes
  retention : Retention
  deriving DecidableEq, Repr

structure TransferSendOut where
  id : String
  filename : String
  blobBytes : Nat
  deriving DecidableEq, Repr

def transferMaxBlobBytes : Nat := 25 * 1024 * 1024

def bundleMime : String := "application/x-northkey-bundle"

/-- `{:.1}` of a count of bytes in mebibytes: the nearest tenth, of two the even one. -/
def mebibytes (n : Nat) : String :=
  let tenths := 10 * n / 1024 ^ 2
  let rest := 2 * (10 * n % 1024 ^ 2)
  let rounded := if 1024 ^ 2 < rest ∨ 1024 ^ 2 = rest ∧ tenths % 2 = 1 then tenths + 1 else tenths
  toString (rounded / 10) ++ "." ++ toString (rounded % 10)

section Commands

variable {Key : Type} (c : TransferSuite Key)

/-- A passphrase that is given: trimmed, and not empty. -/
def givenPassphrase (passphrase : Option String) : Option String :=
  (passphrase.map Api.trim).filter fun s => s ≠ ""

/-- `maybe_wrap_passphrase`. -/
def maybeWrapPassphrase (salt : Salt16) (nonce : Nonce24) (blob : Bytes)
    (passphrase : Option String) : Bytes :=
  match givenPassphrase passphrase with
  | some p => sealPassphrase c p salt nonce blob .production
  | none => blob

/-- The entries that `transfer_send_bundle` packs. -/
def bundleEntries (decode : String → Except String Bytes) :
    List BundleInput → Checked String (List BundleEntry)
  | [] => pure []
  | f :: files => do
      let bytes ← Checked.ofExcept id (decode (Api.trim f.dataB64))
      let entries ← bundleEntries decode files
      pure (⟨safeBundleName f.name, bytes⟩ :: entries)

/-- The random bytes of one transfer: those of the file, and those of the passphrase. -/
structure Randoms where
  salt : Salt16
  nonce : Nonce24
  passSalt : Salt16
  passNonce : Nonce24

/-- `transfer_send_bundle` before the upload: its display name and what it uploads. -/
def bundleUpload (decode : String → Except String Bytes) (vk : Except String VaultKey)
    (api : Except String Unit) (randoms : Randoms) (recipient : Option String)
    (files : List BundleInput) (retention : Option Retention) (passphrase : Option String) :
    Checked String (String × Upload) := do
  Checked.require (!files.isEmpty) "no files selected"
  let vk ← Checked.ofExcept id vk
  Checked.ofExcept id api
  let entries ← bundleEntries decode files
  let totalPlaintext := (entries.map fun e => e.data.length).sum
  Checked.require (totalPlaintext != 0) "those files are all empty"
  let displayName := toString entries.length ++ " files"
  let info : FileMeta := ⟨displayName ++ ".nkbundle", bundleMime⟩
  let blob ← (sealFile c vk randoms.salt randoms.nonce info (packBundle entries)).mapError display
  let blob := maybeWrapPassphrase c randoms.passSalt randoms.passNonce blob passphrase
  Checked.require (decide (blob.length ≤ transferMaxBlobBytes))
    ("those files are too large together (" ++ mebibytes blob.length ++
      " MiB sealed; 25 MiB max) — send fewer at once")
  pure (displayName,
    ⟨recipient.filter fun s => Api.trim s ≠ "", totalPlaintext, blob, retention.getD default⟩)

/-- `transfer_send_bundle`. -/
def transferSendBundle (decode : String → Except String Bytes) (vk : Except String VaultKey)
    (api : Except String Unit) (create : Upload → Except String String) (randoms : Randoms)
    (recipient : Option String) (files : List BundleInput) (retention : Option Retention)
    (passphrase : Option String) : Checked String TransferSendOut := do
  let (displayName, upload) ←
    bundleUpload c decode vk api randoms recipient files retention passphrase
  let id ← Checked.ofExcept id (create upload)
  pure ⟨id, displayName, upload.ciphertext.length⟩

/-! ## Receiving -/

structure BundleFile where
  name : String
  sizeBytes : Nat
  dataB64 : Bytes
  deriving DecidableEq, Repr

structure TransferDownloadOut where
  filename : String
  sizeBytes : Nat
  mime : String
  dataB64 : Bytes
  bundle : Option (List BundleFile)
  needsPassphrase : Bool
  deriving DecidableEq, Repr

/-- The names that the window gets: the one of the transfer, and those of a bundle. -/
def TransferDownloadOut.names (out : TransferDownloadOut) : List String :=
  out.filename :: (out.bundle.getD []).map BundleFile.name

/-- A byte vector; a larger one cannot be allocated. -/
def allocate {ε : Type} (b : Bytes) : Checked ε Buffer :=
  if bounded : b.length < 2 ^ 63 then .ok ⟨b, bounded⟩ else .trap

/-- `unwrap_passphrase`. -/
def unwrapPassphrase (ct : Bytes) (passphrase : String) : Checked String Bytes :=
  (openPassphrase c passphrase ct .production).mapError fun _ =>
    "That password didn't open the file. Check it and try again."

/-- The downloaded blob without its passphrase, if it has none or one is given. -/
def peel (ct : Bytes) (passphrase : Option String) : Checked String (Option Bytes) :=
  if isPassphraseWrapped ct then
    match givenPassphrase passphrase with
    | none => pure none
    | some p => do
        let inner ← unwrapPassphrase c ct p
        pure (some inner)
  else pure (some ct)

/-- What the blob opens to: the sealed name and type, and the bytes. -/
def openTransfer (vk : VaultKey) (ct : Bytes) : Checked String (FileMeta × Buffer) := do
  let (info, data) ← (openFile c vk ct).mapError display
  let data ← allocate data
  pure (info, data)

/-- The answer for a bundle. -/
def bundleOut (platform : Platform) (info : FileMeta) (entries : List BundleEntry) :
    TransferDownloadOut :=
  let files := entries.map fun e => ⟨e.name, e.data.length, e.data⟩
  { filename := safeBasename platform info.filename
    sizeBytes := (files.map BundleFile.sizeBytes).sum
    mime := info.mime
    dataB64 := []
    bundle := some files
    needsPassphrase := false }

/-- The answer for a single file. -/
def fileOut (platform : Platform) (info : FileMeta) (data : Buffer) : TransferDownloadOut :=
  { filename := safeBasename platform info.filename
    sizeBytes := data.bytes.length
    mime := info.mime
    dataB64 := data.bytes
    bundle := none
    needsPassphrase := false }

/-- The answer of `transfer_download` for a blob that opens. -/
def downloadOut (platform : Platform) (info : FileMeta) (data : Buffer) :
    Checked String TransferDownloadOut :=
  if info.mime = bundleMime then do
    let entries ← (unpackBundle data).mapError display
    pure (bundleOut platform info entries)
  else pure (fileOut platform info data)

/-- `transfer_download`. -/
def transferDownload (platform : Platform) (vk : Except String VaultKey)
    (download : Except String Bytes) (passphrase : Option String) :
    Checked String TransferDownloadOut := do
  let vk ← Checked.ofExcept id vk
  let ct ← Checked.ofExcept id download
  match ← peel c ct passphrase with
  | none => pure ⟨"", 0, "", [], none, true⟩
  | some ct =>
      let (info, data) ← openTransfer c vk ct
      downloadOut platform info data

end Commands

/-! ## Which names are safe -/

/-- The last component of a sealed name, without blanks around it, is a safe path, if it holds a
slash of the other platform. -/
def BaseSafe (platform : Platform) (name : String) : Prop :=
  let base := (Api.trim (String.ofList ((fileName platform name.toList).getD []))).toList
  (∃ c ∈ base, isSlash c = true) → Paths.Safe platform base

theorem safe_safeBasename_iff (platform : Platform) (name : String) :
    Paths.Safe platform (safeBasename platform name).toList ↔ BaseSafe platform name := by
  unfold safeBasename BaseSafe
  generalize Api.trim (String.ofList ((fileName platform name.toList).getD [])) = base
  dsimp only
  by_cases plain : ∀ c ∈ base.toList, isSlash c = false
  · have bare : ¬ ∃ c ∈ base.toList, isSlash c = true := by
      rintro ⟨c, mem, slash⟩
      rw [plain c mem] at slash
      cases slash
    refine iff_of_true ?_ fun slash => absurd slash bare
    split
    · cases platform <;> decide +kernel
    · rename_i kept
      rw [safe_plain_iff plain]
      simp only [not_or, ← String.toList_inj] at kept
      exact kept
  · have slashed : ∃ c ∈ base.toList, isSlash c = true := by
      simpa only [not_forall, Bool.not_eq_false, exists_prop] using plain
    have kept : ¬ (base = "" ∨ base = "." ∨ base = "..") := by
      rintro (rfl | rfl | rfl)
      all_goals exact plain (by simp [isSlash])
    rw [if_neg kept]
    exact ⟨fun safe _ => safe, fun safe => safe slashed⟩

/-- The kept parts start with a drive, and more follows. -/
def OnDrive (platform : Platform) (name : String) : Prop :=
  platform = .windows ∧ ∃ d part rest, keptParts name = [d, ':'] :: part :: rest ∧ d.isAlpha = true

theorem safe_safeBundleName_iff (platform : Platform) (name : String) :
    Paths.Safe platform (safeBundleName name).toList ↔ ¬ OnDrive platform name := by
  have kept : ∀ s ∈ keptParts name, (∀ c ∈ s, isSlash c = false) ∧ s ≠ [] ∧ s ≠ ['.'] ∧
      s ≠ ['.', '.'] := by
    intro s mem
    obtain ⟨part, keep⟩ := List.mem_filter.mp mem
    exact ⟨not_of_mem_splitOnP part, by simpa using keep⟩
  unfold safeBundleName OnDrive
  generalize keptParts name = parts at kept
  dsimp only
  cases parts with
  | nil =>
      refine iff_of_true (by cases platform <;> decide +kernel) ?_
      rintro ⟨-, d, part, rest, eq, -⟩
      cases eq
  | cons a rest =>
      obtain ⟨⟨plain, nonempty, -⟩, -⟩ := List.forall_mem_cons.mp kept
      have joined : joinParts (a :: rest) ≠ [] := by
        intro empty
        have before := takeWhile_joinParts rest plain
        rw [empty] at before
        exact nonempty before.symm
      have pieces := splitOnP_joinParts (List.cons_ne_nil a rest) fun s mem => (kept s mem).1
      rw [if_neg joined, String.toList_ofList, Paths.Safe, pieces, ← Bool.not_eq_true,
        isAbsolute_joinParts_iff nonempty plain,
        and_iff_left fun s mem => (kept s mem).2, not_iff_not]
      constructor
      · rintro ⟨windows, more, d, rfl, alpha⟩
        obtain ⟨part, rest, rfl⟩ := List.exists_cons_of_ne_nil more
        exact ⟨windows, d, part, rest, rfl, alpha⟩
      · rintro ⟨windows, d, part, rest, eq, alpha⟩
        cases eq
        exact ⟨windows, List.cons_ne_nil _ _, d, rfl, alpha⟩

section Names

seal safeBasename Paths.Safe

variable {Key : Type} (c : TransferSuite Key) (platform : Platform)

/-- What the download opens to. -/
def Received (vk : Except String VaultKey) (download : Except String Bytes)
    (passphrase : Option String) (info : FileMeta) (data : Buffer) : Prop :=
  ∃ key ct blob, vk = .ok key ∧ download = .ok ct ∧ peel c ct passphrase = .ok (some blob) ∧
    openTransfer c key blob = .ok (info, data)

/-- The names inside an opened transfer that reach the window as they are: those of the entries
of a bundle, and the last component of the sealed name. -/
def SafelyNamed (info : FileMeta) (data : Buffer) : Prop :=
  if info.mime = bundleMime then
    ∀ es, wholeBundle data.bytes = some es →
      BaseSafe platform info.filename ∧ ∀ e ∈ es, Paths.Safe platform e.name.toList
  else BaseSafe platform info.filename

theorem bundleOut_safe_iff (info : FileMeta) (es : List BundleEntry) :
    (∀ name ∈ (bundleOut platform info es).names, Paths.Safe platform name.toList) ↔
      BaseSafe platform info.filename ∧ ∀ e ∈ es, Paths.Safe platform e.name.toList := by
  have names : (bundleOut platform info es).names =
      safeBasename platform info.filename :: es.map BundleEntry.name := by
    rw [TransferDownloadOut.names, bundleOut, Option.getD_some]
    simp only [List.map_map, Function.comp_def]
  rw [names, List.forall_mem_cons, safe_safeBasename_iff, List.forall_mem_map]

theorem fileOut_safe_iff (info : FileMeta) (data : Buffer) :
    (∀ name ∈ (fileOut platform info data).names, Paths.Safe platform name.toList) ↔
      BaseSafe platform info.filename := by
  rw [← safe_safeBasename_iff]
  exact List.forall_mem_singleton

theorem downloadOut_safe_iff (info : FileMeta) (data : Buffer) :
    (∀ out, downloadOut platform info data = .ok out →
      ∀ name ∈ out.names, Paths.Safe platform name.toList) ↔ SafelyNamed platform info data := by
  rw [downloadOut, SafelyNamed]
  by_cases mime : info.mime = bundleMime
  · rw [if_pos mime, if_pos mime]
    have unpacked : ∀ es, (unpackBundle data).mapError display = .ok es ↔
        wholeBundle data.bytes = some es := fun es =>
      Checked.mapError_eq_ok.trans ((unpackBundle_agrees data).total.2 es)
    constructor
    · intro safe es whole
      refine (bundleOut_safe_iff platform info es).mp (safe _ ?_)
      exact Checked.bind_eq_ok.mpr ⟨es, (unpacked es).mpr whole, rfl⟩
    · intro safe out handed
      obtain ⟨es, read, eq⟩ := Checked.bind_eq_ok.mp handed
      cases eq
      exact (bundleOut_safe_iff platform info es).mpr (safe es ((unpacked es).mp read))
  · rw [if_neg mime, if_neg mime, ← fileOut_safe_iff platform info data]
    constructor
    · intro safe
      exact safe _ rfl
    · intro safe out handed
      cases handed
      exact safe

theorem transferDownload_eq_ok {vk : Except String VaultKey} {download : Except String Bytes}
    {passphrase : Option String} {out : TransferDownloadOut} :
    transferDownload c platform vk download passphrase = .ok out ∧ out.needsPassphrase = false ↔
      ∃ info data, Received c vk download passphrase info data ∧
        downloadOut platform info data = .ok out := by
  have finished : ∀ info data, downloadOut platform info data = .ok out →
      out.needsPassphrase = false := by
    intro info data done
    rw [downloadOut] at done
    by_cases mime : info.mime = bundleMime
    · rw [if_pos mime] at done
      obtain ⟨es, -, eq⟩ := Checked.bind_eq_ok.mp done
      cases eq
      rfl
    · rw [if_neg mime] at done
      cases done
      rfl
  constructor
  · rintro ⟨downloaded, finish⟩
    obtain ⟨key, first, downloaded⟩ := Checked.bind_eq_ok.mp downloaded
    obtain ⟨ct, second, downloaded⟩ := Checked.bind_eq_ok.mp downloaded
    obtain ⟨blob, peeled, downloaded⟩ := Checked.bind_eq_ok.mp downloaded
    cases blob with
    | none =>
        cases downloaded
        cases finish
    | some blob =>
        obtain ⟨⟨info, data⟩, opened, done⟩ := Checked.bind_eq_ok.mp downloaded
        refine ⟨info, data, ⟨key, ct, blob, ?_, ?_, peeled, opened⟩, done⟩
        · cases vk <;> cases first
          rfl
        · cases download <;> cases second
          rfl
  · rintro ⟨info, data, ⟨key, ct, blob, rfl, rfl, peeled, opened⟩, done⟩
    refine ⟨?_, finished info data done⟩
    refine Checked.bind_eq_ok.mpr ⟨key, rfl, Checked.bind_eq_ok.mpr ⟨ct, rfl, ?_⟩⟩
    refine Checked.bind_eq_ok.mpr ⟨some blob, peeled, ?_⟩
    exact Checked.bind_eq_ok.mpr ⟨(info, data), opened, done⟩

/-- The entries of the files: their bytes under their cleaned names. -/
theorem names_bundleEntries {decode : String → Except String Bytes} {files : List BundleInput}
    {entries : List BundleEntry} (packed : bundleEntries decode files = .ok entries) :
    entries.map BundleEntry.name = files.map fun f => safeBundleName f.name := by
  induction files generalizing entries with
  | nil =>
      cases packed
      rfl
  | cons f files ih =>
      obtain ⟨bytes, -, packed⟩ := Checked.bind_eq_ok.mp packed
      obtain ⟨later, rest, eq⟩ := Checked.bind_eq_ok.mp packed
      cases eq
      rw [List.map_cons, List.map_cons, ih rest]

theorem bundleEntries_safe_iff {decode : String → Except String Bytes} {files : List BundleInput}
    {entries : List BundleEntry} (packed : bundleEntries decode files = .ok entries) :
    (∀ e ∈ entries, Paths.Safe platform e.name.toList) ↔
      ∀ f ∈ files, ¬ OnDrive platform f.name := by
  have names : (∀ name ∈ entries.map BundleEntry.name, Paths.Safe platform name.toList) ↔
      ∀ name ∈ files.map fun f => safeBundleName f.name, Paths.Safe platform name.toList := by
    rw [names_bundleEntries packed]
  rw [List.forall_mem_map, List.forall_mem_map] at names
  rw [names]
  exact forall₂_congr fun f _ => safe_safeBundleName_iff platform f.name

/-- The names that a download hands to the window are safe exactly if the transfer is safely
named inside; and those that a bundle is sent with, exactly if no file lies on a drive. -/
theorem transfer_names_safe_iff :
    (∀ vk download passphrase,
      (∀ out, transferDownload c platform vk download passphrase = .ok out →
        out.needsPassphrase = false → ∀ name ∈ out.names, Paths.Safe platform name.toList) ↔
      ∀ info data, Received c vk download passphrase info data → SafelyNamed platform info data) ∧
    ∀ decode vk api randoms recipient files retention passphrase displayName upload,
      bundleUpload c decode vk api randoms recipient files retention passphrase =
        .ok (displayName, upload) →
      (∀ create id, create upload = .ok id →
        transferSendBundle c decode vk api create randoms recipient files retention passphrase =
          .ok ⟨id, displayName, upload.ciphertext.length⟩) ∧
      ∃ key info blob entries, vk = .ok key ∧
        sealFile c key randoms.salt randoms.nonce info (packBundle entries) = .ok blob ∧
        upload.ciphertext =
          maybeWrapPassphrase c randoms.passSalt randoms.passNonce blob passphrase ∧
        ((∀ e ∈ entries, Paths.Safe platform e.name.toList) ↔
          ∀ f ∈ files, ¬ OnDrive platform f.name) := by
  constructor
  · intro vk download passphrase
    constructor
    · intro safe info data received
      refine (downloadOut_safe_iff platform info data).mp fun out done => ?_
      obtain ⟨downloaded, finish⟩ :=
        (transferDownload_eq_ok c platform).mpr ⟨info, data, received, done⟩
      exact safe out downloaded finish
    · intro named out downloaded finish
      obtain ⟨info, data, received, done⟩ :=
        (transferDownload_eq_ok c platform).mp ⟨downloaded, finish⟩
      exact (downloadOut_safe_iff platform info data).mpr (named info data received) out done
  · intro decode vk api randoms recipient files retention passphrase displayName upload sent
    refine ⟨fun create id created => ?_, ?_⟩
    · rw [transferSendBundle, sent, Checked.ok_bind]
      dsimp only
      rw [created]
      rfl
    obtain ⟨_, -, sent⟩ := Checked.bind_eq_ok.mp sent
    obtain ⟨key, session, sent⟩ := Checked.bind_eq_ok.mp sent
    obtain ⟨_, -, sent⟩ := Checked.bind_eq_ok.mp sent
    obtain ⟨entries, packed, sent⟩ := Checked.bind_eq_ok.mp sent
    obtain ⟨_, -, sent⟩ := Checked.bind_eq_ok.mp sent
    obtain ⟨blob, closed, sent⟩ := Checked.bind_eq_ok.mp sent
    obtain ⟨_, -, sent⟩ := Checked.bind_eq_ok.mp sent
    cases sent
    refine ⟨key, _, blob, entries, ?_, Checked.mapError_eq_ok.mp closed, rfl,
      bundleEntries_safe_iff platform packed⟩
    cases vk <;> cases session
    rfl

end Names

/-! ## A bundle that leaves its directory -/

/-- A suite whose ciphertexts are the plaintexts and a tag of sixteen zeros. -/
def plainSuite : TransferSuite Unit where
  hkdf32 _ _ := ()
  argon2idKek _ _ _ := ()
  aeadSeal _ _ _ plain := plain ++ List.replicate 16 0
  aeadOpen _ _ _ ct := some (ct.take (ct.length - 16))
  zstdEncode _ plain := .ok plain
  zstdDecode _ packed := .ok packed
  metaToJson _ info := .ok (packEntry ⟨info.filename, asBytes info.mime⟩)
  metaFromJson _ text :=
    match (entry.decode text).bind fun r => (fromUtf8 r.1.data).map (FileMeta.mk r.1.name) with
    | some info => .ok info
    | none => .error "no metadata"

def escapingInfo : FileMeta := ⟨"1 files.nkbundle", bundleMime⟩

def escapingBundle : Bytes := packBundle [⟨"../../x", [0]⟩]

theorem length_escapingSalt : (List.replicate 16 (5 : UInt8)).length = 16 := rfl

theorem length_escapingNonce : (List.replicate 24 (6 : UInt8)).length = 24 := rfl

def escapingBlob : Bytes :=
  sealUnder plainSuite sfilTag () ⟨List.replicate 16 5, length_escapingSalt⟩
    ⟨List.replicate 24 6, length_escapingNonce⟩
    (filePlain (packEntry ⟨escapingInfo.filename, asBytes escapingInfo.mime⟩) escapingBundle)

/-- A client that packs a bundle on its own can name an entry `../../x`, and the window gets
this name. -/
theorem escapingBlob_handed :
    sealFile plainSuite [] ⟨List.replicate 16 5, rfl⟩ ⟨List.replicate 24 6, rfl⟩ escapingInfo
      escapingBundle = .ok escapingBlob ∧
    transferDownload plainSuite .windows (.ok []) (.ok escapingBlob) none =
      .ok ⟨"1 files.nkbundle", 1, bundleMime, [], some [⟨"../../x", 1, [0]⟩], false⟩ ∧
    ¬ Paths.Safe .windows "../../x".toList :=
  ⟨rfl, by decide +kernel, by decide +kernel⟩

end Sentinel.Desktop
