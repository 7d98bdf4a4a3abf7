import Mathlib
import Sentinel.Lib.Table
import Sentinel.Lib.Lww
import Sentinel.Vault.Document

/-!
# The local vault

`crates/core/src/vault/store.rs`: the tables `items` and `tombstones`, their operations and
the merge of a remote document. `merge` is not a transaction: an envelope it cannot read
ends it, and what it did before stays. The model returns the store together with the
result for that reason.

`LocalVault.entry` is what the store holds for one id. Every operation is described by
what it does to that entry: an envelope is absorbed (`absorb`), a tombstone of the
document buries a live item (`bury`), and `merge` absorbs the readable copies of the id
and then buries with its tombstones.
-/

namespace Sentinel.Vault

open Relational Lww

structure ItemRow where
  id : ItemId
  envelope : ItemEnvelope
  updatedAt : Int
  deriving DecidableEq, Repr

structure TombstoneRow where
  id : ItemId
  deletedAt : Int
  deriving DecidableEq, Repr

/-- The two tables. A row repeats what the header of its envelope says, and no id is both
live and deleted. -/
structure LocalVault where
  items : Table ItemId ItemRow ItemRow.id
  tombstones : Table ItemId TombstoneRow TombstoneRow.id
  stamped : ∀ id r, items.find? id = some r → envelopeMeta r.envelope = .ok (id, r.updatedAt)
  exclusive : ∀ id, items.find? id ≠ none → tombstones.find? id = none

structure MergeReport where
  added : Nat := 0
  updated : Nat := 0
  deleted : Nat := 0
  conflicts : Nat := 0
  deriving DecidableEq, Repr

namespace LocalVault

/-- `open` on a new file. -/
def empty : LocalVault where
  items := Table.empty
  tombstones := Table.empty
  stamped := nofun
  exclusive := fun _ _ => rfl

/-- `upsert` of an envelope with this header. -/
def put (v : LocalVault) (env : ItemEnvelope) (id : ItemId) (updatedAt : Int)
    (header : envelopeMeta env = .ok (id, updatedAt)) : LocalVault where
  items := v.items.insertOr { id, envelope := env, updatedAt }
    (fun r => { r with envelope := env, updatedAt }) fun _ => rfl
  -- clear any tombstone for a resurrected id
  tombstones := v.tombstones.deleteWhere fun t => decide (t.id = id)
  stamped := by
    intro i r found
    rw [Table.find?_insertOr] at found
    split at found
    · rename_i same
      subst same
      cases old : v.items.find? id <;> rw [old] at found <;> cases found <;> exact header
    · exact v.stamped i r found
  exclusive := by
    intro i present
    rw [Table.find?_insertOr] at present
    rw [Table.find?_deleteWhere, Option.filter_eq_none_iff]
    intro t found
    have key : t.id = i := Table.key_of_find? found
    by_cases same : id = i
    · simp [key, same]
    · rw [if_neg same] at present
      rw [v.exclusive i present] at found
      cases found

def upsert (v : LocalVault) (env : ItemEnvelope) : Except CoreError LocalVault :=
  match header : envelopeMeta env with
  | .error e => .error e
  | .ok (id, updatedAt) => .ok (v.put env id updatedAt header)

def get (v : LocalVault) (id : ItemId) : Option ItemEnvelope :=
  (v.items.find? id).map ItemRow.envelope

/-- All sealed items, newest first. -/
def listEnvelopes (v : LocalVault) : List ItemEnvelope :=
  (v.items.rows.insertionSort fun a b => b.updatedAt ≤ a.updatedAt).map ItemRow.envelope

/-- Delete an item and record a tombstone. -/
def delete (v : LocalVault) (id : ItemId) (deletedAt : Int) : LocalVault where
  items := v.items.deleteWhere fun r => decide (r.id = id)
  tombstones := v.tombstones.insertOr { id, deletedAt } (fun t => { t with deletedAt }) fun _ => rfl
  stamped := by
    intro i r found
    rw [Table.find?_deleteWhere, Option.filter_eq_some_iff] at found
    exact v.stamped i r found.1
  exclusive := by
    intro i present
    obtain ⟨r, found⟩ := Option.ne_none_iff_exists'.mp present
    rw [Table.find?_deleteWhere, Option.filter_eq_some_iff] at found
    have key : r.id = i := Table.key_of_find? found.1
    have other : id ≠ i := by
      rintro rfl
      simp [key] at found
    rw [Table.find?_insertOr, if_neg other]
    exact v.exclusive i (by rw [found.1]; exact nofun)

/-- A snapshot of the whole vault. -/
def toDocument (v : LocalVault) : VaultDocument :=
  .fromEnvelopes v.listEnvelopes (v.tombstones.rows.map fun t => (t.id, t.deletedAt))

/-- One round of the first loop of `merge`. -/
def mergeEnvelope (v : LocalVault) (report : MergeReport) (env : ItemEnvelope) :
    Except CoreError (LocalVault × MergeReport) := do
  let (id, remoteTs) ← envelopeMeta env
  match (v.items.find? id).map ItemRow.updatedAt with
  | none =>
      let v ← v.upsert env
      pure (v, { report with added := report.added + 1 })
  | some l =>
      if l < remoteTs then do
        let v ← v.upsert env
        pure (v, { report with updated := report.updated + 1 })
      else if remoteTs < l then
        -- local is newer; keep it
        pure (v, { report with conflicts := report.conflicts + 1 })
      else pure (v, report)

/-- The first loop: it stops at the first envelope that fails. -/
def mergeEnvelopes : LocalVault → MergeReport → List ItemEnvelope →
    LocalVault × Except CoreError MergeReport
  | v, report, [] => (v, .ok report)
  | v, report, env :: rest =>
      match v.mergeEnvelope report env with
      | .error e => (v, .error e)
      | .ok (v, report) => mergeEnvelopes v report rest

/-- One round of the second loop. -/
def mergeTombstone (s : LocalVault × MergeReport) (t : ItemId × Int) : LocalVault × MergeReport :=
  match (s.1.items.find? t.1).map ItemRow.updatedAt with
  | none => s
  | some l =>
      if l ≤ t.2 then (s.1.delete t.1 t.2, { s.2 with deleted := s.2.deleted + 1 }) else s

/-- Merge a remote document: newest `updated_at` wins; tombstones newer than a local item
delete it. -/
def merge (v : LocalVault) (remote : VaultDocument) : LocalVault × Except CoreError MergeReport :=
  match remote.envelopes with
  | .error e => (v, .error e)
  | .ok envs =>
      match v.mergeEnvelopes {} envs with
      | (v, .error e) => (v, .error e)
      | (v, .ok report) =>
          let merged := remote.tombstones.foldl mergeTombstone (v, report)
          (merged.1, .ok merged.2)

/-- What the store holds for an id. -/
def entry (v : LocalVault) (id : ItemId) : Option (Entry Int ItemEnvelope) :=
  match v.items.find? id with
  | some r => some (.item r.updatedAt r.envelope)
  | none => (v.tombstones.find? id).map fun t => .tombstone t.deletedAt

@[simp] theorem entry_empty (id : ItemId) : empty.entry id = none := rfl

theorem live_entry (v : LocalVault) (id : ItemId) : live (v.entry id) = v.get id := by
  unfold entry get
  cases v.items.find? id with
  | some r => rfl
  | none => cases v.tombstones.find? id <;> rfl

theorem entry_put (v : LocalVault) {env : ItemEnvelope} {id : ItemId} {updatedAt : Int}
    (header : envelopeMeta env = .ok (id, updatedAt)) (i : ItemId) :
    (v.put env id updatedAt header).entry i =
      if id = i then some (.item updatedAt env) else v.entry i := by
  unfold entry put
  simp only [Table.find?_insertOr, Table.find?_deleteWhere]
  by_cases same : id = i
  · subst same
    cases v.items.find? id <;> simp
  · simp only [if_neg same]
    cases v.items.find? i with
    | some r => rfl
    | none =>
        cases found : v.tombstones.find? i with
        | none => rfl
        | some t =>
            have key : t.id = i := Table.key_of_find? found
            have other : ¬ t.id = id := fun eq => same (eq.symm.trans key)
            simp [other]

theorem entry_delete (v : LocalVault) (id : ItemId) (deletedAt : Int) (i : ItemId) :
    (v.delete id deletedAt).entry i =
      if id = i then some (.tombstone deletedAt) else v.entry i := by
  unfold entry delete
  simp only [Table.find?_insertOr, Table.find?_deleteWhere]
  by_cases same : id = i
  · subst same
    cases found : v.items.find? id with
    | none => cases v.tombstones.find? id <;> simp
    | some r =>
        have key : r.id = id := Table.key_of_find? found
        cases v.tombstones.find? id <;> simp [Option.filter, key]
  · simp only [if_neg same]
    cases found : v.items.find? i with
    | none => rfl
    | some r =>
        have key : r.id = i := Table.key_of_find? found
        have other : ¬ r.id = id := fun eq => same (eq.symm.trans key)
        simp [Option.filter, other]

theorem upsert_ok {v : LocalVault} {env : ItemEnvelope} {id : ItemId} {updatedAt : Int}
    (header : envelopeMeta env = .ok (id, updatedAt)) :
    v.upsert env = .ok (v.put env id updatedAt header) := by
  unfold upsert
  split <;> rename_i eq
  · rw [header] at eq
    cases eq
  · rw [header] at eq
    cases eq
    rfl

theorem upsert_error {v : LocalVault} {env : ItemEnvelope} {e : CoreError}
    (header : envelopeMeta env = .error e) : v.upsert env = .error e := by
  unfold upsert
  split <;> rename_i eq
  · rw [header] at eq
    cases eq
    rfl
  · rw [header] at eq
    cases eq

end LocalVault

/-- What `merge` makes of an entry when an envelope of its id arrives: without a live item
the envelope is taken, whatever tombstone there is. -/
def absorb : Option (Entry Int ItemEnvelope) → Int × ItemEnvelope → Option (Entry Int ItemEnvelope)
  | some (.item l env), (ts, remote) => if l < ts then some (.item ts remote) else some (.item l env)
  | _, (ts, remote) => some (.item ts remote)

/-- What `merge` makes of an entry when a tombstone of its id arrives: only a live item
that is not newer is deleted. -/
def bury : Option (Entry Int ItemEnvelope) → Int → Option (Entry Int ItemEnvelope)
  | some (.item l env), deletedAt =>
      if l ≤ deletedAt then some (.tombstone deletedAt) else some (.item l env)
  | e, _ => e

/-- The headers of the envelopes before the first unreadable one. -/
def readable : List ItemEnvelope → List (ItemId × Int × ItemEnvelope)
  | [] => []
  | env :: rest =>
      match envelopeMeta env with
      | .error _ => []
      | .ok (id, ts) => (id, ts, env) :: readable rest

/-- The copies of an id that the first loop of `merge` sees. -/
def copies (id : ItemId) (envs : List ItemEnvelope) : List (Int × ItemEnvelope) :=
  (readable envs).filterMap fun x => if x.1 = id then some x.2 else none

/-- The tombstones of an id. -/
def marks (id : ItemId) (tombstones : List (ItemId × Int)) : List Int :=
  tombstones.filterMap fun t => if t.1 = id then some t.2 else none

/-- Every envelope of the list has a header. -/
def AllReadable (envs : List ItemEnvelope) : Prop :=
  ∀ env ∈ envs, ∃ m, envelopeMeta env = .ok m

namespace LocalVault

theorem updatedAt_entry (v : LocalVault) (id : ItemId) :
    (v.items.find? id).map ItemRow.updatedAt =
      match v.entry id with
      | some (.item l _) => some l
      | _ => none := by
  unfold entry
  cases v.items.find? id with
  | some r => rfl
  | none => cases v.tombstones.find? id <;> rfl

/-- One round of the first loop absorbs the envelope. -/
theorem mergeEnvelope_ok (v : LocalVault) (report : MergeReport) {env : ItemEnvelope} {id : ItemId}
    {ts : Int} (header : envelopeMeta env = .ok (id, ts)) :
    ∃ v' report', v.mergeEnvelope report env = .ok (v', report') ∧
      ∀ i, v'.entry i = if id = i then absorb (v.entry i) (ts, env) else v.entry i := by
  unfold mergeEnvelope
  rw [header]
  simp only [bind, Except.bind, updatedAt_entry, upsert_ok header, pure, Except.pure]
  have taken : (∀ i, id = i → absorb (v.entry i) (ts, env) = some (.item ts env)) →
      ∀ i, (v.put env id ts header).entry i =
        if id = i then absorb (v.entry i) (ts, env) else v.entry i := by
    intro newest i
    rw [entry_put]
    split <;> rename_i same
    · exact (newest i same).symm
    · rfl
  rcases held : v.entry id with - | ⟨l, old⟩ | d
  · exact ⟨_, _, rfl, taken (by rintro i rfl; rw [held]; rfl)⟩
  · simp only
    by_cases newer : l < ts
    · rw [if_pos newer]
      exact ⟨_, _, rfl, taken (by rintro i rfl; rw [held]; exact if_pos newer)⟩
    · have kept : ∀ i, v.entry i = if id = i then absorb (v.entry i) (ts, env) else v.entry i := by
        intro i
        split <;> rename_i same
        · subst same
          rw [held, absorb, if_neg newer]
        · rfl
      rw [if_neg newer]
      split <;> exact ⟨_, _, rfl, kept⟩
  · exact ⟨_, _, rfl, taken (by rintro i rfl; rw [held]; rfl)⟩

theorem mergeEnvelope_error (v : LocalVault) (report : MergeReport) {env : ItemEnvelope}
    {e : CoreError} (header : envelopeMeta env = .error e) :
    v.mergeEnvelope report env = .error e := by
  unfold mergeEnvelope
  rw [header]
  rfl

/-- The first loop absorbs the readable copies of each id, in order. -/
theorem entry_mergeEnvelopes (v : LocalVault) (report : MergeReport) (envs : List ItemEnvelope)
    (id : ItemId) :
    (v.mergeEnvelopes report envs).1.entry id = (copies id envs).foldl absorb (v.entry id) := by
  induction envs generalizing v report with
  | nil => rfl
  | cons env rest ih =>
      cases header : envelopeMeta env with
      | error e =>
          have none_ : readable (env :: rest) = [] := by rw [readable, header]
          rw [mergeEnvelopes, mergeEnvelope_error v report header, copies, none_]
          rfl
      | ok m =>
          obtain ⟨i, ts⟩ := m
          have first : readable (env :: rest) = (i, ts, env) :: readable rest := by
            rw [readable, header]
          obtain ⟨v', report', step, after⟩ := v.mergeEnvelope_ok report header
          rw [mergeEnvelopes, step]
          simp only [ih, after, copies, first, List.filterMap_cons]
          by_cases same : i = id <;> simp [same]

/-- The first loop ends without an error exactly when every envelope is readable. -/
theorem mergeEnvelopes_ok_iff (v : LocalVault) (report : MergeReport) (envs : List ItemEnvelope) :
    (∃ r, (v.mergeEnvelopes report envs).2 = .ok r) ↔ AllReadable envs := by
  induction envs generalizing v report with
  | nil => exact ⟨fun _ => nofun, fun _ => ⟨report, rfl⟩⟩
  | cons env rest ih =>
      cases header : envelopeMeta env with
      | error e =>
          rw [mergeEnvelopes, mergeEnvelope_error v report header]
          refine ⟨nofun, fun all => ?_⟩
          obtain ⟨m, readable⟩ := all env List.mem_cons_self
          rw [header] at readable
          cases readable
      | ok m =>
          obtain ⟨v', report', step, -⟩ := v.mergeEnvelope_ok report header
          rw [mergeEnvelopes, step]
          simp only [ih, AllReadable, List.forall_mem_cons, header, Except.ok.injEq,
            exists_eq', true_and]

theorem entry_mergeTombstone (s : LocalVault × MergeReport) (t : ItemId × Int) (id : ItemId) :
    (mergeTombstone s t).1.entry id = if t.1 = id then bury (s.1.entry id) t.2
      else s.1.entry id := by
  obtain ⟨i, d⟩ := t
  unfold mergeTombstone
  simp only [updatedAt_entry]
  by_cases same : i = id
  · subst same
    rw [if_pos rfl]
    rcases held : s.1.entry i with - | ⟨l, old⟩ | d'
    · simp only [held, bury]
    · by_cases late : l ≤ d
      · simp only [if_pos late, entry_delete, if_true, bury]
      · simp only [if_neg late, held, bury]
    · simp only [held, bury]
  · rw [if_neg same]
    split
    · rfl
    · split
      · rw [entry_delete, if_neg same]
      · rfl

theorem entry_mergeTombstones (s : LocalVault × MergeReport) (tombstones : List (ItemId × Int))
    (id : ItemId) :
    (tombstones.foldl mergeTombstone s).1.entry id =
      (marks id tombstones).foldl bury (s.1.entry id) := by
  induction tombstones generalizing s with
  | nil => rfl
  | cons t rest ih =>
      rw [List.foldl_cons, ih, entry_mergeTombstone, marks, marks, List.filterMap_cons]
      by_cases same : t.1 = id <;> simp [same]

section Merge

variable {v : LocalVault} {remote : VaultDocument} {envs : List ItemEnvelope}

theorem merge_of_error {e : CoreError} (h : remote.envelopes = .error e) :
    v.merge remote = (v, .error e) := by
  rw [merge, h]

/-- A document whose envelopes are all readable. -/
theorem entry_merge (h : remote.envelopes = .ok envs) (all : AllReadable envs) (id : ItemId) :
    (v.merge remote).1.entry id =
      (marks id remote.tombstones).foldl bury ((copies id envs).foldl absorb (v.entry id)) := by
  obtain ⟨report, done⟩ := (v.mergeEnvelopes_ok_iff {} envs).mpr all
  have loop := v.entry_mergeEnvelopes {} envs id
  rw [merge, h]
  simp only
  split <;> rename_i eq
  · rw [eq] at done
    cases done
  · rw [eq] at loop
    rw [entry_mergeTombstones, loop]

/-- A document with an unreadable envelope: its tombstones are not looked at. -/
theorem entry_merge_of_unreadable (h : remote.envelopes = .ok envs) (bad : ¬ AllReadable envs)
    (id : ItemId) : (v.merge remote).1.entry id = (copies id envs).foldl absorb (v.entry id) := by
  have loop := v.entry_mergeEnvelopes {} envs id
  rw [merge, h]
  simp only
  split <;> rename_i eq
  · rw [eq] at loop
    exact loop
  · exact absurd ((v.mergeEnvelopes_ok_iff {} envs).mp ⟨_, by rw [eq]⟩) bad

end Merge

section Snapshot

variable (v : LocalVault)

theorem readable_map {rows : List ItemRow}
    (stamped : ∀ r ∈ rows, envelopeMeta r.envelope = .ok (r.id, r.updatedAt)) :
    readable (rows.map ItemRow.envelope) = rows.map fun r => (r.id, r.updatedAt, r.envelope) := by
  induction rows with
  | nil => rfl
  | cons r rest ih =>
      obtain ⟨here, there⟩ := List.forall_mem_cons.mp stamped
      rw [List.map_cons, readable, here, List.map_cons, ih there]

theorem stamped_of_mem {r : ItemRow} (mem : r ∈ v.items.rows) :
    envelopeMeta r.envelope = .ok (r.id, r.updatedAt) :=
  v.stamped r.id r (Table.find?_of_mem mem)

theorem stamped_sorted : ∀ r ∈ v.items.rows.insertionSort fun a b => b.updatedAt ≤ a.updatedAt,
    envelopeMeta r.envelope = .ok (r.id, r.updatedAt) := by
  intro r mem
  exact v.stamped_of_mem ((List.perm_insertionSort _ _).mem_iff.mp mem)

theorem allReadable_listEnvelopes : AllReadable v.listEnvelopes := by
  intro env mem
  obtain ⟨r, row, rfl⟩ := List.mem_map.mp mem
  exact ⟨_, v.stamped_sorted r row⟩

theorem copies_listEnvelopes (id : ItemId) :
    copies id v.listEnvelopes =
      (v.items.find? id).toList.map fun r => (r.updatedAt, r.envelope) := by
  have shape : ∀ rows : List ItemRow,
      (rows.map fun r => (r.id, r.updatedAt, r.envelope)).filterMap
        (fun x => if x.1 = id then some x.2 else none) =
      (rows.filter fun r => decide (r.id = id)).map fun r => (r.updatedAt, r.envelope) := by
    intro rows
    induction rows with
    | nil => rfl
    | cons r rest ih => by_cases same : r.id = id <;> simp [same, ih]
  have perm : (v.items.rows.insertionSort fun a b => b.updatedAt ≤ a.updatedAt).filter
      (fun r => decide (r.id = id)) = (v.items.find? id).toList := by
    have moved := (List.perm_insertionSort (fun a b : ItemRow => b.updatedAt ≤ a.updatedAt)
      v.items.rows).filter fun r => decide (r.id = id)
    rw [Table.filter_key_eq] at moved
    cases found : v.items.find? id with
    | none =>
        rw [found] at moved
        exact moved.eq_nil
    | some r =>
        rw [found] at moved
        exact List.perm_singleton.mp moved
  rw [copies, listEnvelopes, readable_map v.stamped_sorted, shape, perm]

theorem marks_tombstones (id : ItemId) :
    marks id (v.tombstones.rows.map fun t => (t.id, t.deletedAt)) =
      (v.tombstones.find? id).toList.map TombstoneRow.deletedAt := by
  rw [← Table.filter_key_eq, marks]
  induction v.tombstones.rows with
  | nil => rfl
  | cons t rest ih => by_cases same : t.id = id <;> simp [same, ih]

end Snapshot

end LocalVault

/-- What merging a snapshot makes of one entry, given the snapshot's. -/
def receive (mine : Option (Entry Int ItemEnvelope)) :
    Option (Entry Int ItemEnvelope) → Option (Entry Int ItemEnvelope)
  | none => mine
  | some (.item ts env) => absorb mine (ts, env)
  | some (.tombstone deletedAt) => bury mine deletedAt

/-- `merge(to_document())`, entry by entry. -/
theorem LocalVault.entry_merge_toDocument (v w : LocalVault) (id : ItemId) :
    (v.merge w.toDocument).1.entry id = receive (v.entry id) (w.entry id) := by
  rw [toDocument, entry_merge (VaultDocument.envelopes_fromEnvelopes _ _)
    w.allReadable_listEnvelopes, copies_listEnvelopes, VaultDocument.fromEnvelopes,
    marks_tombstones]
  have apart := w.exclusive id
  rw [entry.eq_def w]
  cases live : w.items.find? id with
  | some r =>
      rw [apart (by rw [live]; exact nofun)]
      rfl
  | none => cases w.tombstones.find? id <;> rfl

/-- An id for the concrete runs. -/
def sampleId : ItemId := ⟨List.replicate 16 7, rfl⟩

/-- Envelopes of that id; the store does not look behind the header. -/
def sampleEnvelope (updatedAt : Int) (body : UInt8) : ItemEnvelope :=
  ⟨itemHeader sampleId updatedAt ++ List.replicate 40 body⟩

end Sentinel.Vault
