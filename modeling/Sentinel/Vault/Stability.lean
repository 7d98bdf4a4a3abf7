import Sentinel.Vault.Deletion
import Sentinel.Vault.Merge
import Sentinel.Vault.Statements

/-!
# What every run of the local store keeps

The tables that `upsert`, `delete` and the merges of other stores' snapshots can make, as
the statements make them: they are the rows of a `LocalVault`, so no id is in both tables
and every item row repeats the header of its envelope.

Merging is stable on such tables. After a merge every envelope of the snapshot is covered
by a row that is at least as new, and no tombstone of the snapshot hits a live row, since
the sender never has a tombstone beside an item; a second merge of the same snapshot then
writes nothing (`run_merge_settled`).
-/

namespace Sentinel.Vault

open Atomic Relational Lww

namespace Rows

/-- The tables of a new file. -/
def empty : Rows := ⟨Table.empty, Table.empty⟩

/-- `list_envelopes`: newest first. -/
def listEnvelopes (s : Rows) : List ItemEnvelope :=
  (s.items.rows.insertionSort fun a b => b.updatedAt ≤ a.updatedAt).map ItemRow.envelope

def toDocument (s : Rows) : VaultDocument :=
  .fromEnvelopes s.listEnvelopes (s.tombstones.rows.map fun t => (t.id, t.deletedAt))

/-- No id is in both tables, and a row repeats the header of its envelope. -/
structure WellFormed (s : Rows) : Prop where
  disjoint : ∀ r ∈ s.items.rows, ∀ t ∈ s.tombstones.rows, r.id ≠ t.id
  stamped : ∀ r ∈ s.items.rows, envelopeMeta r.envelope = .ok (r.id, r.updatedAt)

/-- The tables that runs of the three operations make, from a new file on. -/
inductive Reachable : Rows → Prop where
  | empty : Reachable empty
  | upsert {s : Rows} (env : ItemEnvelope) :
      Reachable s → Reachable (Statements.run (Statements.upsert env) s).2
  | delete {s : Rows} (id : ItemId) (deletedAt : Int) :
      Reachable s → Reachable (Statements.run (Statements.delete id deletedAt) s).2
  | merge {s t : Rows} :
      Reachable s → Reachable t → Reachable (Statements.run (Statements.merge t.toDocument) s).2

/-- The tables of a run are those of a store. -/
theorem Reachable.vault {s : Rows} (h : Reachable s) : ∃ v : LocalVault, v.rows = s := by
  induction h with
  | empty => exact ⟨.empty, rfl⟩
  | upsert env _ ih =>
      obtain ⟨v, rfl⟩ := ih
      rw [Statements.run_upsert]
      exact ⟨_, rfl⟩
  | delete id deletedAt _ ih =>
      obtain ⟨v, rfl⟩ := ih
      rw [Statements.run_delete]
      exact ⟨_, rfl⟩
  | merge _ _ ih _ =>
      obtain ⟨v, rfl⟩ := ih
      rw [Statements.run_merge]
      exact ⟨_, rfl⟩

/-- A row at least as new as `ts` stands for the id. -/
def Covers (s : Rows) (id : ItemId) (ts : Int) : Prop :=
  ∃ r, s.items.find? id = some r ∧ ts ≤ r.updatedAt

/-- The tombstone deletes a live row. -/
def Hits (s : Rows) (t : ItemId × Int) : Prop :=
  ∃ r, s.items.find? t.1 = some r ∧ r.updatedAt ≤ t.2

end Rows

theorem LocalVault.wellFormed_rows (v : LocalVault) : v.rows.WellFormed where
  disjoint := by
    intro r row t mark same
    have live : v.items.find? r.id = some r := Table.find?_of_mem row
    have buried : v.tombstones.find? t.id = some t := Table.find?_of_mem mark
    have gone := v.exclusive r.id (by simp [live])
    rw [same, buried] at gone
    cases gone
  stamped := fun _ row => v.stamped_of_mem row

namespace Statements

variable {s : Rows}

/-- Covered envelopes at the head of a document cost conflicts at most. -/
theorem run_mergeEnvelopes_covered {seen : List ItemEnvelope}
    (covered : ∀ env ∈ seen, ∃ id ts, envelopeMeta env = .ok (id, ts) ∧ s.Covers id ts)
    (report : MergeReport) (rest : List ItemEnvelope) :
    ∃ n, run (mergeEnvelopes report (seen ++ rest)) s =
      run (mergeEnvelopes { report with conflicts := report.conflicts + n } rest) s := by
  induction seen generalizing report with
  | nil => exact ⟨0, rfl⟩
  | cons env seen ih =>
      obtain ⟨⟨id, ts, header, r, found, old⟩, later⟩ := List.forall_mem_cons.mp covered
      have round : ∃ n, run (mergeEnvelope report env) s =
          (.ok { report with conflicts := report.conflicts + n }, s) := by
        unfold mergeEnvelope
        rw [header, run_bind_ok (run_ofExcept _ _), run_bind_ok (run_localTs _ _), found]
        simp only [Option.map_some, takeEnvelope, if_neg (not_lt.mpr old)]
        split
        · exact ⟨1, rfl⟩
        · exact ⟨0, rfl⟩
      obtain ⟨n, round⟩ := round
      obtain ⟨k, loop⟩ := ih later { report with conflicts := report.conflicts + n }
      refine ⟨n + k, ?_⟩
      rw [List.cons_append, mergeEnvelopes, run_bind_ok round, loop, Nat.add_assoc]

/-- Tombstones that hit nothing. -/
theorem run_mergeTombstones_missed {tombstones : List (ItemId × Int)}
    (missed : ∀ t ∈ tombstones, ¬ s.Hits t) (report : MergeReport) :
    run (mergeTombstones report tombstones) s = (.ok report, s) := by
  induction tombstones with
  | nil => rfl
  | cons t rest ih =>
      obtain ⟨miss, later⟩ := List.forall_mem_cons.mp missed
      have round : run (applyTombstone report t ((s.items.find? t.1).map ItemRow.updatedAt)) s =
          (.ok report, s) := by
        cases found : s.items.find? t.1 with
        | none => rfl
        | some r =>
            have newer : ¬ r.updatedAt ≤ t.2 := fun late => miss ⟨r, found, late⟩
            simp only [Option.map_some, applyTombstone, if_neg newer]
            rfl
      rw [mergeTombstones, run_bind_ok (run_localTs _ _), run_bind_ok round]
      exact ih later

/-- A document with nothing to write: the tables stay, and only conflicts are reported. -/
theorem run_merge_settled {remote : VaultDocument} {envs : List ItemEnvelope}
    (decoded : remote.envelopes = .ok envs)
    (covered : ∀ env ∈ envs, ∃ id ts, envelopeMeta env = .ok (id, ts) ∧ s.Covers id ts)
    (missed : ∀ t ∈ remote.tombstones, ¬ s.Hits t) :
    ∃ n, run (merge remote) s = (.ok { conflicts := n }, s) := by
  obtain ⟨n, loop⟩ := run_mergeEnvelopes_covered covered {} []
  rw [List.append_nil, mergeEnvelopes, run_pure, Nat.zero_add] at loop
  refine ⟨n, ?_⟩
  unfold merge
  rw [decoded, run_bind_ok (run_ofExcept _ _), run_bind_ok loop]
  exact run_mergeTombstones_missed missed _

end Statements

namespace LocalVault

theorem entry_of_item {v : LocalVault} {id : ItemId} {r : ItemRow}
    (found : v.items.find? id = some r) : v.entry id = some (.item r.updatedAt r.envelope) := by
  unfold entry
  rw [found]

theorem entry_of_tombstone {v : LocalVault} {id : ItemId} {t : TombstoneRow}
    (found : v.tombstones.find? id = some t) : v.entry id = some (.tombstone t.deletedAt) := by
  unfold entry
  cases live : v.items.find? id with
  | none => rw [found]; rfl
  | some r =>
      rw [v.exclusive id (by simp [live])] at found
      cases found

theorem item_of_entry {v : LocalVault} {id : ItemId} {ts : Int} {env : ItemEnvelope}
    (held : v.entry id = some (.item ts env)) :
    ∃ r, v.items.find? id = some r ∧ r.updatedAt = ts := by
  unfold entry at held
  cases found : v.items.find? id with
  | none =>
      rw [found] at held
      cases mark : v.tombstones.find? id <;> rw [mark] at held <;> cases held
  | some r =>
      rw [found] at held
      cases held
      exact ⟨r, rfl, rfl⟩

/-- A snapshot that has been merged finds nothing to write any more. -/
theorem merged_settled (v w : LocalVault) :
    (∀ env ∈ w.listEnvelopes, ∃ id ts, envelopeMeta env = .ok (id, ts) ∧
        (v.merge w.toDocument).1.rows.Covers id ts) ∧
      ∀ t ∈ w.toDocument.tombstones, ¬ (v.merge w.toDocument).1.rows.Hits t := by
  constructor
  · intro env mem
    obtain ⟨r, row, rfl⟩ := List.mem_map.mp mem
    have row := (List.perm_insertionSort _ _).mem_iff.mp row
    refine ⟨r.id, r.updatedAt, w.stamped_of_mem row, ?_⟩
    have sent := entry_of_item (Table.find?_of_mem row)
    have held := v.entry_merge_toDocument w r.id
    rw [sent, receive] at held
    rcases mine : v.entry r.id with - | ⟨l, old⟩ | d
    · rw [mine] at held
      obtain ⟨r', found, same⟩ := item_of_entry held
      exact ⟨r', found, same.ge⟩
    · obtain ⟨x, now, -, -, newer⟩ := absorb_item_le l old (r.updatedAt, r.envelope)
      rw [mine, now] at held
      obtain ⟨r', found, same⟩ := item_of_entry held
      exact ⟨r', found, newer.trans same.ge⟩
    · rw [mine] at held
      obtain ⟨r', found, same⟩ := item_of_entry held
      exact ⟨r', found, same.ge⟩
  · rintro t mem ⟨r, found, late⟩
    obtain ⟨mark, row, rfl⟩ := List.mem_map.mp mem
    have sent := entry_of_tombstone (Table.find?_of_mem row)
    have held := v.entry_merge_toDocument w mark.id
    rw [sent, receive, entry_of_item found] at held
    rcases mine : v.entry mark.id with - | ⟨l, old⟩ | d
    · rw [mine] at held
      cases held
    · rw [mine, bury] at held
      split at held
      · cases held
      · rename_i newer
        cases held
        exact newer late
    · rw [mine] at held
      cases held

/-- An item that is live before and after a merge of any document is not set back. -/
theorem updatedAt_le_merge (v : LocalVault) (remote : VaultDocument) {id : ItemId}
    {r r' : ItemRow} (before : v.items.find? id = some r)
    (after : (v.merge remote).1.items.find? id = some r') : r.updatedAt ≤ r'.updatedAt := by
  have mine := entry_of_item before
  have now := entry_of_item after
  cases decoded : remote.envelopes with
  | error e =>
      rw [merge_of_error decoded, before] at after
      cases after
      exact le_rfl
  | ok envs =>
      obtain ⟨x, -, absorbed, newest⟩ :=
        foldl_absorb_item r.updatedAt r.envelope (copies id envs)
      have above : r.updatedAt ≤ x.1 := newest _ List.mem_cons_self
      by_cases all : AllReadable envs
      · rw [entry_merge decoded all, mine, absorbed] at now
        rw [LocalVault.foldl_bury_item] at now
        split at now
        · cases now
        · obtain ⟨same, -⟩ : x.1 = r'.updatedAt ∧ x.2 = r'.envelope := by simpa using now
          exact above.trans same.le
      · rw [entry_merge_of_unreadable decoded all, mine, absorbed] at now
        obtain ⟨same, -⟩ : x.1 = r'.updatedAt ∧ x.2 = r'.envelope := by simpa using now
        exact above.trans same.le

end LocalVault

/-- Every run keeps the tables well formed. Merging the snapshot of another run twice is
merging it once, with nothing added, updated or deleted the second time; and no merge sets
back an item that survives it. -/
theorem Rows.Reachable.stable {a b : Rows} (left : a.Reachable) (right : b.Reachable) :
    a.WellFormed ∧
      (∃ a' first second, Statements.run (Statements.merge b.toDocument) a = (.ok first, a') ∧
        Statements.run (Statements.merge b.toDocument) a' = (.ok second, a') ∧
        second.added = 0 ∧ second.updated = 0 ∧ second.deleted = 0) ∧
      ∀ remote id r r', a.items.find? id = some r →
        (Statements.run (Statements.merge remote) a).2.items.find? id = some r' →
        r.updatedAt ≤ r'.updatedAt := by
  obtain ⟨v, rfl⟩ := left.vault
  obtain ⟨w, rfl⟩ := right.vault
  refine ⟨v.wellFormed_rows, ?_, ?_⟩
  · have decoded : w.toDocument.envelopes = .ok w.listEnvelopes :=
      VaultDocument.envelopes_fromEnvelopes _ _
    obtain ⟨report, merged, -⟩ :=
      LocalVault.merge_lastWriterWins (v := v) decoded w.allReadable_listEnvelopes
    obtain ⟨covered, missed⟩ := v.merged_settled w
    obtain ⟨n, again⟩ := Statements.run_merge_settled decoded covered missed
    have once := Statements.run_merge v w.toDocument
    rw [merged] at once
    exact ⟨_, report, _, once, again, rfl, rfl, rfl⟩
  · intro remote id r r' before after
    rw [Statements.run_merge] at after
    exact v.updatedAt_le_merge remote before after

/-- The tables after one `upsert`. -/
def upserted (updatedAt : Int) (body : UInt8) : Rows :=
  (Statements.run (Statements.upsert (sampleEnvelope updatedAt body)) .empty).2

/-- A newer copy of the item, merged twice. -/
theorem stable_upserted : (upserted 5 0).WellFormed ∧
    (∃ a' first second,
      Statements.run (Statements.merge (upserted 9 1).toDocument) (upserted 5 0) = (.ok first, a') ∧
      Statements.run (Statements.merge (upserted 9 1).toDocument) a' = (.ok second, a') ∧
      second.added = 0 ∧ second.updated = 0 ∧ second.deleted = 0) ∧
    ∀ remote id r r', (upserted 5 0).items.find? id = some r →
      (Statements.run (Statements.merge remote) (upserted 5 0)).2.items.find? id = some r' →
      r.updatedAt ≤ r'.updatedAt :=
  Rows.Reachable.stable (.upsert _ .empty) (.upsert _ .empty)

end Sentinel.Vault
