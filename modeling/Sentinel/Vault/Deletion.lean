import Sentinel.Vault.Store

/-!
# What becomes of a deletion

`delete` leaves a tombstone, and the tombstone is what a sync should carry. But `merge`
looks for a local item only: an envelope of an id without one is taken, and `upsert` then
clears the tombstone. So a deletion lasts exactly as long as no operation brings a copy of
the id that is not deleted again by a tombstone of the same document. Where that tombstone is
older than the one it replaces, the deletion is weaker than before: a peer's copy of a time
in between survives it.
-/

namespace Sentinel.Vault

open Relational Lww

/-- An operation on a local vault. -/
inductive VaultOp where
  | upsert (env : ItemEnvelope)
  | delete (id : ItemId) (deletedAt : Int)
  | merge (remote : VaultDocument)

namespace VaultOp

/-- The store afterwards; a failed `upsert` changes nothing. -/
def apply (v : LocalVault) : VaultOp → LocalVault
  | upsert env => (v.upsert env).toOption.getD v
  | delete id deletedAt => v.delete id deletedAt
  | merge remote => (v.merge remote).1

/-- The operation brings no envelope of the id with a time after `t`. -/
def NotNewer (id : ItemId) (t : Int) : VaultOp → Prop
  | upsert env => ∀ ts, envelopeMeta env = .ok (id, ts) → ts ≤ t
  | delete _ _ => True
  | merge remote => ∀ envs, remote.envelopes = .ok envs → ∀ env ∈ envs, ∀ ts,
      envelopeMeta env = .ok (id, ts) → ts ≤ t

/-- The operation brings no copy of the id, or a document that can be read to its end and
whose first tombstone for the newest copy it brings is not older than `t`; and it does not
move the tombstone to a time before `t`. -/
def Spares (id : ItemId) (t : Int) : VaultOp → Prop
  | upsert env => ∀ ts, envelopeMeta env ≠ .ok (id, ts)
  | delete i deletedAt => i = id → t ≤ deletedAt
  | merge remote => ∀ envs, remote.envelopes = .ok envs → copies id envs = [] ∨
      (AllReadable envs ∧ ∃ d,
        (marks id remote.tombstones).find? (fun d => ∀ c ∈ copies id envs, c.1 ≤ d) = some d ∧
          t ≤ d)

end VaultOp

namespace LocalVault

/-- The store after a run of operations. -/
def run (v : LocalVault) (ops : List VaultOp) : LocalVault := ops.foldl VaultOp.apply v

/-- The id is absent from the items and the snapshot has a tombstone of it that is at least
as recent as `t`. -/
def Deleted (v : LocalVault) (id : ItemId) (t : Int) : Prop :=
  v.get id = none ∧ ∃ d, t ≤ d ∧ (id, d) ∈ v.toDocument.tombstones

theorem mem_toDocument_tombstones (v : LocalVault) (id : ItemId) (d : Int) :
    (id, d) ∈ v.toDocument.tombstones ↔ ∃ row, v.tombstones.find? id = some row ∧
      row.deletedAt = d := by
  constructor
  · intro mem
    obtain ⟨row, stored, eq⟩ := List.mem_map.mp mem
    cases eq
    exact ⟨row, Table.find?_of_mem stored, rfl⟩
  · rintro ⟨row, found, rfl⟩
    obtain rfl : row.id = id := Table.key_of_find? found
    exact List.mem_map.mpr ⟨row, Table.mem_of_find? found, rfl⟩

theorem deleted_iff (v : LocalVault) (id : ItemId) (t : Int) :
    v.Deleted id t ↔ ∃ d, t ≤ d ∧ v.entry id = some (.tombstone d) := by
  simp only [Deleted, mem_toDocument_tombstones]
  unfold get entry
  cases v.items.find? id with
  | some r => simp
  | none => cases v.tombstones.find? id <;> simp

end LocalVault

theorem absorb_item_le (l : Int) (env : ItemEnvelope) (c : Int × ItemEnvelope) :
    ∃ x, absorb (some (.item l env)) c = some (.item x.1 x.2) ∧ (x = (l, env) ∨ x = c) ∧
      l ≤ x.1 ∧ c.1 ≤ x.1 := by
  by_cases newer : l < c.1
  · exact ⟨c, if_pos newer, .inr rfl, newer.le, le_rfl⟩
  · exact ⟨(l, env), if_neg newer, .inl rfl, le_rfl, not_lt.mp newer⟩

/-- Absorbing keeps the newest of the item and the copies. -/
theorem foldl_absorb_item (l : Int) (env : ItemEnvelope) (cs : List (Int × ItemEnvelope)) :
    ∃ x ∈ (l, env) :: cs, cs.foldl absorb (some (.item l env)) = some (.item x.1 x.2) ∧
      ∀ c ∈ (l, env) :: cs, c.1 ≤ x.1 := by
  induction cs generalizing l env with
  | nil => exact ⟨(l, env), by simp, rfl, by simp⟩
  | cons c rest ih =>
      obtain ⟨y, step, which, base, first⟩ := absorb_item_le l env c
      obtain ⟨x, mem, final, top⟩ := ih y.1 y.2
      obtain ⟨above, later⟩ := List.forall_mem_cons.mp top
      have back : x ∈ (l, env) :: c :: rest := by
        rw [List.mem_cons] at mem
        rcases which with rfl | rfl <;> simp only [List.mem_cons] <;> tauto
      refine ⟨x, back, ?_, ?_⟩
      · rw [List.foldl_cons, step, final]
      · exact List.forall_mem_cons.mpr ⟨base.trans above,
          List.forall_mem_cons.mpr ⟨first.trans above, later⟩⟩

/-- Where there was a tombstone, the newest copy is live afterwards. -/
theorem foldl_absorb_tombstone (d : Int) {cs : List (Int × ItemEnvelope)} (some_ : cs ≠ []) :
    ∃ x ∈ cs, cs.foldl absorb (some (.tombstone d)) = some (.item x.1 x.2) ∧
      ∀ c ∈ cs, c.1 ≤ x.1 := by
  cases cs with
  | nil => exact absurd rfl some_
  | cons c rest => exact foldl_absorb_item c.1 c.2 rest

theorem foldl_bury_tombstone (d : Int) (ds : List Int) :
    ds.foldl bury (some (.tombstone d)) = some (.tombstone d) := by
  induction ds with
  | nil => rfl
  | cons e rest ih => exact ih

/-- A live item is deleted by the first tombstone that is not older. -/
theorem foldl_bury_item_iff (l : Int) (env : ItemEnvelope) (ds : List Int) (d : Int) :
    ds.foldl bury (some (.item l env)) = some (.tombstone d) ↔
      ds.find? (fun d => l ≤ d) = some d := by
  induction ds with
  | nil => simp
  | cons e rest ih =>
      rw [List.foldl_cons, bury]
      by_cases late : l ≤ e
      · simp [foldl_bury_tombstone, late]
      · simp [ih, late]

/-- Not older than the newest is not older than each. -/
theorem find?_newest {cs : List (Int × ItemEnvelope)} {x : Int × ItemEnvelope} (mem : x ∈ cs)
    (newest : ∀ c ∈ cs, c.1 ≤ x.1) (ds : List Int) :
    ds.find? (fun d => x.1 ≤ d) = ds.find? (fun d => ∀ c ∈ cs, c.1 ≤ d) := by
  refine congrArg (fun p => List.find? p ds) (funext fun d => decide_eq_decide.mpr ?_)
  constructor
  · exact fun late c copy => (newest c copy).trans late
  · exact fun late => late x mem

/-- Merging into a deleted id. -/
theorem merge_deleted_iff {v : LocalVault} {id : ItemId} {t : Int} (deleted : v.Deleted id t)
    (remote : VaultDocument) :
    (v.merge remote).1.Deleted id t ↔ (VaultOp.merge remote).Spares id t := by
  obtain ⟨d, recent, held⟩ := (v.deleted_iff id t).mp deleted
  rw [LocalVault.deleted_iff]
  cases decoded : remote.envelopes with
  | error e =>
      rw [LocalVault.merge_of_error decoded, held]
      refine iff_of_true ⟨d, recent, rfl⟩ fun envs eq => ?_
      rw [decoded] at eq
      cases eq
  | ok envs =>
      have spares : (VaultOp.merge remote).Spares id t ↔ copies id envs = [] ∨
          (AllReadable envs ∧ ∃ d, (marks id remote.tombstones).find?
            (fun d => ∀ c ∈ copies id envs, c.1 ≤ d) = some d ∧ t ≤ d) := by
        simp only [VaultOp.Spares, decoded, Except.ok.injEq, forall_eq']
      rw [spares]
      by_cases absent : copies id envs = []
      · refine iff_of_true ⟨d, recent, ?_⟩ (.inl absent)
        by_cases all : AllReadable envs
        · rw [LocalVault.entry_merge decoded all, absent, held, List.foldl_nil,
            foldl_bury_tombstone]
        · rw [LocalVault.entry_merge_of_unreadable decoded all, absent, held]
          rfl
      obtain ⟨x, mem, live, newest⟩ := foldl_absorb_tombstone d absent
      by_cases all : AllReadable envs
      · rw [LocalVault.entry_merge decoded all, held, live]
        simp only [foldl_bury_item_iff, find?_newest mem newest, absent, all, true_and, false_or,
          and_comm]
      · rw [LocalVault.entry_merge_of_unreadable decoded all, held, live]
        simp [absent, all]

/-- One operation on a deleted id. -/
theorem VaultOp.apply_deleted_iff {v : LocalVault} {id : ItemId} {t : Int}
    (deleted : v.Deleted id t) (op : VaultOp) : (op.apply v).Deleted id t ↔ op.Spares id t := by
  obtain ⟨d, recent, held⟩ := (v.deleted_iff id t).mp deleted
  cases op with
  | upsert env =>
      cases header : envelopeMeta env with
      | error e =>
          have unchanged : (VaultOp.upsert env).apply v = v := by
            rw [VaultOp.apply, LocalVault.upsert_error header]
            rfl
          rw [unchanged]
          refine iff_of_true deleted fun ts eq => ?_
          rw [header] at eq
          cases eq
      | ok m =>
          obtain ⟨i, ts⟩ := m
          have stored : (VaultOp.upsert env).apply v = v.put env i ts header := by
            rw [VaultOp.apply, LocalVault.upsert_ok header]
            rfl
          rw [stored, LocalVault.deleted_iff, LocalVault.entry_put]
          by_cases same : i = id
          · subst same
            simp [VaultOp.Spares, header]
          · simp [VaultOp.Spares, header, same, held, recent]
  | delete i deletedAt =>
      rw [VaultOp.apply, LocalVault.deleted_iff, LocalVault.entry_delete, VaultOp.Spares]
      by_cases same : i = id
      · simp [same]
      · simp [same, held, recent]
  | merge remote => exact merge_deleted_iff deleted remote

/-- A deleted id stays deleted through a run exactly when every operation spares it. -/
theorem LocalVault.run_deleted_iff {v : LocalVault} {id : ItemId} {t : Int}
    (deleted : v.Deleted id t) (ops : List VaultOp) :
    (∀ past rest, ops = past ++ rest → (v.run past).Deleted id t) ↔
      ∀ op ∈ ops, op.Spares id t := by
  induction ops generalizing v with
  | nil =>
      refine iff_of_true (fun past rest cut => ?_) nofun
      obtain ⟨rfl, -⟩ := List.append_eq_nil_iff.mp cut.symm
      exact deleted
  | cons op ops ih =>
      rw [List.forall_mem_cons]
      constructor
      · intro all
        have next : (op.apply v).Deleted id t := all [op] ops rfl
        refine ⟨(op.apply_deleted_iff deleted).mp next, (ih next).mp fun past rest cut => ?_⟩
        exact all (op :: past) rest (by rw [cut, List.cons_append])
      · rintro ⟨spares, later⟩ past rest cut
        have next := (op.apply_deleted_iff deleted).mpr spares
        cases past with
        | nil => exact deleted
        | cons p past =>
            rw [List.cons_append, List.cons.injEq] at cut
            obtain ⟨rfl, cut⟩ := cut
            exact (ih next).mpr later past rest cut

theorem LocalVault.deleted_delete (v : LocalVault) (id : ItemId) (t : Int) :
    (v.delete id t).Deleted id t := by
  rw [LocalVault.deleted_iff, LocalVault.entry_delete, if_pos rfl]
  exact ⟨t, le_rfl, rfl⟩

/-- The promise of a deletion at `t`: as long as no newer envelope of the id comes, it stays
absent, and a tombstone no older than `t` stays in the snapshot. -/
def DeletionSurvives (v : LocalVault) (id : ItemId) (t : Int) (ops : List VaultOp) : Prop :=
  (∀ op ∈ ops, op.NotNewer id t) →
    ∀ past rest, ops = past ++ rest → ((v.delete id t).run past).Deleted id t

/-- For every vault, every deletion and every run after it that brings nothing newer: the
promise is kept exactly when each operation of the run spares the id. -/
theorem deletionSurvives_iff (v : LocalVault) (id : ItemId) (t : Int) (ops : List VaultOp) :
    DeletionSurvives v id t ops ↔
      ((∀ op ∈ ops, op.NotNewer id t) → ∀ op ∈ ops, op.Spares id t) :=
  imp_congr_right fun _ => LocalVault.run_deleted_iff (v.deleted_delete id t) ops

theorem sampleEnvelope_five : envelopeMeta (sampleEnvelope 5 0) = .ok (sampleId, 5) :=
  envelopeMeta_header (by norm_num) (by norm_num) _

/-- What the server still holds: the copy from before the deletion. -/
def staleDocument : VaultDocument := .fromEnvelopes [sampleEnvelope 5 0] []

/-- The vault deletes the item at time 10 and then pulls the copy of time 5: it is back,
and the tombstone is gone. -/
theorem staleDocument_resurrects :
    ¬ DeletionSurvives (LocalVault.empty.put (sampleEnvelope 5 0) sampleId 5 sampleEnvelope_five)
      sampleId 10 [.merge staleDocument] := by
  have decoded : staleDocument.envelopes = .ok [sampleEnvelope 5 0] :=
    VaultDocument.envelopes_fromEnvelopes _ _
  have old : (VaultOp.merge staleDocument).NotNewer sampleId 10 := by
    intro envs eq env mem ts header
    rw [decoded] at eq
    cases eq
    rw [List.mem_singleton.mp mem, sampleEnvelope_five] at header
    cases header
    norm_num
  intro survives
  have deleted := survives (List.forall_mem_singleton.mpr old) [.merge staleDocument] [] rfl
  have spares := (merge_deleted_iff (LocalVault.deleted_delete _ sampleId 10)
    staleDocument).mp deleted
  have copy : copies sampleId [sampleEnvelope 5 0] = [(5, sampleEnvelope 5 0)] := by
    rw [copies, readable, sampleEnvelope_five]
    rfl
  rcases spares _ decoded with none_ | ⟨-, d, first, -⟩
  · rw [copy] at none_
    cases none_
  · cases first

end Sentinel.Vault
