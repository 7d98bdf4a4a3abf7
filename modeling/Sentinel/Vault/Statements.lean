import Sentinel.Lib.Fault
import Sentinel.Vault.Store

/-!
# The local vault, statement by statement

`LocalVault` gives each operation as one change of the two tables. On the database
`upsert` and `delete` are two statements each, `merge` is a loop of them, and no
transaction is around any: a statement that fails ends the operation after the statements
before it. Here the operations are routines over single statements, on rows of which
nothing is assumed.

An outcome says whether a statement works (`none`) or fails with a message. A `SELECT` that
fails is not an error of `merge`: `query_row(..).ok()` takes it for a missing row.

`run_upsert`, `run_delete` and `run_merge` connect the two: when no statement fails, the
routines do what the operations of `LocalVault` do.
-/

namespace Sentinel.Vault

open Atomic Relational

/-- The tables as a statement finds them. -/
structure Rows where
  items : Table ItemId ItemRow ItemRow.id
  tombstones : Table ItemId TombstoneRow TombstoneRow.id

/-- The statements that change a table. -/
inductive RowWrite where
  | insertItem (row : ItemRow)
  | clearTombstone (id : ItemId)
  | deleteItem (id : ItemId)
  | insertTombstone (row : TombstoneRow)

inductive VaultStmt where
  | selectUpdatedAt (id : ItemId)
  | write (w : RowWrite)

/-- What `rusqlite` returns. -/
def VaultStmt.Reply : VaultStmt → Type
  | selectUpdatedAt _ => Except String Int
  | write _ => Except String Unit

/-- A statement that works. The two `INSERT`s are upserts. -/
def RowWrite.apply (s : Rows) : RowWrite → Rows
  | insertItem row =>
      let items := s.items.insertOr row
        (fun r => { r with envelope := row.envelope, updatedAt := row.updatedAt }) fun _ => rfl
      { s with items }
  | clearTombstone id =>
      { s with tombstones := s.tombstones.deleteWhere fun t => decide (t.id = id) }
  | deleteItem id => { s with items := s.items.deleteWhere fun r => decide (r.id = id) }
  | insertTombstone row =>
      let tombstones := s.tombstones.insertOr row
        (fun t => { t with deletedAt := row.deletedAt }) fun _ => rfl
      { s with tombstones }

/-- `query_row`: no row is an error too. -/
def Rows.selectUpdatedAt (s : Rows) (id : ItemId) : Except String Int :=
  match s.items.find? id with
  | some r => .ok r.updatedAt
  | none => .error "Query returned no rows"

/-- One statement. A statement that fails changes nothing. -/
def VaultStmt.exec : (q : VaultStmt) → Option String → Rows → q.Reply × Rows
  | selectUpdatedAt _, some e, s => (.error e, s)
  | selectUpdatedAt id, none, s => (s.selectUpdatedAt id, s)
  | write _, some e, s => (.error e, s)
  | write w, none, s => (.ok (), w.apply s)

namespace Statements

abbrev Action := Routine VaultStmt VaultStmt.Reply CoreError

/-- `conn.execute`. -/
def write (w : RowWrite) : Action (Except String Unit) := Routine.call (VaultStmt.write w)

/-- `conn.execute(..)?`. -/
def execute (w : RowWrite) : Action Unit := do
  let done ← write w
  Routine.ofExcept (done.mapError .storage)

def upsert (env : ItemEnvelope) : Action Unit := do
  let m ← Routine.ofExcept (envelopeMeta env)
  execute (.insertItem ⟨m.1, env, m.2⟩)
  -- clear any tombstone for a resurrected id
  execute (.clearTombstone m.1)

def delete (id : ItemId) (deletedAt : Int) : Action Unit := do
  execute (.deleteItem id)
  execute (.insertTombstone ⟨id, deletedAt⟩)

/-- `conn.query_row`. -/
def queryRow (id : ItemId) : Action (Except String Int) :=
  Routine.call (VaultStmt.selectUpdatedAt id)

/-- `query_row(..).ok()`. -/
def localTs (id : ItemId) : Action (Option Int) := do
  let found ← queryRow id
  pure found.toOption

/-- One round of the first loop of `merge`, after the `SELECT`. -/
def takeEnvelope (report : MergeReport) (env : ItemEnvelope) (remoteTs : Int) :
    Option Int → Action MergeReport
  | none => do
      upsert env
      pure { report with added := report.added + 1 }
  | some l =>
      if l < remoteTs then do
        upsert env
        pure { report with updated := report.updated + 1 }
      else if remoteTs < l then
        -- local is newer; keep it
        pure { report with conflicts := report.conflicts + 1 }
      else pure report

def mergeEnvelope (report : MergeReport) (env : ItemEnvelope) : Action MergeReport := do
  let m ← Routine.ofExcept (envelopeMeta env)
  let l ← localTs m.1
  takeEnvelope report env m.2 l

def mergeEnvelopes : MergeReport → List ItemEnvelope → Action MergeReport
  | report, [] => pure report
  | report, env :: rest => do
      let report ← mergeEnvelope report env
      mergeEnvelopes report rest

/-- One round of the second loop, after the `SELECT`. -/
def applyTombstone (report : MergeReport) (t : ItemId × Int) : Option Int → Action MergeReport
  | none => pure report
  | some l =>
      if l ≤ t.2 then do
        delete t.1 t.2
        pure { report with deleted := report.deleted + 1 }
      else pure report

def mergeTombstones : MergeReport → List (ItemId × Int) → Action MergeReport
  | report, [] => pure report
  | report, t :: rest => do
      let l ← localTs t.1
      let report ← applyTombstone report t l
      mergeTombstones report rest

def merge (remote : VaultDocument) : Action MergeReport := do
  let envs ← Routine.ofExcept remote.envelopes
  let report ← mergeEnvelopes {} envs
  mergeTombstones report remote.tombstones

/-- All statements of a routine work. -/
def run {α : Type} (m : Action α) (s : Rows) : Except CoreError α × Rows :=
  Prog.run (fun q => q.exec none) m s

section Run

variable {α β : Type} (s : Rows)

@[simp] theorem run_pure (a : α) : run (pure a) s = (.ok a, s) := rfl

@[simp] theorem run_ofExcept (x : Except CoreError α) : run (Routine.ofExcept x) s = (x, s) := rfl

theorem run_bind (m : Action α) (f : α → Action β) :
    run (m >>= f) s =
      match run m s with
      | (.ok a, s') => run (f a) s'
      | (.error e, s') => (.error e, s') := by
  refine (Prog.run_bind _ m _ s).trans ?_
  unfold run
  rcases Prog.run (fun q => VaultStmt.exec q none) m s with ⟨e | a, s'⟩
  · rfl
  · rfl

theorem run_bind_ok {m : Action α} {f : α → Action β} {s s' : Rows} {a : α}
    (first : run m s = (.ok a, s')) : run (m >>= f) s = run (f a) s' := by
  rw [run_bind, first]

theorem run_bind_error {m : Action α} {f : α → Action β} {s s' : Rows} {e : CoreError}
    (first : run m s = (.error e, s')) : run (m >>= f) s = (.error e, s') := by
  rw [run_bind, first]

@[simp] theorem run_execute (w : RowWrite) : run (execute w) s = (.ok (), w.apply s) := rfl

@[simp] theorem run_localTs (id : ItemId) :
    run (localTs id) s = (.ok ((s.items.find? id).map ItemRow.updatedAt), s) := by
  have read : (s.selectUpdatedAt id).toOption = (s.items.find? id).map ItemRow.updatedAt := by
    unfold Rows.selectUpdatedAt
    cases s.items.find? id <;> rfl
  rw [← read]
  rfl

end Run

end Statements

/-- The rows of a store. -/
def LocalVault.rows (v : LocalVault) : Rows := ⟨v.items, v.tombstones⟩

namespace Statements

variable (v : LocalVault)

/-- `upsert` on the rows of a store. -/
theorem run_upsert_header (s : Rows) {env : ItemEnvelope} {id : ItemId} {ts : Int}
    (header : envelopeMeta env = .ok (id, ts)) :
    run (upsert env) s =
      (.ok (), RowWrite.apply (RowWrite.apply s (.insertItem ⟨id, env, ts⟩))
        (.clearTombstone id)) := by
  unfold upsert
  rw [header]
  rfl

theorem run_upsert_bad (s : Rows) {env : ItemEnvelope} {e : CoreError}
    (header : envelopeMeta env = .error e) : run (upsert env) s = (.error e, s) := by
  unfold upsert
  rw [header]
  rfl

theorem run_upsert (env : ItemEnvelope) :
    run (upsert env) v.rows =
      ((v.upsert env).map fun _ => (), ((v.upsert env).toOption.getD v).rows) := by
  cases header : envelopeMeta env with
  | error e =>
      rw [run_upsert_bad _ header, LocalVault.upsert_error header]
      rfl
  | ok m =>
      rw [run_upsert_header _ header, LocalVault.upsert_ok header]
      rfl

theorem run_delete (id : ItemId) (deletedAt : Int) :
    run (delete id deletedAt) v.rows = (.ok (), (v.delete id deletedAt).rows) := rfl

theorem run_mergeEnvelope (report : MergeReport) (env : ItemEnvelope) :
    run (mergeEnvelope report env) v.rows =
      match v.mergeEnvelope report env with
      | .error e => (.error e, v.rows)
      | .ok (v', report') => (.ok report', v'.rows) := by
  unfold mergeEnvelope LocalVault.mergeEnvelope
  cases header : envelopeMeta env with
  | error e => rfl
  | ok m =>
      obtain ⟨id, ts⟩ := m
      have stored := run_upsert v env
      rw [LocalVault.upsert_ok header] at stored
      rw [run_bind_ok (run_ofExcept _ _), run_bind_ok (run_localTs _ _)]
      simp only [bind, Except.bind, LocalVault.upsert_ok header, pure, Except.pure]
      cases found : (v.items.find? id).map ItemRow.updatedAt with
      | none =>
          simp only [LocalVault.rows, found, takeEnvelope]
          exact run_bind_ok stored
      | some l =>
          simp only [LocalVault.rows, found, takeEnvelope]
          by_cases newer : l < ts
          · simp only [if_pos newer]
            exact run_bind_ok stored
          · simp only [if_neg newer]
            by_cases older : ts < l
            · simp only [if_pos older]
              rfl
            · simp only [if_neg older]
              rfl

theorem run_mergeEnvelopes (report : MergeReport) (envs : List ItemEnvelope) :
    run (mergeEnvelopes report envs) v.rows =
      ((v.mergeEnvelopes report envs).2, (v.mergeEnvelopes report envs).1.rows) := by
  induction envs generalizing v report with
  | nil => rfl
  | cons env rest ih =>
      have round := run_mergeEnvelope v report env
      rw [mergeEnvelopes, LocalVault.mergeEnvelopes]
      cases step : v.mergeEnvelope report env with
      | error e =>
          rw [step] at round
          exact run_bind_error round
      | ok next =>
          rw [step] at round
          rw [run_bind_ok round]
          exact ih next.1 next.2

theorem run_mergeTombstones (report : MergeReport) (tombstones : List (ItemId × Int)) :
    run (mergeTombstones report tombstones) v.rows =
      (.ok (tombstones.foldl LocalVault.mergeTombstone (v, report)).2,
        (tombstones.foldl LocalVault.mergeTombstone (v, report)).1.rows) := by
  induction tombstones generalizing v report with
  | nil => rfl
  | cons t rest ih =>
      have round : run (applyTombstone report t ((v.items.find? t.1).map ItemRow.updatedAt)) v.rows =
          (.ok (LocalVault.mergeTombstone (v, report) t).2,
            (LocalVault.mergeTombstone (v, report) t).1.rows) := by
        unfold applyTombstone LocalVault.mergeTombstone
        cases (v.items.find? t.1).map ItemRow.updatedAt with
        | none => rfl
        | some l =>
            by_cases late : l ≤ t.2
            · simp only [if_pos late]
              exact run_bind_ok (run_delete v t.1 t.2)
            · simp only [if_neg late]
              rfl
      rw [mergeTombstones, run_bind_ok (run_localTs _ _), List.foldl_cons]
      exact (run_bind_ok round).trans (ih _ _)

/-- `merge` on the rows of a store. -/
theorem run_merge (remote : VaultDocument) :
    run (merge remote) v.rows = ((v.merge remote).2, (v.merge remote).1.rows) := by
  unfold merge LocalVault.merge
  cases remote.envelopes with
  | error e => rfl
  | ok envs =>
      have loop := run_mergeEnvelopes v {} envs
      rw [run_bind_ok (run_ofExcept _ _)]
      simp only
      generalize v.mergeEnvelopes {} envs = looped at loop ⊢
      rcases looped with ⟨v', e | report⟩
      · exact run_bind_error loop
      · rw [run_bind_ok loop]
        exact run_mergeTombstones v' report remote.tombstones

end Statements

end Sentinel.Vault
