import Sentinel.Vault.Stability

/-!
# What a failed merge leaves behind

`merge` decodes the base 64 of all envelopes before it writes, but it reads the header of an
envelope only in the round that stores it, and each of its statements commits on its own.
So an error in the middle leaves what the rounds before it did, and an error between the two
statements of `upsert` or `delete` leaves one of them.

The result is exact on both counts. When any statement may fail, a merge that ends with an
error is sure to have changed nothing only if it has nothing to write (`NothingToWrite`).
When no statement fails, the error is an envelope without a header, and nothing has changed
exactly if every envelope before it is covered by a row.
-/

namespace Sentinel.Vault

open Atomic Relational

theorem allReadable_cons {env : ItemEnvelope} {m : ItemId × Int}
    (header : envelopeMeta env = .ok m) {rest : List ItemEnvelope} :
    AllReadable (env :: rest) ↔ AllReadable rest := by
  rw [AllReadable, List.forall_mem_cons]
  exact and_iff_right ⟨m, header⟩

namespace Rows

/-- The store already holds, as it stands, every envelope that a merge would come to, none
of which has a tombstone beside it; and no tombstone of the document deletes anything. The
tombstone of the last envelope does not matter: after it nothing is left that can fail. -/
structure NothingToWrite (s : Rows) (envs : List ItemEnvelope)
    (tombstones : List (ItemId × Int)) : Prop where
  stored : ∀ x ∈ readable envs, s.items.find? x.1 = some ⟨x.1, x.2.2, x.2.1⟩
  clear : ∀ x ∈ readable envs.dropLast, s.tombstones.find? x.1 = none
  missed : AllReadable envs → ∀ t ∈ tombstones, ¬ s.Hits t

theorem nothingToWrite_bad {s : Rows} {env : ItemEnvelope} {rest : List ItemEnvelope}
    {tombstones : List (ItemId × Int)} {e : CoreError} (header : envelopeMeta env = .error e) :
    s.NothingToWrite (env :: rest) tombstones where
  stored := by simp [readable, header]
  clear := by cases rest <;> simp [readable, header]
  missed := by
    intro all
    obtain ⟨m, ok⟩ := all env List.mem_cons_self
    rw [header] at ok
    cases ok

theorem nothingToWrite_cons {s : Rows} {env : ItemEnvelope} {rest : List ItemEnvelope}
    {tombstones : List (ItemId × Int)} {id : ItemId} {ts : Int}
    (header : envelopeMeta env = .ok (id, ts)) :
    s.NothingToWrite (env :: rest) tombstones ↔
      s.items.find? id = some ⟨id, env, ts⟩ ∧ (rest = [] ∨ s.tombstones.find? id = none) ∧
        s.NothingToWrite rest tombstones := by
  have first : readable (env :: rest) = (id, ts, env) :: readable rest := by
    rw [readable, header]
  have all : AllReadable (env :: rest) ↔ AllReadable rest := allReadable_cons header
  constructor
  · rintro ⟨stored, clear, missed⟩
    rw [first, List.forall_mem_cons] at stored
    rw [all] at missed
    cases rest with
    | nil => exact ⟨stored.1, .inl rfl, ⟨stored.2, by simp [readable], missed⟩⟩
    | cons env' rest =>
        rw [List.dropLast_cons_cons, readable, header, List.forall_mem_cons] at clear
        exact ⟨stored.1, .inr clear.1, ⟨stored.2, clear.2, missed⟩⟩
  · rintro ⟨found, last, ⟨stored, clear, missed⟩⟩
    refine ⟨?_, ?_, fun h => missed (all.mp h)⟩
    · rw [first, List.forall_mem_cons]
      exact ⟨found, stored⟩
    · cases rest with
      | nil => simp [readable]
      | cons env' rest =>
          obtain none_ | absent := last
          · cases none_
          · rw [List.dropLast_cons_cons, readable, header, List.forall_mem_cons]
            exact ⟨absent, clear⟩

/-- Storing a row changes nothing exactly if it is there. -/
theorem insertItem_eq_iff {s : Rows} {row : ItemRow} :
    RowWrite.apply s (.insertItem row) = s ↔ s.items.find? row.id = some row := by
  constructor
  · intro same
    have found : (RowWrite.apply s (.insertItem row)).items.find? row.id = some row := by
      simp only [RowWrite.apply, Table.find?_insertOr, if_true]
      cases old : s.items.find? row.id with
      | none => rfl
      | some r =>
          have key : r.id = row.id := Table.key_of_find? old
          simp only [Option.elim_some, key]
    rwa [same] at found
  · intro found
    have kept : s.items.insertOr row
        (fun r => { r with envelope := row.envelope, updatedAt := row.updatedAt })
        (fun _ => rfl) = s.items := Table.insertOr_eq_self found (by simp)
    simp only [RowWrite.apply, kept]

theorem clearTombstone_eq_iff {s : Rows} {id : ItemId} :
    RowWrite.apply s (.clearTombstone id) = s ↔ s.tombstones.find? id = none := by
  constructor
  · intro same
    rw [← same, RowWrite.apply, Table.find?_deleteWhere, Option.filter_eq_none_iff]
    intro t found
    have key : t.id = id := Table.key_of_find? found
    simp [key]
  · intro absent
    have kept : s.tombstones.deleteWhere (fun t => decide (t.id = id)) = s.tombstones :=
      Table.deleteWhere_eq_self fun t mem => by
        have other := Table.find?_eq_none_iff.mp absent t mem
        simpa using other
    simp only [RowWrite.apply, kept]

theorem deleteItem_ne {s : Rows} {id : ItemId} {r : ItemRow} (found : s.items.find? id = some r) :
    RowWrite.apply s (.deleteItem id) ≠ s := by
  intro same
  have gone : (RowWrite.apply s (.deleteItem id)).items.find? id = none := by
    rw [RowWrite.apply, Table.find?_deleteWhere, Option.filter_eq_none_iff]
    intro x row
    have key : x.id = id := Table.key_of_find? row
    simp [key]
  rw [same, found] at gone
  cases gone

end Rows

namespace Statements

variable {α β : Type}

/-- Whatever statements fail, the answer and the tables satisfy `post`. -/
def Leaves (m : Action α) (post : Except CoreError α → Rows → Prop) (s : Rows) : Prop :=
  m.Always VaultStmt.exec (fun _ _ => True) (fun _ => post) s

section Leaves

variable {post : Except CoreError α → Rows → Prop} {postB : Except CoreError β → Rows → Prop}
variable {s : Rows}

@[simp] theorem leaves_pure (a : α) : Leaves (pure a) post s ↔ post (.ok a) s := Iff.rfl

@[simp] theorem leaves_bind (m : Action α) (f : α → Action β) :
    Leaves (m >>= f) postB s ↔ Leaves m (fun r s' => Leaves (Routine.andThen f r) postB s') s :=
  Routine.always_bind m f

@[simp] theorem leaves_ofExcept (x : Except CoreError α) :
    Leaves (Routine.ofExcept x) post s ↔ post x s := Iff.rfl

@[simp] theorem leaves_andThen_ok (f : α → Action β) (a : α) :
    Leaves (Routine.andThen f (.ok a)) postB s ↔ Leaves (f a) postB s := Iff.rfl

@[simp] theorem leaves_andThen_error (f : α → Action β) (e : CoreError) :
    Leaves (Routine.andThen f (.error e)) postB s ↔ postB (.error e) s := Iff.rfl

@[simp] theorem leaves_execute (w : RowWrite) {post : Except CoreError Unit → Rows → Prop} :
    Leaves (execute w) post s ↔
      (∀ e, post (.error (.storage e)) s) ∧ post (.ok ()) (w.apply s) := by
  constructor
  · exact fun h => ⟨fun e => (h (some e)).2, (h none).2⟩
  · rintro ⟨failed, done⟩ (- | e)
    · exact ⟨trivial, done⟩
    · exact ⟨trivial, failed e⟩

/-- A `SELECT` that fails is read as a missing row. -/
@[simp] theorem leaves_localTs (id : ItemId)
    {post : Except CoreError (Option Int) → Rows → Prop} :
    Leaves (localTs id) post s ↔
      post (.ok none) s ∧ post (.ok ((s.items.find? id).map ItemRow.updatedAt)) s := by
  have read : (s.selectUpdatedAt id).toOption = (s.items.find? id).map ItemRow.updatedAt := by
    unfold Rows.selectUpdatedAt
    cases s.items.find? id <;> rfl
  rw [← read]
  constructor
  · exact fun h => ⟨(h (some "")).2, (h none).2⟩
  · rintro ⟨failed, done⟩ (- | e)
    · exact ⟨trivial, done⟩
    · exact ⟨trivial, failed⟩

theorem Leaves.iff_feed {m : Action α} :
    Leaves m post s ↔ ∀ outcomes r, (Prog.feed VaultStmt.exec m outcomes s).1 = .done r →
      post r (Prog.feed VaultStmt.exec m outcomes s).2 :=
  Prog.always_iff_feed

end Leaves

/-- An error leaves the tables `s₀`; otherwise `P` holds of the answer. -/
def Ends (s₀ : Rows) (P : α → Rows → Prop) : Except CoreError α → Rows → Prop
  | .error _, s => s = s₀
  | .ok a, s => P a s

@[simp] theorem ends_error {s₀ : Rows} {P : α → Rows → Prop} (e : CoreError) (s : Rows) :
    Ends s₀ P (.error e) s ↔ s = s₀ := Iff.rfl

@[simp] theorem ends_ok {s₀ : Rows} {P : α → Rows → Prop} (a : α) (s : Rows) :
    Ends s₀ P (.ok a) s ↔ P a s := Iff.rfl

/-- What follows a step is reached with its answer only. -/
theorem ends_andThen {s₀ s : Rows} {f : α → Action β} {P : β → Rows → Prop}
    (r : Except CoreError α) : Leaves (Routine.andThen f r) (Ends s₀ P) s ↔
      Ends s₀ (fun a s' => Leaves (f a) (Ends s₀ P) s') r s := by
  cases r <;> rfl

section Merge

variable {s₀ s : Rows}

theorem leaves_upsert {post : Except CoreError Unit → Rows → Prop}
    {env : ItemEnvelope} {id : ItemId} {ts : Int} (header : envelopeMeta env = .ok (id, ts)) :
    Leaves (upsert env) post s ↔
      (∀ e, post (.error (.storage e)) s) ∧
      (∀ e, post (.error (.storage e)) (RowWrite.apply s (.insertItem ⟨id, env, ts⟩))) ∧
      post (.ok ()) (RowWrite.apply (RowWrite.apply s (.insertItem ⟨id, env, ts⟩))
        (.clearTombstone id)) := by
  simp [upsert, header]

/-- A round of the first loop: its `SELECT` may fail, so the envelope may be stored in any
case. It must be there already, and both ways to go on must do. -/
theorem leaves_mergeEnvelope {P : MergeReport → Rows → Prop} {report : MergeReport}
    {env : ItemEnvelope} {id : ItemId} {ts : Int} (header : envelopeMeta env = .ok (id, ts)) :
    Leaves (mergeEnvelope report env) (Ends s₀ P) s ↔
      s = s₀ ∧ s.items.find? id = some ⟨id, env, ts⟩ ∧
      P { report with added := report.added + 1 } (RowWrite.apply s (.clearTombstone id)) ∧
      P report s := by
  have unread : Leaves (takeEnvelope report env ts none) (Ends s₀ P) s ↔
      s = s₀ ∧ RowWrite.apply s (.insertItem ⟨id, env, ts⟩) = s₀ ∧
        P { report with added := report.added + 1 }
          (RowWrite.apply (RowWrite.apply s (.insertItem ⟨id, env, ts⟩)) (.clearTombstone id)) := by
    simp [takeEnvelope, leaves_upsert header]
  have round : Leaves (mergeEnvelope report env) (Ends s₀ P) s ↔
      Leaves (takeEnvelope report env ts none) (Ends s₀ P) s ∧
        Leaves (takeEnvelope report env ts ((s.items.find? id).map ItemRow.updatedAt))
          (Ends s₀ P) s := by
    simp [mergeEnvelope, header]
  have equal : Leaves (takeEnvelope report env ts (some ts)) (Ends s₀ P) s ↔ P report s := by
    simp [takeEnvelope]
  rw [round, unread]
  constructor
  · rintro ⟨⟨rfl, same, next⟩, read⟩
    have found := Rows.insertItem_eq_iff.mp same
    rw [found, Option.map_some, equal] at read
    rw [same] at next
    exact ⟨rfl, found, next, read⟩
  · rintro ⟨rfl, found, next, read⟩
    have same := (@Rows.insertItem_eq_iff _ ⟨id, env, ts⟩).mpr found
    rw [found, Option.map_some, equal, same]
    exact ⟨⟨rfl, rfl, next⟩, read⟩

theorem leaves_mergeEnvelope_bad {P : MergeReport → Rows → Prop} {report : MergeReport}
    {env : ItemEnvelope} {e : CoreError} (header : envelopeMeta env = .error e) :
    Leaves (mergeEnvelope report env) (Ends s₀ P) s ↔ s = s₀ := by
  simp [mergeEnvelope, header]

/-- The second loop: it may not delete anything, since the second statement of `delete` may
fail. -/
theorem leaves_mergeTombstones {tombstones : List (ItemId × Int)} {report : MergeReport} :
    Leaves (mergeTombstones report tombstones) (Ends s₀ fun _ _ => True) s ↔
      ∀ t ∈ tombstones, ¬ s.Hits t := by
  induction tombstones generalizing report with
  | nil => simp [mergeTombstones]
  | cons t rest ih =>
      rw [List.forall_mem_cons]
      have round : Leaves (mergeTombstones report (t :: rest)) (Ends s₀ fun _ _ => True) s ↔
          (∀ t ∈ rest, ¬ s.Hits t) ∧
          Leaves (applyTombstone report t ((s.items.find? t.1).map ItemRow.updatedAt))
            (fun r s' => Leaves (Routine.andThen (fun r => mergeTombstones r rest) r)
              (Ends s₀ fun _ _ => True) s') s := by
        simp [mergeTombstones, applyTombstone, ih]
      rw [round, and_comm]
      refine and_congr_left fun later => ?_
      cases found : s.items.find? t.1 with
      | none =>
          refine iff_of_true ?_ fun hit => ?_
          · simpa only [Option.map_none, applyTombstone, leaves_pure, leaves_andThen_ok, ih] using
              later
          · obtain ⟨r, row, -⟩ := hit
            rw [found] at row
            cases row
      | some r =>
          by_cases late : r.updatedAt ≤ t.2
          · refine iff_of_false ?_ fun miss => miss ⟨r, found, late⟩
            have changed := Rows.deleteItem_ne found
            simp only [Option.map_some, applyTombstone, if_pos late, delete, leaves_bind,
              leaves_execute, leaves_andThen_error, leaves_andThen_ok, ends_error, forall_const]
            rintro ⟨rfl, same, -⟩
            exact changed same
          · refine iff_of_true ?_ fun hit => ?_
            · simpa only [Option.map_some, applyTombstone, if_neg late, leaves_pure,
                leaves_andThen_ok, ih] using later
            · obtain ⟨r', row, hit⟩ := hit
              rw [found] at row
              cases row
              exact late hit

/-- Once the tables have changed, the next round can fail. -/
theorem leaves_mergeEnvelopes_changed (changed : s ≠ s₀) {P : MergeReport → Rows → Prop}
    {report : MergeReport} {envs : List ItemEnvelope} :
    Leaves (mergeEnvelopes report envs) (Ends s₀ P) s ↔ envs = [] ∧ P report s := by
  cases envs with
  | nil => simp [mergeEnvelopes]
  | cons env rest =>
      refine iff_of_false ?_ (by simp)
      simp only [mergeEnvelopes, leaves_bind, ends_andThen]
      cases header : envelopeMeta env with
      | error e =>
          rw [leaves_mergeEnvelope_bad header]
          exact changed
      | ok m =>
          rw [leaves_mergeEnvelope header]
          exact fun h => changed h.1

/-- The first loop on the tables it started from, before a second loop that must not
delete. -/
theorem leaves_mergeEnvelopes {report : MergeReport} {envs : List ItemEnvelope}
    {tombstones : List (ItemId × Int)} :
    Leaves (mergeEnvelopes report envs) (Ends s₀ fun _ s => ∀ t ∈ tombstones, ¬ s.Hits t) s₀ ↔
      s₀.NothingToWrite envs tombstones := by
  induction envs generalizing report with
  | nil =>
      refine Iff.trans ?_ ⟨fun missed => ⟨by simp [readable], by simp [readable], fun _ => missed⟩,
        fun h => h.missed (by simp [AllReadable])⟩
      simp [mergeEnvelopes]
  | cons env rest ih =>
      simp only [mergeEnvelopes, leaves_bind, ends_andThen]
      cases header : envelopeMeta env with
      | error e =>
          rw [leaves_mergeEnvelope_bad header]
          exact iff_of_true rfl (Rows.nothingToWrite_bad header)
      | ok m =>
          obtain ⟨id, ts⟩ := m
          rw [leaves_mergeEnvelope header, ih, Rows.nothingToWrite_cons header]
          have after : Leaves (mergeEnvelopes { report with added := report.added + 1 } rest)
              (Ends s₀ fun _ s => ∀ t ∈ tombstones, ¬ s.Hits t)
              (RowWrite.apply s₀ (.clearTombstone id)) ↔
                if s₀.tombstones.find? id = none then s₀.NothingToWrite rest tombstones
                else rest = [] ∧ ∀ t ∈ tombstones, ¬ s₀.Hits t := by
            split <;> rename_i absent
            · rw [Rows.clearTombstone_eq_iff.mpr absent, ih]
            · rw [leaves_mergeEnvelopes_changed (mt Rows.clearTombstone_eq_iff.mp absent)]
              exact Iff.rfl
          rw [after]
          split <;> rename_i absent
          · tauto
          · constructor
            · rintro ⟨-, found, ⟨none_, -⟩, later⟩
              exact ⟨found, .inl none_, later⟩
            · rintro ⟨found, none_ | absent', later⟩
              · exact ⟨rfl, found, ⟨none_, later.missed (by simp [none_, AllReadable])⟩, later⟩
              · exact absurd absent' absent

end Merge

end Statements

/-- A merge that ends with an error leaves the tables as they were, whichever statements
fail. -/
def MergeAtomic (s : Rows) (remote : VaultDocument) : Prop :=
  ∀ outcomes e, (Prog.feed VaultStmt.exec (Statements.merge remote) outcomes s).1 = .done (.error e) →
    (Prog.feed VaultStmt.exec (Statements.merge remote) outcomes s).2 = s

/-- The same when every statement works. -/
def MergeAtomicUnfailing (s : Rows) (remote : VaultDocument) : Prop :=
  ∀ e, (Statements.run (Statements.merge remote) s).1 = .error e →
    (Statements.run (Statements.merge remote) s).2 = s

namespace Statements

theorem mergeAtomic_iff_leaves (s : Rows) (remote : VaultDocument) :
    MergeAtomic s remote ↔ Leaves (merge remote) (Ends s fun _ _ => True) s := by
  rw [Leaves.iff_feed]
  constructor
  · rintro h outcomes (e | report) answered
    · exact h outcomes e answered
    · trivial
  · exact fun h outcomes e answered => h outcomes (.error e) answered

theorem mergeAtomic_iff (s : Rows) (remote : VaultDocument) :
    MergeAtomic s remote ↔
      ∀ envs, remote.envelopes = .ok envs → s.NothingToWrite envs remote.tombstones := by
  rw [mergeAtomic_iff_leaves]
  unfold merge
  cases remote.envelopes with
  | error e => simp
  | ok envs =>
      simp only [leaves_bind, leaves_ofExcept, leaves_andThen_ok, Except.ok.injEq, forall_eq']
      simp only [ends_andThen, leaves_mergeTombstones]
      exact leaves_mergeEnvelopes

variable {s : Rows}

/-- With every statement working, a round of the first loop covers its envelope and takes
the cover from none. -/
theorem run_mergeEnvelope_covers {env : ItemEnvelope} {id : ItemId} {ts : Int}
    (header : envelopeMeta env = .ok (id, ts)) (report : MergeReport) :
    ∃ report' s', run (mergeEnvelope report env) s = (.ok report', s') ∧ s'.Covers id ts ∧
      ∀ i t, s.Covers i t → s'.Covers i t := by
  have stored : (s.Covers id ts → False) → ∃ s', run (upsert env) s = (.ok (), s') ∧
      s'.Covers id ts ∧ ∀ i t, s.Covers i t → s'.Covers i t := by
    intro bare
    have rows : ∀ i, (RowWrite.apply (RowWrite.apply s (.insertItem ⟨id, env, ts⟩))
        (.clearTombstone id)).items.find? i =
          if id = i then some ⟨id, env, ts⟩ else s.items.find? i := by
      intro i
      simp only [RowWrite.apply, Table.find?_insertOr]
      split <;> rename_i same
      · subst same
        cases old : s.items.find? id with
        | none => rfl
        | some r =>
            have key : r.id = id := Table.key_of_find? old
            simp only [Option.elim_some, key]
      · rfl
    refine ⟨_, run_upsert_header s header, ⟨_, (rows id).trans (if_pos rfl), le_rfl⟩, ?_⟩
    rintro i t ⟨r, found, old⟩
    by_cases same : id = i
    · subst same
      refine ⟨_, (rows id).trans (if_pos rfl), ?_⟩
      by_contra above
      exact bare ⟨r, found, by simp only at above; omega⟩
    · exact ⟨r, (rows i).trans ((if_neg same).trans found), old⟩
  have round : run (mergeEnvelope report env) s =
      run (takeEnvelope report env ts ((s.items.find? id).map ItemRow.updatedAt)) s := by
    unfold mergeEnvelope
    rw [header, run_bind_ok (run_ofExcept _ _), run_bind_ok (run_localTs _ _)]
  rw [round]
  cases found : s.items.find? id with
  | none =>
      obtain ⟨s', done, covers⟩ := stored (by rintro ⟨r, row, -⟩; rw [found] at row; cases row)
      exact ⟨_, s', run_bind_ok done, covers⟩
  | some r =>
      simp only [Option.map_some, takeEnvelope]
      split <;> rename_i newer
      · obtain ⟨s', done, covers⟩ := stored (by
          rintro ⟨r', row, old⟩
          rw [found] at row
          cases row
          omega)
        exact ⟨_, s', run_bind_ok done, covers⟩
      · have covered : s.Covers id ts := ⟨r, found, not_lt.mp newer⟩
        split
        · exact ⟨_, s, rfl, covered, fun _ _ h => h⟩
        · exact ⟨_, s, rfl, covered, fun _ _ h => h⟩

/-- After the first loop every envelope it read is covered, and it ends with an error only
at an envelope without a header. -/
theorem run_mergeEnvelopes_covers (report : MergeReport) (envs : List ItemEnvelope) :
    (∀ i t, s.Covers i t → (run (mergeEnvelopes report envs) s).2.Covers i t) ∧
    (∀ x ∈ readable envs, (run (mergeEnvelopes report envs) s).2.Covers x.1 x.2.1) ∧
    ((∃ e, (run (mergeEnvelopes report envs) s).1 = .error e) ↔ ¬ AllReadable envs) := by
  induction envs generalizing s report with
  | nil => exact ⟨fun _ _ => id, by simp [readable], by simp [mergeEnvelopes, AllReadable]⟩
  | cons env rest ih =>
      rw [mergeEnvelopes]
      cases header : envelopeMeta env with
      | error e =>
          have bad : run (mergeEnvelope report env) s = (.error e, s) := by
            unfold mergeEnvelope
            rw [header]
            rfl
          rw [run_bind_error bad]
          refine ⟨fun _ _ => id, by simp [readable, header], ?_⟩
          simp [AllReadable, header]
      | ok m =>
          obtain ⟨report', s', done, here, kept⟩ := run_mergeEnvelope_covers (s := s) header report
          obtain ⟨later, read, ends⟩ := ih (s := s') report'
          rw [run_bind_ok done]
          refine ⟨fun i t covers => later i t (kept i t covers), ?_, ?_⟩
          · rw [readable, header, List.forall_mem_cons]
            exact ⟨later _ _ here, read⟩
          · rw [ends, allReadable_cons header]

/-- The second loop does not fail. -/
theorem run_mergeTombstones_ok (report : MergeReport) (tombstones : List (ItemId × Int)) :
    ∃ report', (run (mergeTombstones report tombstones) s).1 = .ok report' := by
  induction tombstones generalizing s report with
  | nil => exact ⟨report, rfl⟩
  | cons t rest ih =>
      have round : ∃ report' s', run (applyTombstone report t
          ((s.items.find? t.1).map ItemRow.updatedAt)) s = (.ok report', s') := by
        cases (s.items.find? t.1).map ItemRow.updatedAt with
        | none => exact ⟨_, _, rfl⟩
        | some l =>
            simp only [applyTombstone]
            split
            · exact ⟨_, _, rfl⟩
            · exact ⟨_, _, rfl⟩
      obtain ⟨report', s', done⟩ := round
      rw [mergeTombstones, run_bind_ok (run_localTs _ _), run_bind_ok done]
      exact ih report'

theorem mem_readable {envs : List ItemEnvelope} (all : AllReadable envs) {env : ItemEnvelope}
    (mem : env ∈ envs) {m : ItemId × Int} (header : envelopeMeta env = .ok m) :
    (m.1, m.2, env) ∈ readable envs := by
  induction envs with
  | nil => cases mem
  | cons env' rest ih =>
      obtain ⟨⟨m', header'⟩, later⟩ := List.forall_mem_cons.mp all
      rw [readable, header']
      obtain rfl | there := List.mem_cons.mp mem
      · rw [header] at header'
        cases header'
        exact List.mem_cons_self
      · exact List.mem_cons_of_mem _ (ih later there)

/-- The readable envelopes are the head of the document. -/
theorem readable_split {envs : List ItemEnvelope} (bad : ¬ AllReadable envs) :
    ∃ seen env rest e, envs = seen ++ env :: rest ∧ envelopeMeta env = .error e ∧
      readable envs = readable seen ∧ AllReadable seen := by
  induction envs with
  | nil => exact absurd (by simp [AllReadable]) bad
  | cons env rest ih =>
      cases header : envelopeMeta env with
      | error e =>
          exact ⟨[], env, rest, e, rfl, header, by simp [readable, header], by simp [AllReadable]⟩
      | ok m =>
          have later : ¬ AllReadable rest := by rwa [allReadable_cons header] at bad
          obtain ⟨seen, env', rest', e, cut, error, same, all⟩ := ih later
          refine ⟨env :: seen, env', rest', e, by rw [cut, List.cons_append], error, ?_, ?_⟩
          · rw [readable, header, readable, header, same]
          · exact List.forall_mem_cons.mpr ⟨⟨m, header⟩, all⟩

theorem mergeAtomicUnfailing_iff (s : Rows) (remote : VaultDocument) :
    MergeAtomicUnfailing s remote ↔ ∀ envs, remote.envelopes = .ok envs →
      AllReadable envs ∨ ∀ x ∈ readable envs, s.Covers x.1 x.2.1 := by
  unfold MergeAtomicUnfailing merge
  cases remote.envelopes with
  | error e => simp [run_bind]
  | ok envs =>
      rw [run_bind_ok (run_ofExcept _ _)]
      simp only [Except.ok.injEq, forall_eq']
      obtain ⟨-, covered, ends⟩ := run_mergeEnvelopes_covers (s := s) {} envs
      by_cases all : AllReadable envs
      · refine iff_of_true (fun e failed => ?_) (.inl all)
        cases loop : run (mergeEnvelopes {} envs) s with
        | mk answer s' =>
            cases answer with
            | error e => exact absurd all (ends.mp ⟨e, by rw [loop]⟩)
            | ok report =>
                obtain ⟨report', done⟩ :=
                  run_mergeTombstones_ok (s := s') report remote.tombstones
                rw [run_bind_ok loop, done] at failed
                cases failed
      · obtain ⟨e, failed⟩ := ends.mpr all
        have loop : run (mergeEnvelopes {} envs) s =
            (.error e, (run (mergeEnvelopes {} envs) s).2) := Prod.ext failed rfl
        rw [run_bind_error loop]
        simp only [all, false_or]
        constructor
        · intro same x mem
          have := covered x mem
          rwa [same e rfl] at this
        · intro covered e' _
          obtain ⟨seen, env, rest, e'', rfl, header, same, read⟩ := readable_split all
          rw [same] at covered
          obtain ⟨n, skip⟩ := @run_mergeEnvelopes_covered s seen (by
            intro env mem
            obtain ⟨m, header⟩ := read env mem
            exact ⟨m.1, m.2, header, covered (m.1, m.2, env) (mem_readable read mem header)⟩)
            {} (env :: rest)
          have bad : ∀ report, run (mergeEnvelope report env) s = (.error e'', s) := by
            intro report
            unfold mergeEnvelope
            rw [header]
            rfl
          rw [skip, mergeEnvelopes, run_bind_error (bad _)]

end Statements

/-- Exactly when a merge is atomic. If any statement may fail: when it has nothing to write.
If none fails: when all envelopes have a header, or those before the first that has none are
covered by the store. -/
theorem merge_atomic_iff (s : Rows) (remote : VaultDocument) :
    (MergeAtomic s remote ↔
      ∀ envs, remote.envelopes = .ok envs → s.NothingToWrite envs remote.tombstones) ∧
    (MergeAtomicUnfailing s remote ↔ ∀ envs, remote.envelopes = .ok envs →
      AllReadable envs ∨ ∀ x ∈ readable envs, s.Covers x.1 x.2.1) :=
  ⟨Statements.mergeAtomic_iff s remote, Statements.mergeAtomicUnfailing_iff s remote⟩

/-- A document whose second envelope is cut off. -/
def truncatedDocument : VaultDocument := .fromEnvelopes [sampleEnvelope 5 0, ⟨[1, 2, 3]⟩] []

/-- The first envelope is stored before the second one is found unreadable, though every
statement works. -/
theorem truncatedDocument_stores_first :
    ¬ MergeAtomic .empty truncatedDocument ∧ ¬ MergeAtomicUnfailing .empty truncatedDocument := by
  have decoded : truncatedDocument.envelopes = .ok [sampleEnvelope 5 0, ⟨[1, 2, 3]⟩] :=
    VaultDocument.envelopes_fromEnvelopes _ _
  have read : readable [sampleEnvelope 5 0, ⟨[1, 2, 3]⟩] = [(sampleId, 5, sampleEnvelope 5 0)] := by
    rw [readable, sampleEnvelope_five]
    rfl
  constructor
  · intro atomic
    have nothing := (Statements.mergeAtomic_iff _ _).mp atomic _ decoded
    have found := nothing.stored (sampleId, 5, sampleEnvelope 5 0) (by simp [read])
    cases found
  · intro atomic
    rcases (Statements.mergeAtomicUnfailing_iff _ _).mp atomic _ decoded with all | covered
    · obtain ⟨m, header⟩ := all ⟨[1, 2, 3]⟩ (by simp)
      cases header
    · obtain ⟨r, found, -⟩ := covered (sampleId, 5, sampleEnvelope 5 0) (by simp [read])
      cases found

end Sentinel.Vault
