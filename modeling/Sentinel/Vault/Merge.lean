import Mathlib
import Sentinel.Vault.Store

/-!
# The merge as a last-writer-wins rule

`LocalVault::merge` runs two loops of single-row statements that see each other's effects.
Here the result is given in closed form, id by id: the copies of an id are the local one and
then those of the document in its order (`LocalVault.sequence`), the winner is the first of
maximal `updated_at` (`LocalVault.winner`), and the first tombstone at least as recent as the
winner deletes it. The counters of the report count arrivals: an envelope, or a tombstone,
together with what the document lists before it.
-/

namespace Sentinel.Vault

open Relational Lww

/-- The elements of a list, each with what has come before it. -/
def arrivalsAfter {α : Type} : List α → List α → List (List α × α)
  | _, [] => []
  | before, x :: rest => (before, x) :: arrivalsAfter (before ++ [x]) rest

/-- The elements of a list, each with those before it. -/
def arrivals {α : Type} (l : List α) : List (List α × α) := arrivalsAfter [] l

@[simp] theorem arrivals_nil {α : Type} : arrivals ([] : List α) = [] := rfl

theorem arrivalsAfter_concat {α : Type} (before l : List α) (x : α) :
    arrivalsAfter before (l ++ [x]) = arrivalsAfter before l ++ [(before ++ l, x)] := by
  induction l generalizing before with
  | nil => simp [arrivalsAfter]
  | cons y rest ih => simp [arrivalsAfter, ih]

theorem arrivals_concat {α : Type} (l : List α) (x : α) :
    arrivals (l ++ [x]) = arrivals l ++ [(l, x)] := arrivalsAfter_concat [] l x

namespace LocalVault

/-- The copies of an id: the local one, then those of the document in its order. -/
def sequence (v : LocalVault) (envs : List ItemEnvelope) (id : ItemId) :
    List (Int × ItemEnvelope) :=
  ((v.items.find? id).toList.map fun r => (r.updatedAt, r.envelope)) ++ copies id envs

/-- The first copy of maximal `updated_at`. -/
def winner (v : LocalVault) (envs : List ItemEnvelope) (id : ItemId) :
    Option (Int × ItemEnvelope) :=
  @List.argmax _ _ Int.instLinearOrder.toPreorder _ Prod.fst (v.sequence envs id)

/-- The arriving envelope is one of this id and newer than every copy before it. -/
def Stores (v : LocalVault) (id : ItemId) (a : List ItemEnvelope × ItemEnvelope) : Prop :=
  ∃ ts, envelopeMeta a.2 = .ok (id, ts) ∧ ∀ c ∈ v.sequence a.1 id, c.1 < ts

/-- It is the first copy of its id. -/
def adds (v : LocalVault) (a : List ItemEnvelope × ItemEnvelope) : Bool :=
  match envelopeMeta a.2 with
  | .ok (id, _) => (v.sequence a.1 id).isEmpty
  | .error _ => false

/-- It is newer than every copy before it, and there is one. -/
def updates (v : LocalVault) (a : List ItemEnvelope × ItemEnvelope) : Bool :=
  match envelopeMeta a.2 with
  | .ok (id, ts) => !(v.sequence a.1 id).isEmpty && (v.sequence a.1 id).all fun c => c.1 < ts
  | .error _ => false

/-- A copy before it is newer. -/
def conflicts (v : LocalVault) (a : List ItemEnvelope × ItemEnvelope) : Bool :=
  match envelopeMeta a.2 with
  | .ok (id, ts) => (v.sequence a.1 id).any fun c => ts < c.1
  | .error _ => false

/-- The arriving tombstone is the first of its id that is at least as recent as the
winner. -/
def deletes (v : LocalVault) (envs : List ItemEnvelope) (a : List (ItemId × Int) × (ItemId × Int)) :
    Bool :=
  match v.winner envs a.2.1 with
  | some w => decide (w.1 ≤ a.2.2) && (marks a.2.1 a.1).all fun d => d < w.1
  | none => false

/-! ## The rows behind an entry -/

theorem entry_eq_item_iff (v : LocalVault) (id : ItemId) (ts : Int) (env : ItemEnvelope) :
    v.entry id = some (.item ts env) ↔ v.items.find? id = some ⟨id, env, ts⟩ := by
  unfold entry
  cases found : v.items.find? id with
  | none => cases v.tombstones.find? id <;> simp
  | some r =>
      have key : r.id = id := Table.key_of_find? found
      obtain ⟨i, env', ts'⟩ := r
      cases key
      simp [and_comm]

theorem entry_eq_tombstone_iff (v : LocalVault) (id : ItemId) (d : Int) :
    v.entry id = some (.tombstone d) ↔
      v.items.find? id = none ∧ v.tombstones.find? id = some ⟨id, d⟩ := by
  unfold entry
  cases v.items.find? id with
  | some r => simp
  | none =>
      cases found : v.tombstones.find? id with
      | none => simp
      | some t =>
          have key : t.id = id := Table.key_of_find? found
          obtain ⟨i, d'⟩ := t
          cases key
          simp

theorem items_of_entry_item {v : LocalVault} {id : ItemId} {ts : Int} {env : ItemEnvelope}
    (held : v.entry id = some (.item ts env)) :
    v.items.find? id = some ⟨id, env, ts⟩ ∧ v.tombstones.find? id = none := by
  have row := (v.entry_eq_item_iff id ts env).mp held
  exact ⟨row, v.exclusive id (by rw [row]; simp)⟩

/-- Two stores with the same entry have the same rows. -/
theorem rows_of_entry_eq {v w : LocalVault} {id : ItemId} (same : v.entry id = w.entry id) :
    v.items.find? id = w.items.find? id ∧ v.tombstones.find? id = w.tombstones.find? id := by
  rcases held : w.entry id with - | ⟨ts, env⟩ | d
  · have none_ : ∀ u : LocalVault, u.entry id = none →
        u.items.find? id = none ∧ u.tombstones.find? id = none := by
      intro u empty
      unfold entry at empty
      cases items : u.items.find? id with
      | some r => rw [items] at empty; cases empty
      | none =>
          rw [items] at empty
          exact ⟨rfl, Option.map_eq_none_iff.mp empty⟩
    rw [held] at same
    rw [(none_ v same).1, (none_ v same).2, (none_ w held).1, (none_ w held).2]
    exact ⟨rfl, rfl⟩
  · rw [held] at same
    obtain ⟨items, tombstones⟩ := items_of_entry_item same
    obtain ⟨items', tombstones'⟩ := items_of_entry_item held
    rw [items, tombstones, items', tombstones']
    exact ⟨rfl, rfl⟩
  · rw [held] at same
    obtain ⟨items, tombstones⟩ := (v.entry_eq_tombstone_iff id d).mp same
    obtain ⟨items', tombstones'⟩ := (w.entry_eq_tombstone_iff id d).mp held
    rw [items, tombstones, items', tombstones']
    exact ⟨rfl, rfl⟩

/-! ## The first loop -/

theorem winner_eq_none_iff (v : LocalVault) (envs : List ItemEnvelope) (id : ItemId) :
    v.winner envs id = none ↔ v.sequence envs id = [] := List.argmax_eq_none

theorem le_winner {v : LocalVault} {envs : List ItemEnvelope} {id : ItemId}
    {w c : Int × ItemEnvelope} (won : v.winner envs id = some w)
    (mem : c ∈ v.sequence envs id) : c.1 ≤ w.1 := List.le_of_mem_argmax mem won

theorem winner_mem {v : LocalVault} {envs : List ItemEnvelope} {id : ItemId}
    {w : Int × ItemEnvelope} (won : v.winner envs id = some w) : w ∈ v.sequence envs id :=
  List.argmax_mem won

/-- What the store holds for an id after the first loop. -/
def wonEntry (v : LocalVault) (envs : List ItemEnvelope) (id : ItemId) :
    Option (Entry Int ItemEnvelope) :=
  match v.winner envs id with
  | some w => some (.item w.1 w.2)
  | none => v.entry id

theorem items_of_sequence_nil {v : LocalVault} {envs : List ItemEnvelope} {id : ItemId}
    (empty : v.sequence envs id = []) : v.items.find? id = none ∧ copies id envs = [] := by
  obtain ⟨mine, remote⟩ := List.append_eq_nil_iff.mp empty
  exact ⟨by simpa using mine, remote⟩

theorem entry_of_items_none {v : LocalVault} {id : ItemId} (absent : v.items.find? id = none) :
    v.entry id = none ∨ ∃ d, v.entry id = some (.tombstone d) := by
  unfold entry
  rw [absent]
  cases v.tombstones.find? id with
  | none => exact .inl rfl
  | some t => exact .inr ⟨_, rfl⟩

/-- The copies of an id with one more envelope at the end of the document. -/
theorem copies_concat {envs : List ItemEnvelope} (all : AllReadable envs) {env : ItemEnvelope}
    {i : ItemId} {ts : Int} (header : envelopeMeta env = .ok (i, ts)) (id : ItemId) :
    copies id (envs ++ [env]) = copies id envs ++ if i = id then [(ts, env)] else [] := by
  have read : readable (envs ++ [env]) = readable envs ++ [(i, ts, env)] := by
    induction envs with
    | nil => simp [readable, header]
    | cons e rest ih =>
        obtain ⟨⟨m, here⟩, there⟩ := List.forall_mem_cons.mp all
        simp only [List.cons_append, readable, here, ih there]
  rw [copies, copies, read, List.filterMap_append]
  by_cases same : i = id <;> simp [same]

/-- After the first loop the winner is the live copy; without a copy nothing has changed. -/
theorem entry_mergeEnvelopes_eq (v : LocalVault) (report : MergeReport)
    (envs : List ItemEnvelope) (id : ItemId) :
    (v.mergeEnvelopes report envs).1.entry id = v.wonEntry envs id := by
  rw [entry_mergeEnvelopes, wonEntry, winner, sequence]
  -- from the end of the document, where `argmax` grows
  induction copies id envs using List.reverseRecOn with
  | nil =>
      rw [List.append_nil, List.foldl_nil, entry]
      cases v.items.find? id <;> rfl
  | append_singleton rest c ih =>
      rw [List.foldl_concat, ih, ← List.append_assoc, List.argmax_concat]
      cases won : @List.argmax _ _ Int.instLinearOrder.toPreorder _ Prod.fst
        (((v.items.find? id).toList.map fun r => (r.updatedAt, r.envelope)) ++ rest) with
      | some w =>
          simp only [absorb]
          split <;> rfl
      | none =>
          obtain ⟨mine, -⟩ := List.append_eq_nil_iff.mp (List.argmax_eq_none.mp won)
          have absent : v.items.find? id = none := by simpa using mine
          obtain gone | ⟨d, gone⟩ := entry_of_items_none absent
          · simp only [gone, absorb]
          · simp only [gone, absorb]

/-- What the round of an envelope of time `ts` makes of the report, by what the store holds
for its id. -/
def tally (report : MergeReport) (ts : Int) : Option (Entry Int ItemEnvelope) → MergeReport
  | some (.item l _) =>
      if l < ts then { report with updated := report.updated + 1 }
      else if ts < l then { report with conflicts := report.conflicts + 1 }
      else report
  | _ => { report with added := report.added + 1 }

theorem mergeEnvelope_tally {v v' : LocalVault} {report report' : MergeReport}
    {env : ItemEnvelope} {id : ItemId} {ts : Int} (header : envelopeMeta env = .ok (id, ts))
    (step : v.mergeEnvelope report env = .ok (v', report')) :
    report' = tally report ts (v.entry id) := by
  unfold mergeEnvelope at step
  rw [header] at step
  simp only [bind, Except.bind, updatedAt_entry, upsert_ok header, pure, Except.pure] at step
  rcases held : v.entry id with - | ⟨l, old⟩ | d
  · rw [held] at step
    cases step
    rfl
  · rw [held] at step
    simp only at step
    rw [tally]
    split_ifs at step ⊢ <;> cases step <;> rfl
  · rw [held] at step
    cases step
    rfl

theorem mergeEnvelopes_concat (v : LocalVault) (report : MergeReport) (envs : List ItemEnvelope)
    (env : ItemEnvelope) :
    v.mergeEnvelopes report (envs ++ [env]) =
      match v.mergeEnvelopes report envs with
      | (w, .error e) => (w, .error e)
      | (w, .ok r) => w.mergeEnvelopes r [env] := by
  induction envs generalizing v report with
  | nil => rfl
  | cons e rest ih =>
      rw [List.cons_append, mergeEnvelopes, mergeEnvelopes]
      cases v.mergeEnvelope report e with
      | error _ => rfl
      | ok next => exact ih next.1 next.2

/-- The report after the first loop. -/
def counted (v : LocalVault) (report : MergeReport) (envs : List ItemEnvelope) : MergeReport where
  added := report.added + (arrivals envs).countP v.adds
  updated := report.updated + (arrivals envs).countP v.updates
  conflicts := report.conflicts + (arrivals envs).countP v.conflicts
  deleted := report.deleted

theorem tally_counted (v : LocalVault) (report : MergeReport) (envs : List ItemEnvelope)
    {env : ItemEnvelope} {id : ItemId} {ts : Int} (header : envelopeMeta env = .ok (id, ts)) :
    tally (v.counted report envs) ts (v.wonEntry envs id) = v.counted report (envs ++ [env]) := by
  have count : ∀ p : List ItemEnvelope × ItemEnvelope → Bool,
      (arrivals (envs ++ [env])).countP p = (arrivals envs).countP p + (p (envs, env)).toNat := by
    intro p
    rw [arrivals_concat, List.countP_append, List.countP_singleton]
    cases p (envs, env) <;> rfl
  simp only [counted, count, adds, updates, conflicts, header]
  cases won : v.winner envs id with
  | none =>
      have empty := (v.winner_eq_none_iff envs id).mp won
      have absent := (items_of_sequence_nil empty).1
      rw [wonEntry, won, empty]
      obtain gone | ⟨d, gone⟩ := entry_of_items_none absent <;>
        simp [gone, tally, Nat.add_assoc]
  | some w =>
      have held := winner_mem won
      have some_ : (v.sequence envs id).isEmpty = false :=
        List.isEmpty_eq_false_iff.mpr (List.ne_nil_of_mem held)
      have newer : ((v.sequence envs id).all fun c => decide (c.1 < ts)) = decide (w.1 < ts) := by
        rw [Bool.eq_iff_iff, List.all_eq_true, decide_eq_true_iff]
        refine ⟨fun h => by simpa using h w held, fun h c mem => ?_⟩
        have := le_winner won mem
        simp only [decide_eq_true_iff]
        omega
      have older : ((v.sequence envs id).any fun c => decide (ts < c.1)) = decide (ts < w.1) := by
        rw [Bool.eq_iff_iff, List.any_eq_true, decide_eq_true_iff]
        constructor
        · rintro ⟨c, mem, h⟩
          have := le_winner won mem
          simp only [decide_eq_true_iff] at h
          omega
        · exact fun h => ⟨w, held, by simpa using h⟩
      rw [wonEntry, won, some_, newer, older]
      simp only [tally]
      by_cases up : w.1 < ts
      · have down : ¬ ts < w.1 := by omega
        simp [up, down, Nat.add_assoc]
      · by_cases down : ts < w.1 <;> simp [up, down, Nat.add_assoc]

/-- The first loop counts the envelopes that arrive. -/
theorem mergeEnvelopes_report (v : LocalVault) (report : MergeReport) {envs : List ItemEnvelope}
    (all : AllReadable envs) : (v.mergeEnvelopes report envs).2 = .ok (v.counted report envs) := by
  induction envs using List.reverseRecOn with
  | nil => rfl
  | append_singleton rest env ih =>
      obtain ⟨before, last⟩ := List.forall_mem_append.mp all
      obtain ⟨⟨id, ts⟩, header⟩ := last env List.mem_cons_self
      have held := v.entry_mergeEnvelopes_eq report rest id
      have done := ih before
      rw [mergeEnvelopes_concat]
      generalize v.mergeEnvelopes report rest = loop at held done
      obtain ⟨w, r⟩ := loop
      cases done
      obtain ⟨w', r', step, -⟩ := w.mergeEnvelope_ok (v.counted report rest) header
      simp only [mergeEnvelopes, step]
      rw [mergeEnvelope_tally header step, held, tally_counted v report rest header]

/-! ## The second loop -/

theorem foldl_bury_item (ts : Int) (env : ItemEnvelope) (ds : List Int) :
    ds.foldl bury (some (.item ts env)) =
      match ds.find? fun d => decide (ts ≤ d) with
      | some d => some (.tombstone d)
      | none => some (.item ts env) := by
  have settled : ∀ (ds : List Int) (d : Int),
      ds.foldl bury (some (.tombstone d)) = some (.tombstone d) := by
    intro ds d
    induction ds with
    | nil => rfl
    | cons _ rest ih => exact ih
  induction ds with
  | nil => rfl
  | cons d rest ih =>
      rw [List.foldl_cons, bury, List.find?_cons]
      by_cases late : ts ≤ d
      · rw [if_pos late, settled, decide_eq_true late]
      · rw [if_neg late, ih, decide_eq_false late]

theorem foldl_bury_of_not_live {e : Option (Entry Int ItemEnvelope)} (ds : List Int)
    (gone : e = none ∨ ∃ d, e = some (.tombstone d)) : ds.foldl bury e = e := by
  have one : ∀ d, bury e d = e := by
    intro d
    obtain rfl | ⟨d, rfl⟩ := gone <;> rfl
  induction ds with
  | nil => rfl
  | cons d rest ih => rw [List.foldl_cons, one, ih]

/-- What the store holds for an id in the end. -/
def settledEntry (v : LocalVault) (envs : List ItemEnvelope) (ds : List Int) (id : ItemId) :
    Option (Entry Int ItemEnvelope) :=
  match v.winner envs id with
  | some w =>
      match ds.find? fun d => decide (w.1 ≤ d) with
      | some d => some (.tombstone d)
      | none => some (.item w.1 w.2)
  | none => v.entry id

theorem foldl_bury_wonEntry (v : LocalVault) (envs : List ItemEnvelope) (ds : List Int)
    (id : ItemId) : ds.foldl bury (v.wonEntry envs id) = v.settledEntry envs ds id := by
  rw [wonEntry, settledEntry]
  cases won : v.winner envs id with
  | some w => exact foldl_bury_item w.1 w.2 ds
  | none =>
      have empty := (v.winner_eq_none_iff envs id).mp won
      exact foldl_bury_of_not_live ds (entry_of_items_none (items_of_sequence_nil empty).1)

theorem mergeTombstone_report (s : LocalVault × MergeReport) (t : ItemId × Int) :
    (mergeTombstone s t).2 =
      match s.1.entry t.1 with
      | some (.item l _) =>
          if l ≤ t.2 then { s.2 with deleted := s.2.deleted + 1 } else s.2
      | _ => s.2 := by
  unfold mergeTombstone
  rw [updatedAt_entry]
  rcases s.1.entry t.1 with - | ⟨l, old⟩ | d
  · rfl
  · simp only
    split <;> rfl
  · rfl

/-- The second loop counts the tombstones that arrive. -/
theorem mergeTombstones_report (v : LocalVault) (envs : List ItemEnvelope)
    {s : LocalVault × MergeReport} (start : ∀ id, s.1.entry id = v.wonEntry envs id)
    (tombstones : List (ItemId × Int)) :
    (tombstones.foldl mergeTombstone s).2 =
      { s.2 with deleted := s.2.deleted + (arrivals tombstones).countP (v.deletes envs) } := by
  induction tombstones using List.reverseRecOn with
  | nil => rfl
  | append_singleton rest t ih =>
      rw [List.foldl_concat, mergeTombstone_report, entry_mergeTombstones, start,
        foldl_bury_wonEntry, ih, arrivals_concat, List.countP_append, List.countP_singleton,
        settledEntry, deletes]
      cases won : v.winner envs t.1 with
      | none =>
          have empty := (v.winner_eq_none_iff envs t.1).mp won
          obtain gone | ⟨d, gone⟩ := entry_of_items_none (items_of_sequence_nil empty).1 <;>
            simp [gone]
      | some w =>
          simp only
          cases first : (marks t.1 rest).find? fun d => decide (w.1 ≤ d) with
          | some d =>
              have early : ((marks t.1 rest).all fun d => decide (d < w.1)) = false := by
                rw [List.all_eq_false]
                exact ⟨d, List.mem_of_find?_eq_some first, by
                  simpa using List.find?_some first⟩
              simp [early]
          | none =>
              have early : ((marks t.1 rest).all fun d => decide (d < w.1)) = true := by
                rw [List.all_eq_true]
                intro d mem
                simpa using List.find?_eq_none.mp first d mem
              by_cases late : w.1 ≤ t.2 <;>
                simp only [early, late, decide_true, decide_false, Bool.and_true,
                  Bool.false_eq_true, if_true, if_false, Nat.add_assoc, Nat.add_zero]

/-! ## The whole merge -/

theorem mem_copies {id : ItemId} {envs : List ItemEnvelope} {c : Int × ItemEnvelope}
    (mem : c ∈ copies id envs) : c.2 ∈ envs ∧ envelopeMeta c.2 = .ok (id, c.1) := by
  have read : ∀ x ∈ readable envs, x.2.2 ∈ envs ∧ envelopeMeta x.2.2 = .ok (x.1, x.2.1) := by
    clear mem
    induction envs with
    | nil => simp [readable]
    | cons env rest ih =>
        intro x mem
        cases header : envelopeMeta env with
        | error e => simp [readable, header] at mem
        | ok m =>
            rw [readable, header] at mem
            obtain rfl | there := List.mem_cons.mp mem
            · exact ⟨List.mem_cons_self, header⟩
            · exact ⟨List.mem_cons_of_mem _ (ih x there).1, (ih x there).2⟩
  obtain ⟨⟨i, c'⟩, there, eq⟩ := List.mem_filterMap.mp mem
  split at eq
  · rename_i same
    cases eq
    cases same
    exact read _ there
  · cases eq

/-- Of an id without a live copy the first envelope that arrives is stored. -/
theorem exists_stores_iff {v : LocalVault} {id : ItemId} (absent : v.items.find? id = none)
    {envs : List ItemEnvelope} (all : AllReadable envs) :
    (∃ a ∈ arrivals envs, v.Stores id a) ↔ copies id envs ≠ [] := by
  induction envs using List.reverseRecOn with
  | nil => simp [copies, readable]
  | append_singleton rest env ih =>
      obtain ⟨before, last⟩ := List.forall_mem_append.mp all
      obtain ⟨⟨i, ts⟩, header⟩ := last env List.mem_cons_self
      rw [arrivals_concat, copies_concat before header]
      simp only [List.mem_append, List.mem_singleton, or_and_right, exists_or, exists_eq_left,
        ih before]
      by_cases same : i = id
      · subst same
        simp only [if_true, ne_eq, List.append_eq_nil_iff, List.cons_ne_nil, and_false,
          not_false_eq_true, iff_true]
        by_cases first : copies i rest = []
        · refine .inr ⟨ts, header, fun c mem => ?_⟩
          rw [sequence, absent, first] at mem
          cases mem
        · exact .inl first
      · rw [if_neg same, List.append_nil]
        refine or_iff_left ?_
        rintro ⟨ts', other, -⟩
        rw [header] at other
        cases other
        exact same rfl

theorem absent_of_tombstone {v : LocalVault} {id : ItemId} {t : TombstoneRow}
    (mark : v.tombstones.find? id = some t) : v.items.find? id = none := by
  by_contra present
  rw [v.exclusive id present] at mark
  cases mark

theorem sequence_nil {v : LocalVault} {id : ItemId} {t : TombstoneRow} {envs : List ItemEnvelope}
    (mark : v.tombstones.find? id = some t) (none_ : copies id envs = []) :
    v.sequence envs id = [] := by
  rw [sequence, absent_of_tombstone mark, none_]
  rfl

/-- What a merge does to each id, and what it reports. -/
structure LastWriterWins (v : LocalVault) (remote : VaultDocument) (envs : List ItemEnvelope)
    (v' : LocalVault) (report : MergeReport) : Prop where
  /-- An id with a copy ends deleted when a tombstone is at least as recent as the winner. -/
  deleted_iff : ∀ id w, v.winner envs id = some w →
    ((v'.items.find? id = none ∧ v'.tombstones.find? id ≠ none) ↔
      ∃ d ∈ marks id remote.tombstones, w.1 ≤ d)
  /-- The first of these tombstones is recorded. -/
  recorded : ∀ id w d, v.winner envs id = some w →
    ((marks id remote.tombstones).find? fun d => decide (w.1 ≤ d)) = some d →
    v'.tombstones.find? id = some ⟨id, d⟩
  /-- Without such a tombstone the winner is stored. -/
  stored : ∀ id w, v.winner envs id = some w →
    (¬ ∃ d ∈ marks id remote.tombstones, w.1 ≤ d) → v'.items.find? id = some ⟨id, w.2, w.1⟩
  /-- The first loop removes a local tombstone exactly when it stores an envelope of the id. -/
  cleared_iff : ∀ id t, v.tombstones.find? id = some t →
    ((v.mergeEnvelopes {} envs).1.tombstones.find? id = none ↔
      ∃ a ∈ arrivals envs, v.Stores id a)
  /-- The second loop does not touch a local tombstone that the first one left. -/
  kept : ∀ id t, v.tombstones.find? id = some t → (¬ ∃ a ∈ arrivals envs, v.Stores id a) →
    v'.tombstones.find? id = some t
  untouched : ∀ id, (∀ env ∈ envs, ∀ ts, envelopeMeta env ≠ .ok (id, ts)) →
    (∀ t ∈ remote.tombstones, t.1 ≠ id) →
    v'.items.find? id = v.items.find? id ∧ v'.tombstones.find? id = v.tombstones.find? id
  added : report.added = (arrivals envs).countP v.adds
  updated : report.updated = (arrivals envs).countP v.updates
  conflicts : report.conflicts = (arrivals envs).countP v.conflicts
  deleted : report.deleted = (arrivals remote.tombstones).countP (v.deletes envs)

section LastWriter

variable {v : LocalVault} {remote : VaultDocument} {envs : List ItemEnvelope}

theorem entry_merge_settled (h : remote.envelopes = .ok envs) (all : AllReadable envs)
    (id : ItemId) :
    (v.merge remote).1.entry id = v.settledEntry envs (marks id remote.tombstones) id := by
  rw [entry_merge h all, ← entry_mergeEnvelopes v {} envs, entry_mergeEnvelopes_eq,
    foldl_bury_wonEntry]

theorem merge_report (h : remote.envelopes = .ok envs) (all : AllReadable envs) :
    (v.merge remote).2 = .ok
      { v.counted {} envs with
        deleted := (arrivals remote.tombstones).countP (v.deletes envs) } := by
  have start := v.entry_mergeEnvelopes_eq {} envs
  have done := v.mergeEnvelopes_report {} all
  rw [merge, h]
  simp only
  generalize v.mergeEnvelopes {} envs = loop at start done ⊢
  obtain ⟨w, r⟩ := loop
  cases done
  have counts := mergeTombstones_report v envs (s := (w, v.counted {} envs)) start
    remote.tombstones
  refine (congrArg Except.ok counts).trans ?_
  simp only [counted, Nat.zero_add]

/-- The rows of an id without a copy stay as they are. -/
theorem rows_of_no_copy (h : remote.envelopes = .ok envs) (all : AllReadable envs) {id : ItemId}
    (none_ : v.winner envs id = none) :
    (v.merge remote).1.items.find? id = v.items.find? id ∧
      (v.merge remote).1.tombstones.find? id = v.tombstones.find? id := by
  refine rows_of_entry_eq ?_
  rw [entry_merge_settled h all, settledEntry, none_]

/-- The merge of a document whose envelopes all have a header. -/
theorem merge_lastWriterWins (h : remote.envelopes = .ok envs) (all : AllReadable envs) :
    ∃ report, (v.merge remote).2 = .ok report ∧
      LastWriterWins v remote envs (v.merge remote).1 report := by
  have found : ∀ id w, v.winner envs id = some w →
      (v.merge remote).1.entry id =
        match (marks id remote.tombstones).find? fun d => decide (w.1 ≤ d) with
        | some d => some (.tombstone d)
        | none => some (.item w.1 w.2) := by
    intro id w won
    rw [entry_merge_settled h all, settledEntry, won]
  have late : ∀ id (w : Int × ItemEnvelope), (¬ ∃ d ∈ marks id remote.tombstones, w.1 ≤ d) →
      ((marks id remote.tombstones).find? fun d => decide (w.1 ≤ d)) = none := by
    intro id w none_
    rw [List.find?_eq_none]
    intro d mem le
    exact none_ ⟨d, mem, by simpa using le⟩
  have stored : ∀ id w, v.winner envs id = some w →
      (¬ ∃ d ∈ marks id remote.tombstones, w.1 ≤ d) →
      (v.merge remote).1.items.find? id = some ⟨id, w.2, w.1⟩ := by
    intro id w won none_
    have entry := found id w won
    rw [late id w none_] at entry
    exact (items_of_entry_item entry).1
  refine ⟨_, merge_report h all, ?_⟩
  constructor
  case deleted_iff =>
    intro id w won
    constructor
    · rintro ⟨gone, -⟩
      by_contra none_
      rw [stored id w won none_] at gone
      cases gone
    · intro some_
      obtain ⟨d, first⟩ : ∃ d, ((marks id remote.tombstones).find? fun d => decide (w.1 ≤ d)) =
          some d := by
        rw [← Option.isSome_iff_exists, List.find?_isSome]
        obtain ⟨d, mem, le⟩ := some_
        exact ⟨d, mem, by simpa using le⟩
      have entry := found id w won
      rw [first] at entry
      obtain ⟨gone, mark⟩ := (entry_eq_tombstone_iff _ id d).mp entry
      exact ⟨gone, by rw [mark]; simp⟩
  case recorded =>
    intro id w d won first
    have entry := found id w won
    rw [first] at entry
    exact ((entry_eq_tombstone_iff _ id d).mp entry).2
  case stored => exact stored
  case cleared_iff =>
    intro id t mark
    rw [exists_stores_iff (absent_of_tombstone mark) all]
    have between := v.entry_mergeEnvelopes_eq {} envs id
    constructor
    · intro cleared none_
      rw [wonEntry, (v.winner_eq_none_iff envs id).mpr (sequence_nil mark none_)] at between
      rw [(rows_of_entry_eq between).2, mark] at cleared
      cases cleared
    · intro some_
      obtain ⟨w, won⟩ := Option.ne_none_iff_exists'.mp fun none_ => some_
        (items_of_sequence_nil ((v.winner_eq_none_iff envs id).mp none_)).2
      rw [wonEntry, won] at between
      exact (items_of_entry_item between).2
  case kept =>
    intro id t mark none_
    rw [exists_stores_iff (absent_of_tombstone mark) all, not_not] at none_
    have none_ := (v.winner_eq_none_iff envs id).mpr (sequence_nil mark none_)
    rw [(rows_of_no_copy h all none_).2, mark]
  case untouched =>
    intro id noEnvelope noTombstone
    have remotes : copies id envs = [] := by
      rw [List.eq_nil_iff_forall_not_mem]
      intro c mem
      exact noEnvelope c.2 (mem_copies mem).1 c.1 (mem_copies mem).2
    have marks_ : marks id remote.tombstones = [] := by
      rw [marks, List.filterMap_eq_nil_iff]
      intro t mem
      exact if_neg (noTombstone t mem)
    refine rows_of_entry_eq ?_
    rw [entry_merge h all, remotes, marks_]
    rfl
  case added => simp only [counted, Nat.zero_add]
  case updated => simp only [counted, Nat.zero_add]
  case conflicts => simp only [counted, Nat.zero_add]
  case deleted => rfl

end LastWriter

/-- A store with a copy of time 5. -/
def olderCopy : LocalVault := (empty.merge (.fromEnvelopes [sampleEnvelope 5 0] [])).1

/-- A document with an equal copy, a newer one twice, and three tombstones. -/
def repeatedCopies : List ItemEnvelope :=
  [sampleEnvelope 5 1, sampleEnvelope 7 2, sampleEnvelope 7 3]

/-- The second tombstone is the first that reaches the winner. -/
theorem merge_lastWriterWins_repeated :
    (VaultDocument.fromEnvelopes repeatedCopies
      [(sampleId, 6), (sampleId, 8), (sampleId, 9)]).envelopes = .ok repeatedCopies ∧
    AllReadable repeatedCopies ∧
    olderCopy.winner repeatedCopies sampleId = some (7, sampleEnvelope 7 2) ∧
    ∃ report, (olderCopy.merge (.fromEnvelopes repeatedCopies
        [(sampleId, 6), (sampleId, 8), (sampleId, 9)])).2 = .ok report ∧
      LastWriterWins olderCopy (.fromEnvelopes repeatedCopies
        [(sampleId, 6), (sampleId, 8), (sampleId, 9)]) repeatedCopies
        (olderCopy.merge (.fromEnvelopes repeatedCopies
          [(sampleId, 6), (sampleId, 8), (sampleId, 9)])).1 report := by
  have all : AllReadable repeatedCopies := by
    intro env mem
    simp only [repeatedCopies, List.mem_cons, List.not_mem_nil, or_false] at mem
    obtain rfl | rfl | rfl := mem
    · exact ⟨_, envelopeMeta_header (by norm_num) (by norm_num) _⟩
    · exact ⟨_, envelopeMeta_header (by norm_num) (by norm_num) _⟩
    · exact ⟨_, envelopeMeta_header (by norm_num) (by norm_num) _⟩
  have read := VaultDocument.envelopes_fromEnvelopes repeatedCopies
    [(sampleId, 6), (sampleId, 8), (sampleId, 9)]
  exact ⟨read, all, by decide, merge_lastWriterWins read all⟩

end LocalVault

end Sentinel.Vault
