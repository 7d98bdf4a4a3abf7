import Mathlib

/-!
# Keyed tables

A table is a list of rows in insertion order whose keys are pairwise distinct;
the distinctness is a field, so a table with two rows of one primary key cannot
be built. The operations are the row-level meanings of the usual relational
statements: a keyed lookup, an insertion that is refused on an existing key, an
insert-or-update, a conditional update and a conditional deletion.

The lookup lemmas say what each operation does to one key. The `view` lemmas say
what it does to the rows selected by a fixed predicate, which is the form needed
when rows belong to different owners.
-/

namespace Relational

/-- Rows in insertion order with pairwise distinct keys. -/
structure Table (κ α : Type) (key : α → κ) where
  rows : List α
  nodup : (rows.map key).Nodup

namespace Table

variable {κ α : Type} {key : α → κ}

/-- The table without rows. -/
def empty : Table κ α key := ⟨[], List.nodup_nil⟩

instance : Inhabited (Table κ α key) := ⟨empty⟩

/-- `UPDATE ... SET f WHERE p`; the assignment may not change the key. -/
def updateWhere (t : Table κ α key) (p : α → Bool) (f : α → α)
    (keyed : ∀ r, key (f r) = key r) : Table κ α key where
  rows := t.rows.map fun r => if p r then f r else r
  nodup := by
    have same : (t.rows.map fun r => if p r then f r else r).map key = t.rows.map key := by
      rw [List.map_map]
      apply List.map_congr_left
      intro r _
      by_cases h : p r = true <;> simp [Function.comp, h, keyed]
    rw [same]
    exact t.nodup

/-- `DELETE ... WHERE p`. -/
def deleteWhere (t : Table κ α key) (p : α → Bool) : Table κ α key where
  rows := t.rows.filter fun r => !p r
  nodup := (List.filter_sublist.map key).nodup t.nodup

/-- The rows a statement with this condition affects. -/
def countWhere (t : Table κ α key) (p : α → Bool) : Nat := t.rows.countP p

/-- The rows selected by a fixed predicate, in table order. -/
def view (t : Table κ α key) (p : α → Bool) : List α := t.rows.filter p

variable [DecidableEq κ]

/-- `SELECT ... WHERE key = k`. -/
def find? (t : Table κ α key) (k : κ) : Option α := t.rows.find? fun r => decide (key r = k)

/-- `INSERT`, refused when the key is taken. -/
def insert (t : Table κ α key) (r : α) : Option (Table κ α key) :=
  if h : key r ∈ t.rows.map key then none
  else some
    { rows := t.rows ++ [r]
      nodup := by
        rw [List.map_append, List.map_singleton]
        exact List.nodup_append.mpr ⟨t.nodup, List.nodup_singleton _, by
          intro a ha b hb
          rw [List.mem_singleton] at hb
          subst hb
          exact fun same => h (same ▸ ha)⟩ }

/-- `INSERT ... ON CONFLICT (key) DO UPDATE SET f`. -/
def insertOr (t : Table κ α key) (r : α) (f : α → α) (keyed : ∀ x, key (f x) = key x) :
    Table κ α key :=
  match t.insert r with
  | some t' => t'
  | none => t.updateWhere (fun x => decide (key x = key r)) f keyed

theorem find?_eq_some_iff {t : Table κ α key} {k : κ} {r : α} :
    t.find? k = some r ↔ r ∈ t.rows ∧ key r = k := by
  constructor
  · intro h
    have same := List.find?_some h
    exact ⟨List.mem_of_find?_eq_some h, of_decide_eq_true same⟩
  · rintro ⟨mem, rfl⟩
    have inj := List.inj_on_of_nodup_map t.nodup
    cases h : t.find? (key r) with
    | none =>
        have absent := List.find?_eq_none.mp h r mem
        exact absurd (decide_eq_true rfl) absent
    | some x =>
        have found := List.mem_of_find?_eq_some h
        have same : key x = key r := by
          have hx := List.find?_some h
          exact of_decide_eq_true hx
        rw [inj found mem same]

theorem key_of_find? {t : Table κ α key} {k : κ} {r : α} (h : t.find? k = some r) :
    key r = k := (find?_eq_some_iff.mp h).2

theorem mem_of_find? {t : Table κ α key} {k : κ} {r : α} (h : t.find? k = some r) :
    r ∈ t.rows := (find?_eq_some_iff.mp h).1

theorem find?_eq_none_iff {t : Table κ α key} {k : κ} :
    t.find? k = none ↔ ∀ r ∈ t.rows, key r ≠ k := by
  simp [find?, List.find?_eq_none]

theorem find?_of_mem {t : Table κ α key} {r : α} (h : r ∈ t.rows) : t.find? (key r) = some r :=
  find?_eq_some_iff.mpr ⟨h, rfl⟩

@[simp] theorem find?_empty (k : κ) : (empty : Table κ α key).find? k = none := rfl

/-- At most one row has a key. -/
theorem filter_key_eq (t : Table κ α key) (k : κ) :
    t.rows.filter (fun r => decide (key r = k)) = (t.find? k).toList := by
  have single : ((t.rows.filter fun r => decide (key r = k)).map key).Nodup :=
    (List.filter_sublist.map key).nodup t.nodup
  rw [find?, ← List.head?_filter]
  cases kept : t.rows.filter fun r => decide (key r = k) with
  | nil => rfl
  | cons a rest =>
      cases rest with
      | nil => rfl
      | cons b rest =>
          have inside : ∀ r ∈ a :: b :: rest, key r = k := by
            intro r mem
            rw [← kept, List.mem_filter] at mem
            exact of_decide_eq_true mem.2
          rw [kept, List.map_cons, List.map_cons, inside a (by simp), inside b (by simp)] at single
          simp at single

theorem find?_updateWhere (t : Table κ α key) (p : α → Bool) (f : α → α)
    (keyed : ∀ r, key (f r) = key r) (k : κ) :
    (t.updateWhere p f keyed).find? k = (t.find? k).map fun r => if p r then f r else r := by
  unfold find? updateWhere
  rw [List.find?_map]
  congr 2
  funext r
  by_cases h : p r = true <;> simp [Function.comp, h, keyed]

theorem find?_deleteWhere (t : Table κ α key) (p : α → Bool) (k : κ) :
    (t.deleteWhere p).find? k = (t.find? k).filter fun r => !p r := by
  apply Option.ext
  intro r
  rw [find?_eq_some_iff, Option.filter_eq_some_iff, find?_eq_some_iff]
  simp only [deleteWhere, List.mem_filter]
  tauto

theorem insert_eq_none_iff {t : Table κ α key} {r : α} :
    t.insert r = none ↔ t.find? (key r) ≠ none := by
  rw [Ne, find?_eq_none_iff, insert]
  by_cases h : key r ∈ t.rows.map key
  · rw [dif_pos h]
    obtain ⟨x, mem, same⟩ := List.mem_map.mp h
    exact ⟨fun _ all => all x mem same, fun _ => rfl⟩
  · rw [dif_neg h]
    refine ⟨nofun, fun all => absurd (fun x mem same => h ?_) all⟩
    exact List.mem_map.mpr ⟨x, mem, same⟩

theorem rows_of_insert {t t' : Table κ α key} {r : α} (h : t.insert r = some t') :
    t'.rows = t.rows ++ [r] := by
  rw [insert] at h
  split at h
  · cases h
  · cases h
    rfl

theorem find?_of_insert {t t' : Table κ α key} {r : α} (h : t.insert r = some t') (k : κ) :
    t'.find? k = if key r = k then some r else t.find? k := by
  have fresh : t.find? (key r) = none := by
    by_contra taken
    rw [insert_eq_none_iff.mpr taken] at h
    cases h
  rw [find?, rows_of_insert h, List.find?_append]
  by_cases same : key r = k
  · subst same
    rw [if_pos rfl]
    change (t.find? (key r)).or _ = _
    rw [fresh]
    simp
  · simp [same, find?]

theorem find?_insertOr (t : Table κ α key) (r : α) (f : α → α)
    (keyed : ∀ x, key (f x) = key x) (k : κ) :
    (t.insertOr r f keyed).find? k =
      if key r = k then some ((t.find? k).elim r f) else t.find? k := by
  unfold insertOr
  cases h : t.insert r with
  | some t' =>
      rw [find?_of_insert h]
      by_cases same : key r = k
      · have fresh : t.find? k = none := by
          by_contra taken
          rw [← same] at taken
          rw [insert_eq_none_iff.mpr taken] at h
          cases h
        simp [same, fresh]
      · simp [same]
  | none =>
      have taken := insert_eq_none_iff.mp h
      simp only [find?_updateWhere]
      cases found : t.find? k with
      | none =>
          have other : key r ≠ k := by
            rintro rfl
            exact taken found
          simp [other]
      | some x =>
          have hx := key_of_find? found
          by_cases same : key r = k
          · simp [same, hx]
          · simp [hx, Ne.symm same, same]

omit [DecidableEq κ] in
/-- A `DELETE` that matches no row. -/
theorem deleteWhere_eq_self {t : Table κ α key} {p : α → Bool}
    (none_ : ∀ r ∈ t.rows, p r = false) : t.deleteWhere p = t := by
  obtain ⟨rows, nodup⟩ := t
  simp only [deleteWhere, mk.injEq]
  exact List.filter_eq_self.mpr fun r mem => by simp [none_ r mem]

/-- An upsert that sets a row to what it is. -/
theorem insertOr_eq_self {t : Table κ α key} {r : α} {f : α → α}
    {keyed : ∀ x, key (f x) = key x} (found : t.find? (key r) = some r) (same : f r = r) :
    t.insertOr r f keyed = t := by
  have taken : t.insert r = none := insert_eq_none_iff.mpr (by rw [found]; simp)
  rw [insertOr, taken]
  obtain ⟨rows, nodup⟩ := t
  simp only [updateWhere, mk.injEq]
  refine (List.map_congr_left fun x mem => ?_).trans (List.map_id rows)
  by_cases hit : key x = key r
  · have : x = r := List.inj_on_of_nodup_map nodup mem (mem_of_find? found) hit
    simp [this, same]
  · simp [hit]

omit [DecidableEq κ] in
/-- Rows that a condition selects and that share their key are one row. -/
theorem countWhere_le_one {t : Table κ α key} {p : α → Bool}
    (same : ∀ a ∈ t.rows, ∀ b ∈ t.rows, p a = true → p b = true → key a = key b) :
    t.countWhere p ≤ 1 := by
  rw [countWhere, List.countP_eq_length_filter]
  have nodup := (List.filter_sublist (p := p)).nodup (List.Nodup.of_map key t.nodup)
  have mem : ∀ a ∈ t.rows.filter p, a ∈ t.rows ∧ p a = true := fun a h => List.mem_filter.mp h
  cases rows : t.rows.filter p with
  | nil => simp
  | cons a rest =>
      cases rest with
      | nil => simp
      | cons b rest =>
          rw [rows] at nodup mem
          obtain ⟨here, pa⟩ := mem a (by simp)
          obtain ⟨there, pb⟩ := mem b (by simp)
          have eq := List.inj_on_of_nodup_map t.nodup here there (same a here b there pa pb)
          simp [eq] at nodup

/-! ### Rows of one owner -/

omit [DecidableEq κ] in
/-- An update that keeps `p` and touches only rows outside it leaves the view. -/
theorem view_updateWhere_of_disjoint (t : Table κ α key) {p q : α → Bool} {f : α → α}
    (keyed : ∀ r, key (f r) = key r) (keeps : ∀ r, p (f r) = p r)
    (disjoint : ∀ r ∈ t.rows, q r = true → p r = false) :
    (t.updateWhere q f keyed).view p = t.view p := by
  unfold view updateWhere
  rw [List.filter_map]
  have first : t.rows.filter (p ∘ fun r => if q r then f r else r) = t.rows.filter p := by
    apply List.filter_congr
    intro r _
    by_cases h : q r = true <;> simp [Function.comp, h, keeps]
  rw [first]
  conv_rhs => rw [← List.map_id (List.filter p t.rows)]
  apply List.map_congr_left
  intro r mem
  obtain ⟨mem, inside⟩ := List.mem_filter.mp mem
  by_cases h : q r = true
  · rw [disjoint r mem h] at inside
    cases inside
  · simp [h]

omit [DecidableEq κ] in
/-- An update that keeps `p` acts on the view alone. -/
theorem view_updateWhere (t : Table κ α key) {p q : α → Bool} {f : α → α}
    (keyed : ∀ r, key (f r) = key r) (keeps : ∀ r, p (f r) = p r) :
    (t.updateWhere q f keyed).view p = (t.view p).map fun r => if q r then f r else r := by
  unfold view updateWhere
  rw [List.filter_map]
  congr 1
  apply List.filter_congr
  intro r _
  by_cases h : q r = true <;> simp [Function.comp, h, keeps]

omit [DecidableEq κ] in
theorem view_deleteWhere (t : Table κ α key) (p q : α → Bool) :
    (t.deleteWhere q).view p = (t.view p).filter fun r => !q r := by
  unfold view deleteWhere
  simp only [List.filter_filter]
  apply List.filter_congr
  intro r _
  exact Bool.and_comm _ _

omit [DecidableEq κ] in
theorem view_deleteWhere_of_disjoint (t : Table κ α key) {p q : α → Bool}
    (disjoint : ∀ r ∈ t.rows, q r = true → p r = false) :
    (t.deleteWhere q).view p = t.view p := by
  rw [view_deleteWhere, List.filter_eq_self]
  intro r mem
  obtain ⟨mem, inside⟩ := List.mem_filter.mp mem
  by_cases h : q r = true
  · rw [disjoint r mem h] at inside
    cases inside
  · simp [h]

theorem view_of_insert {t t' : Table κ α key} {r : α} (h : t.insert r = some t') (p : α → Bool) :
    t'.view p = t.view p ++ if p r then [r] else [] := by
  unfold view
  rw [rows_of_insert h, List.filter_append]
  by_cases hr : p r = true <;> simp [hr]

omit [DecidableEq κ] in
/-- A selection of one row that can only lie in the view reads the view. -/
theorem select_eq_view (t : Table κ α key) {p q : α → Bool}
    (inside : ∀ r ∈ t.rows, q r = true → p r = true) :
    t.rows.find? q = (t.view p).find? q := by
  unfold view
  rw [List.find?_filter]
  apply List.find?_congr
  intro r mem
  by_cases found : q r = true
  · simp [found, inside r mem found]
  · simp [found]

omit [DecidableEq κ] in
/-- A count whose rows all lie in the view counts the view. -/
theorem countWhere_eq_view (t : Table κ α key) {p q : α → Bool}
    (inside : ∀ r, q r = true → p r = true) : t.countWhere q = (t.view p).countP q := by
  unfold countWhere view
  rw [List.countP_filter]
  apply List.countP_congr
  intro r _
  constructor
  · intro h
    simp [h, inside r h]
  · intro h
    exact (Bool.and_eq_true_iff.mp h).1

omit [DecidableEq κ] in
/-- A selection whose rows all lie in the view selects from the view. -/
theorem filter_eq_view (t : Table κ α key) {p q : α → Bool}
    (inside : ∀ r, q r = true → p r = true) : t.rows.filter q = (t.view p).filter q := by
  unfold view
  rw [List.filter_filter]
  apply List.filter_congr
  intro r _
  by_cases h : q r = true
  · simp [h, inside r h]
  · simp [h]

/-! ### Tables that agree on the rows of one owner -/

/-- The two tables have the same rows satisfying `p`, in the same order. -/
def SameRows (p : α → Bool) (t u : Table κ α key) : Prop := t.view p = u.view p

namespace SameRows

variable {p : α → Bool} {t u v : Table κ α key}

omit [DecidableEq κ] in
@[refl] theorem refl (p : α → Bool) (t : Table κ α key) : SameRows p t t := rfl

omit [DecidableEq κ] in
theorem trans (first : SameRows p t u) (second : SameRows p u v) : SameRows p t v :=
  Eq.trans first second

omit [DecidableEq κ] in
theorem mem (same : SameRows p t u) {r : α} (mem : r ∈ t.rows) (inside : p r = true) :
    r ∈ u.rows := by
  have viewed : r ∈ t.view p := List.mem_filter.mpr ⟨mem, inside⟩
  rw [same] at viewed
  exact (List.mem_filter.mp viewed).1

omit [DecidableEq κ] in
theorem select_eq (same : SameRows p t u) {q : α → Bool}
    (inT : ∀ r ∈ t.rows, q r = true → p r = true) (inU : ∀ r ∈ u.rows, q r = true → p r = true) :
    t.rows.find? q = u.rows.find? q := by
  rw [select_eq_view t inT, select_eq_view u inU, same]

theorem find?_eq (same : SameRows p t u) {k : κ}
    (inT : ∀ r ∈ t.rows, key r = k → p r = true) (inU : ∀ r ∈ u.rows, key r = k → p r = true) :
    t.find? k = u.find? k :=
  same.select_eq (fun r mem found => inT r mem (of_decide_eq_true found))
    fun r mem found => inU r mem (of_decide_eq_true found)

/-- A keyed lookup that is then restricted to rows inside. -/
theorem find?_filter_eq (same : SameRows p t u) (k : κ) {q : α → Bool}
    (inside : ∀ r, q r = true → p r = true) : (t.find? k).filter q = (u.find? k).filter q := by
  apply Option.ext
  intro r
  simp only [Option.filter_eq_some_iff, find?_eq_some_iff]
  constructor
  · rintro ⟨⟨mem, keyed⟩, selected⟩
    exact ⟨⟨same.mem mem (inside r selected), keyed⟩, selected⟩
  · rintro ⟨⟨mem, keyed⟩, selected⟩
    exact ⟨⟨SameRows.mem (Eq.symm same) mem (inside r selected), keyed⟩, selected⟩

omit [DecidableEq κ] in
theorem any_eq (same : SameRows p t u) {q : α → Bool}
    (inT : ∀ r ∈ t.rows, q r = true → p r = true) (inU : ∀ r ∈ u.rows, q r = true → p r = true) :
    t.rows.any q = u.rows.any q := by
  have found := congrArg Option.isSome (same.select_eq inT inU)
  rw [Bool.eq_iff_iff, List.find?_isSome, List.find?_isSome] at found
  rw [Bool.eq_iff_iff, List.any_eq_true, List.any_eq_true, found]

omit [DecidableEq κ] in
theorem filter_eq (same : SameRows p t u) {q : α → Bool} (inside : ∀ r, q r = true → p r = true) :
    t.rows.filter q = u.rows.filter q := by
  rw [filter_eq_view t inside, filter_eq_view u inside, same]

omit [DecidableEq κ] in
theorem countWhere_eq (same : SameRows p t u) {q : α → Bool}
    (inside : ∀ r, q r = true → p r = true) : t.countWhere q = u.countWhere q := by
  rw [countWhere_eq_view t inside, countWhere_eq_view u inside, same]

omit [DecidableEq κ] in
theorem updateWhere (same : SameRows p t u) {q : α → Bool} {f : α → α}
    (keyed : ∀ r, key (f r) = key r) (keeps : ∀ r, p (f r) = p r) :
    SameRows p (t.updateWhere q f keyed) (u.updateWhere q f keyed) := by
  unfold SameRows
  rw [view_updateWhere t keyed keeps, view_updateWhere u keyed keeps, same]

omit [DecidableEq κ] in
theorem deleteWhere (same : SameRows p t u) (q : α → Bool) :
    SameRows p (t.deleteWhere q) (u.deleteWhere q) := by
  unfold SameRows
  rw [view_deleteWhere, view_deleteWhere, same]

theorem insert (same : SameRows p t u) {r : α} {t' u' : Table κ α key} (inT : t.insert r = some t')
    (inU : u.insert r = some u') : SameRows p t' u' := by
  unfold SameRows
  rw [view_of_insert inT, view_of_insert inU, same]

/-- An insertion under a key whose row can only lie inside fails on both or succeeds
on both. -/
theorem insert_cases (same : SameRows p t u) {r : α}
    (inT : ∀ x ∈ t.rows, key x = key r → p x = true)
    (inU : ∀ x ∈ u.rows, key x = key r → p x = true) :
    (t.insert r = none ∧ u.insert r = none) ∨
      ∃ t' u', t.insert r = some t' ∧ u.insert r = some u' ∧ SameRows p t' u' := by
  have none_iff : t.insert r = none ↔ u.insert r = none := by
    rw [insert_eq_none_iff, insert_eq_none_iff, same.find?_eq inT inU]
  cases first : t.insert r with
  | none => exact .inl ⟨rfl, none_iff.mp first⟩
  | some t' =>
      cases second : u.insert r with
      | none =>
          rw [none_iff.mpr second] at first
          cases first
      | some u' => exact .inr ⟨t', u', rfl, rfl, same.insert first second⟩

theorem insertOr (same : SameRows p t u) {r : α} {f : α → α} (keyed : ∀ x, key (f x) = key x)
    (keeps : ∀ x, p (f x) = p x) (inT : ∀ x ∈ t.rows, key x = key r → p x = true)
    (inU : ∀ x ∈ u.rows, key x = key r → p x = true) :
    SameRows p (t.insertOr r f keyed) (u.insertOr r f keyed) := by
  unfold Table.insertOr
  rcases same.insert_cases inT inU with ⟨first, second⟩ | ⟨t', u', first, second, inserted⟩
  · rw [first, second]
    exact same.updateWhere keyed keeps
  · rw [first, second]
    exact inserted

omit [DecidableEq κ] in
/-- Updates elsewhere. -/
theorem of_updateWhere (t : Table κ α key) {q : α → Bool} {f : α → α}
    (keyed : ∀ r, key (f r) = key r) (keeps : ∀ r, p (f r) = p r)
    (disjoint : ∀ r ∈ t.rows, q r = true → p r = false) :
    SameRows p (t.updateWhere q f keyed) t :=
  view_updateWhere_of_disjoint t keyed keeps disjoint

omit [DecidableEq κ] in
theorem of_deleteWhere (t : Table κ α key) {q : α → Bool}
    (disjoint : ∀ r ∈ t.rows, q r = true → p r = false) : SameRows p (t.deleteWhere q) t :=
  view_deleteWhere_of_disjoint t disjoint

theorem of_insert {r : α} (inserted : t.insert r = some u) (outside : p r = false) :
    SameRows p u t := by
  unfold SameRows
  rw [view_of_insert inserted, if_neg (by simp [outside]), List.append_nil]

theorem of_insertOr (t : Table κ α key) {r : α} {f : α → α} (keyed : ∀ x, key (f x) = key x)
    (keeps : ∀ x, p (f x) = p x) (outside : p r = false)
    (disjoint : ∀ x ∈ t.rows, key x = key r → p x = false) :
    SameRows p (t.insertOr r f keyed) t := by
  unfold Table.insertOr
  cases inserted : t.insert r with
  | none => exact of_updateWhere t keyed keeps fun x mem same => disjoint x mem (of_decide_eq_true same)
  | some t' => exact of_insert inserted outside

end SameRows

end Table

end Relational
