import Mathlib

/-!
# JSON values and their readers

Two programs that exchange JSON agree on a value up to the order of the members of its objects:
one writes the members as its type declares them, the other as a dictionary yields them. `canon`
sorts the members by key, and a `Reader` is a reader that gives the same result on a value and on
its sorted form. Readers of records are built from readers of their fields, so that this holds by
construction.

`written` is the object of a record: its fields in order, those without a value left out.
-/

namespace Serial

/-- A JSON value whose numbers are integers. -/
inductive Value where
  | null
  | bool (b : Bool)
  | int (n : Int)
  | text (s : String)
  | array (values : List Value)
  | object (members : List (String × Value))

namespace Value

/-- Members by key. -/
def ByKey (a b : String × Value) : Prop := a.1 ≤ b.1

instance : DecidableRel ByKey := fun a b => inferInstanceAs (Decidable (a.1 ≤ b.1))

mutual

/-- The value with the members of every object sorted by key. -/
def canon : Value → Value
  | null => null
  | bool b => bool b
  | int n => int n
  | text s => text s
  | array values => array (canonAll values)
  | object members => object ((canonMembers members).insertionSort ByKey)

def canonAll : List Value → List Value
  | [] => []
  | v :: values => canon v :: canonAll values

def canonMembers : List (String × Value) → List (String × Value)
  | [] => []
  | (k, v) :: members => (k, canon v) :: canonMembers members

end

theorem canonAll_eq (values : List Value) : canonAll values = values.map canon := by
  induction values with
  | nil => rfl
  | cons v values ih => rw [canonAll, ih, List.map_cons]

theorem canonMembers_eq (members : List (String × Value)) :
    canonMembers members = members.map fun m => (m.1, canon m.2) := by
  induction members with
  | nil => rfl
  | cons m members ih => rw [canonMembers, ih, List.map_cons]

/-- The value under a key. -/
def lookup (members : List (String × Value)) (key : String) : Option Value :=
  (members.find? fun m => decide (m.1 = key)).map Prod.snd

/-- Sorting is stable: the first member under a key stays the first. -/
theorem find?_orderedInsert (key : String) (m : String × Value) (members : List (String × Value)) :
    (members.orderedInsert ByKey m).find? (fun m => decide (m.1 = key)) =
      (m :: members).find? fun m => decide (m.1 = key) := by
  induction members with
  | nil => rfl
  | cons a members ih =>
      rw [List.orderedInsert_cons]
      split
      · rfl
      · rename_i later
        rw [List.find?_cons, ih]
        by_cases first : a.1 = key
        · have other : m.1 ≠ key := by
            rintro rfl
            exact later first.ge
          simp only [List.find?_cons, decide_eq_true first, decide_eq_false other]
        · simp only [List.find?_cons, decide_eq_false first]

theorem find?_insertionSort (key : String) (members : List (String × Value)) :
    (members.insertionSort ByKey).find? (fun m => decide (m.1 = key)) =
      members.find? fun m => decide (m.1 = key) := by
  induction members with
  | nil => rfl
  | cons m members ih =>
      rw [List.insertionSort_cons, find?_orderedInsert, List.find?_cons, List.find?_cons, ih]

theorem lookup_canon (members : List (String × Value)) (key : String) :
    lookup ((canonMembers members).insertionSort ByKey) key = (lookup members key).map canon := by
  rw [lookup, find?_insertionSort, canonMembers_eq, List.find?_map, lookup, Option.map_map,
    Option.map_map]
  rfl

instance : Std.Total ByKey := ⟨fun a b => le_total a.1 b.1⟩

instance : IsTrans (String × Value) ByKey := ⟨fun _ _ _ => le_trans⟩

mutual

theorem canon_canon : ∀ v : Value, v.canon.canon = v.canon
  | null | bool _ | int _ | text _ => rfl
  | array values => by rw [canon, canon, canonAll_canonAll values]
  | object members => by
      -- sorting by key and canonizing the values commute
      have commutes := List.map_insertionSort ByKey ByKey
        (fun m : String × Value => (m.1, canon m.2)) (canonMembers members)
        fun _ _ _ _ => Iff.rfl
      rw [canon, canon, canonMembers_eq (List.insertionSort _ _), commutes, ← canonMembers_eq,
        canonMembers_canonMembers members, (List.pairwise_insertionSort ByKey _).insertionSort_eq]

theorem canonAll_canonAll : ∀ values, canonAll (canonAll values) = canonAll values
  | [] => rfl
  | v :: values => by rw [canonAll, canonAll, canon_canon v, canonAll_canonAll values]

theorem canonMembers_canonMembers :
    ∀ members, canonMembers (canonMembers members) = canonMembers members
  | [] => rfl
  | (_, v) :: members => by
      rw [canonMembers, canonMembers, canon_canon v, canonMembers_canonMembers members]

end

/-- How often a key occurs. -/
def occurrences (members : List (String × Value)) (key : String) : Nat :=
  (members.map Prod.fst).count key

theorem occurrences_canon (members : List (String × Value)) (key : String) :
    occurrences ((canonMembers members).insertionSort ByKey) key = occurrences members key := by
  have keys : (canonMembers members).map Prod.fst = members.map Prod.fst := by
    rw [canonMembers_eq, List.map_map]
    rfl
  rw [occurrences, ((List.perm_insertionSort ByKey _).map _).count_eq, keys, occurrences]

end Value

open Value

/-- A reader that the order of members does not matter to. -/
structure Reader (α : Type) where
  read : Value → Option α
  read_canon : ∀ v, read v.canon = read v

namespace Reader

attribute [simp] read_canon

variable {α β : Type}

/-- What is read of a value is read of every value with the same sorted form. -/
theorem read_congr (r : Reader α) {v w : Value} (same : v.canon = w.canon) : r.read v = r.read w := by
  rw [← r.read_canon v, same, r.read_canon]

/-- The value itself, its members sorted. -/
def whole : Reader Value where
  read v := some v.canon
  read_canon v := by rw [canon_canon]

def bool : Reader Bool where
  read
    | .bool b => some b
    | _ => none
  read_canon v := by cases v <;> rfl

def text : Reader String where
  read
    | .text s => some s
    | _ => none
  read_canon v := by cases v <;> rfl

/-- An integer from `low` up to but not including `high`. -/
def int (low high : Int) : Reader Int where
  read
    | .int n => if low ≤ n ∧ n < high then some n else none
    | _ => none
  read_canon v := by cases v <;> rfl

def list (r : Reader α) : Reader (List α) where
  read
    | .array values => values.mapM r.read
    | _ => none
  read_canon v := by
    cases v with
    | array values =>
        simp only [canon, canonAll_eq, List.mapM_map]
        congr 1
        exact funext r.read_canon
    | _ => rfl

def refine (r : Reader α) (f : α → Option β) : Reader β where
  read v := (r.read v).bind f
  read_canon v := by rw [r.read_canon]

@[simp] theorem bool_read (b : Bool) : bool.read (.bool b) = some b := rfl

@[simp] theorem text_read (s : String) : text.read (.text s) = some s := rfl

theorem int_read {low high n : Int} (inside : low ≤ n ∧ n < high) :
    (int low high).read (.int n) = some n := if_pos inside

theorem list_read_forall₂ (r : Reader α) {values : List Value} {l : List α}
    (each : List.Forall₂ (fun v a => r.read v = some a) values l) :
    r.list.read (.array values) = some l := by
  change values.mapM r.read = some l
  induction each with
  | nil => rfl
  | cons first _ ih =>
      rw [List.mapM_cons, first, ih]
      rfl

theorem list_read_map (r : Reader α) {write : β → Value} {value : β → α} {l : List β}
    (each : ∀ b ∈ l, r.read (write b) = some (value b)) :
    r.list.read (.array (l.map write)) = some (l.map value) := by
  refine r.list_read_forall₂ ?_
  rw [List.forall₂_map_left_iff, List.forall₂_map_right_iff, List.forall₂_same]
  exact each

theorem list_read (r : Reader α) {write : α → Value} {l : List α}
    (each : ∀ a ∈ l, r.read (write a) = some a) : r.list.read (.array (l.map write)) = some l := by
  have read : r.list.read (.array (l.map write)) = some (l.map id) := r.list_read_map each
  rwa [List.map_id] at read

theorem refine_read (r : Reader α) {f : α → Option β} {v : Value} {a : α}
    (read : r.read v = some a) : (r.refine f).read v = f a := by
  change (r.read v).bind f = f a
  rw [read, Option.bind_some]

/-! ## Fields -/

/-- A field that must be there. -/
def required (r : Reader α) (slot : Option Value) : Option α := slot.bind r.read

/-- A field that may be absent or `null`. -/
def optional (r : Reader α) : Option Value → Option (Option α)
  | none | some .null => some none
  | some v => (r.read v).map some

/-- A field that has a default when it is absent. -/
def orElse (r : Reader α) (default : α) : Option Value → Option α
  | none => some default
  | some v => r.read v

/-- A field that has a default when it is absent or `null`. -/
def orNull (r : Reader α) (default : α) (slot : Option Value) : Option α :=
  (r.optional slot).map fun o => o.getD default

@[simp] theorem required_canon (r : Reader α) (slot : Option Value) :
    r.required (slot.map canon) = r.required slot := by
  cases slot with
  | none => rfl
  | some v => exact r.read_canon v

@[simp] theorem optional_canon (r : Reader α) (slot : Option Value) :
    r.optional (slot.map canon) = r.optional slot := by
  cases slot with
  | none => rfl
  | some v =>
      cases v with
      | null => rfl
      | _ => exact congrArg (Option.map some) (r.read_canon _)

@[simp] theorem orNull_canon (r : Reader α) (default : α) (slot : Option Value) :
    r.orNull default (slot.map canon) = r.orNull default slot := by
  rw [orNull, optional_canon, orNull]

@[simp] theorem orElse_canon (r : Reader α) (default : α) (slot : Option Value) :
    r.orElse default (slot.map canon) = r.orElse default slot := by
  cases slot with
  | none => rfl
  | some v => exact r.read_canon v

@[simp] theorem required_some (r : Reader α) (v : Value) : r.required (some v) = r.read v := by
  rw [required, Option.bind_some]

@[simp] theorem orElse_some (r : Reader α) (default : α) (v : Value) :
    r.orElse default (some v) = r.read v := by
  rw [orElse]

theorem orNull_some (r : Reader α) (default : α) {v : Value} (plain : v ≠ .null) :
    r.orNull default (some v) = r.read v := by
  rw [orNull, optional]
  · rw [Option.map_map]
    exact Option.map_id'
  · exact plain

theorem optional_map_value (r : Reader α) {write : β → Value} {value : β → α}
    (plain : ∀ b, write b ≠ .null) {o : Option β}
    (each : ∀ b ∈ o, r.read (write b) = some (value b)) :
    r.optional (o.map write) = some (o.map value) := by
  cases o with
  | none => rfl
  | some b =>
      rw [Option.map_some, optional, each b rfl]
      · rfl
      · exact plain b

theorem optional_map (r : Reader α) {write : α → Value} (plain : ∀ a, write a ≠ .null)
    {o : Option α} (each : ∀ a ∈ o, r.read (write a) = some a) :
    r.optional (o.map write) = some o := by
  have read : r.optional (o.map write) = some (o.map id) := r.optional_map_value plain each
  rwa [Option.map_id] at read

/-- An array of two values. -/
def pair (r : Reader α) (t : Reader β) : Reader (α × β) where
  read
    | .array [v, w] => (r.read v).bind fun a => (t.read w).map fun b => (a, b)
    | _ => none
  read_canon v := by
    cases v with
    | array values =>
        simp only [canon, canonAll_eq]
        match values with
        | [] | [_] | _ :: _ :: _ :: _ => rfl
        | [v, w] => simp only [List.map_cons, List.map_nil, read_canon]
    | _ => rfl

theorem pair_read {r : Reader α} {t : Reader β} {v w : Value} {a : α} {b : β}
    (first : r.read v = some a) (second : t.read w = some b) :
    (r.pair t).read (.array [v, w]) = some (a, b) := by
  change (r.read v).bind _ = _
  rw [first, Option.bind_some, second, Option.map_some]

@[simp] theorem optional_text (o : Option String) : text.optional (o.map .text) = some o :=
  text.optional_map (fun _ => by simp) fun _ _ => rfl

theorem optional_int {low high : Int} {o : Option Int} (inside : ∀ n ∈ o, low ≤ n ∧ n < high) :
    (int low high).optional (o.map .int) = some o :=
  (int low high).optional_map (fun _ => by simp) fun n mem => int_read (inside n mem)

@[simp] theorem list_text (l : List String) : text.list.read (.array (l.map .text)) = some l :=
  text.list_read fun _ _ => rfl

end Reader

/-! ## Records -/

/-- How a record finds its fields in a value. -/
structure Slots where
  find : Value → Option (String → Option Value)
  find_canon : ∀ v, find v.canon = (find v).map fun slots key => (slots key).map canon

/-- The reader of a record from its fields. -/
def Reader.record {α : Type} (slots : Slots) (fields : (String → Option Value) → Option α)
    (order : ∀ s, fields (fun key => (s key).map canon) = fields s) : Reader α where
  read v := (slots.find v).bind fields
  read_canon v := by
    rw [slots.find_canon, Option.bind_map]
    exact congrArg _ (funext order)

/-- The fields of an object, by key. -/
def Slots.keyed : Slots where
  find
    | .object members => some (lookup members)
    | _ => none
  find_canon v := by
    cases v with
    | object members => exact congrArg some (funext (lookup_canon members))
    | _ => rfl

/-- The fields of an object, by key, or those of an array, by position; no field occurs twice. -/
def Slots.derived (names : List String) : Slots where
  find
    | .object members =>
        if ∀ name ∈ names, occurrences members name ≤ 1 then some (lookup members) else none
    | .array values =>
        if values.length ≤ names.length then some fun key => values[names.idxOf key]? else none
    | _ => none
  find_canon v := by
    cases v with
    | object members =>
        simp only [canon, occurrences_canon]
        split
        · exact congrArg some (funext (lookup_canon members))
        · rfl
    | array values =>
        simp only [canon, canonAll_eq, List.length_map, List.getElem?_map]
        split <;> rfl
    | _ => rfl

/-! ## Writing a record -/

/-- The fields that have a value. -/
def present (fields : List (String × Option Value)) : List (String × Value) :=
  fields.filterMap fun f => f.2.map fun v => (f.1, v)

theorem present_cons_none (name : String) (fields : List (String × Option Value)) :
    present ((name, none) :: fields) = present fields := rfl

theorem present_cons_some (name : String) (v : Value) (fields : List (String × Option Value)) :
    present ((name, some v) :: fields) = (name, v) :: present fields := rfl

/-- The object of a record; a field without a value is left out. -/
def written (fields : List (String × Option Value)) : Value := .object (present fields)

/-- The value of a field. -/
def field : List (String × Option Value) → String → Option Value
  | [], _ => none
  | f :: fields, key => if f.1 = key then f.2 else field fields key

theorem field_absent {fields : List (String × Option Value)} {key : String}
    (absent : key ∉ fields.map Prod.fst) : field fields key = none := by
  induction fields with
  | nil => rfl
  | cons f fields ih =>
      rw [List.map_cons, List.mem_cons, not_or] at absent
      rw [field, if_neg (Ne.symm absent.1), ih absent.2]

theorem lookup_written {fields : List (String × Option Value)}
    (distinct : (fields.map Prod.fst).Nodup) (key : String) :
    lookup (present fields) key = field fields key := by
  induction fields with
  | nil => rfl
  | cons f fields ih =>
      obtain ⟨fresh, later⟩ := List.nodup_cons.mp distinct
      obtain ⟨name, value⟩ := f
      specialize ih later
      rw [field]
      cases value with
      | none =>
          rw [present_cons_none, ih]
          split
          · rename_i same
            exact field_absent (same ▸ fresh)
          · rfl
      | some v =>
          rw [present_cons_some, lookup, List.find?_cons]
          split
          · rename_i same
            rw [if_pos (of_decide_eq_true same)]
            rfl
          · rename_i other
            rw [if_neg (of_decide_eq_false other), ← ih, lookup]

theorem keys_present_sublist (fields : List (String × Option Value)) :
    ((present fields).map Prod.fst).Sublist (fields.map Prod.fst) := by
  induction fields with
  | nil => exact .slnil
  | cons f fields ih =>
      obtain ⟨name, value⟩ := f
      cases value with
      | none => exact ih.cons name
      | some v => exact ih.cons_cons name

theorem Slots.keyed_written {fields : List (String × Option Value)}
    (distinct : (fields.map Prod.fst).Nodup) :
    Slots.keyed.find (written fields) = some (field fields) :=
  congrArg some (funext (lookup_written distinct))

theorem Slots.derived_written {fields : List (String × Option Value)} (names : List String)
    (distinct : (fields.map Prod.fst).Nodup) :
    (Slots.derived names).find (written fields) = some (field fields) := by
  have once : ∀ name ∈ names, occurrences (present fields) name ≤ 1 := fun name _ =>
    List.nodup_iff_count_le_one.mp (distinct.sublist (keys_present_sublist fields)) name
  exact (if_pos once).trans (congrArg some (funext (lookup_written distinct)))

/-- A record is read from the fields it was written with. -/
theorem Reader.record_written {α : Type} {slots : Slots} {f : (String → Option Value) → Option α}
    {order} {fields : List (String × Option Value)}
    (found : slots.find (written fields) = some (field fields)) :
    (Reader.record slots f order).read (written fields) = f (field fields) := by
  change (slots.find (written fields)).bind f = f (field fields)
  rw [found, Option.bind_some]

end Serial
