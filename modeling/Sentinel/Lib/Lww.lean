import Mathlib

/-!
# Last-writer-wins entries with deletion marks

A replica holds for each key a value with the time it was written, the time it was
deleted, or nothing. `rank` orders these possibilities: later times first, and of
two writes at one time a deletion over a value. `join` keeps the higher rank and,
where the ranks agree, what was there.

`Leads S e` says that the entry `e` is what a set `S` of writes comes to: it is one
of them and outranks all the others. An entry that leads is determined by its set,
so two replicas that know the same writes and whose entries lead them agree.
-/

namespace Lww

/-- What is held for one key. -/
inductive Entry (τ α : Type) where
  | item (time : τ) (value : α)
  | tombstone (time : τ)
  deriving DecidableEq, Repr

variable {τ α : Type}

/-- The live value, if the key has one. -/
def live : Option (Entry τ α) → Option α
  | some (.item _ value) => some value
  | _ => none

/-- The time of the deletion, if the key is marked as deleted. -/
def buried : Option (Entry τ α) → Option τ
  | some (.tombstone time) => some time
  | _ => none

/-- The time of a write and whether it is a deletion. -/
def Entry.rank : Entry τ α → τ ×ₗ Bool
  | .item t _ => toLex (t, false)
  | .tombstone t => toLex (t, true)

def rank : Option (Entry τ α) → WithBot (τ ×ₗ Bool)
  | none => ⊥
  | some e => e.rank

@[simp] theorem rank_none : rank (none : Option (Entry τ α)) = ⊥ := rfl

@[simp] theorem rank_some (e : Entry τ α) : rank (some e) = (e.rank : WithBot (τ ×ₗ Bool)) := rfl

variable [LinearOrder τ]

theorem item_le_item {t u : τ} {a b : α} :
    rank (some (.item t a)) ≤ rank (some (.item u b)) ↔ t ≤ u := by
  simp only [rank_some, WithBot.coe_le_coe, Entry.rank, Prod.Lex.toLex_le_toLex, le_refl, and_true]
  exact le_iff_lt_or_eq.symm

theorem item_le_tombstone {t u : τ} {a : α} :
    rank (some (.item t a)) ≤ rank (some (.tombstone u : Entry τ α)) ↔ t ≤ u := by
  simp only [rank_some, WithBot.coe_le_coe, Entry.rank, Prod.Lex.toLex_le_toLex, Bool.false_le,
    and_true]
  exact le_iff_lt_or_eq.symm

theorem tombstone_le_item {t u : τ} {a : α} :
    rank (some (.tombstone t : Entry τ α)) ≤ rank (some (.item u a)) ↔ t < u := by
  simp [Entry.rank, Prod.Lex.toLex_le_toLex]

theorem tombstone_le_tombstone {t u : τ} :
    rank (some (.tombstone t : Entry τ α)) ≤ rank (some (.tombstone u : Entry τ α)) ↔ t ≤ u := by
  simp only [rank_some, WithBot.coe_le_coe, Entry.rank, Prod.Lex.toLex_le_toLex, le_refl, and_true]
  exact le_iff_lt_or_eq.symm

theorem item_lt_item {t u : τ} {a b : α} :
    rank (some (.item t a)) < rank (some (.item u b)) ↔ t < u := by
  rw [← not_le, item_le_item, not_le]

theorem item_lt_tombstone {t u : τ} {a : α} :
    rank (some (.item t a)) < rank (some (.tombstone u : Entry τ α)) ↔ t ≤ u := by
  rw [← not_le, tombstone_le_item, not_lt]

theorem tombstone_lt_item {t u : τ} {a : α} :
    rank (some (.tombstone t : Entry τ α)) < rank (some (.item u a)) ↔ t < u := by
  rw [← not_le, item_le_tombstone, not_le]

theorem tombstone_lt_tombstone {t u : τ} :
    rank (some (.tombstone t : Entry τ α)) < rank (some (.tombstone u : Entry τ α)) ↔ t < u := by
  rw [← not_le, tombstone_le_tombstone, not_le]

theorem none_lt_some (e : Entry τ α) : rank (none : Option (Entry τ α)) < rank (some e) :=
  WithBot.bot_lt_coe _

/-- The higher rank wins; on a tie the first argument stays. -/
def join (a b : Option (Entry τ α)) : Option (Entry τ α) := if rank a < rank b then b else a

@[simp] theorem join_none (a : Option (Entry τ α)) : join a none = a := by
  simp [join]

theorem join_of_lt {a b : Option (Entry τ α)} (h : rank a < rank b) : join a b = b := if_pos h

theorem join_of_le {a b : Option (Entry τ α)} (h : rank b ≤ rank a) : join a b = a :=
  if_neg (not_lt.mpr h)

/-- The entry is one of the writes and outranks the others. -/
structure Leads (S : Set (Entry τ α)) (e : Option (Entry τ α)) : Prop where
  mem : ∀ x, e = some x → x ∈ S
  top : ∀ x ∈ S, e = some x ∨ rank (some x) < rank e

namespace Leads

variable {S T : Set (Entry τ α)} {a b : Option (Entry τ α)}

theorem empty : Leads (∅ : Set (Entry τ α)) none := ⟨nofun, nofun⟩

theorem le (h : Leads S a) {x : Entry τ α} (hx : x ∈ S) : rank (some x) ≤ rank a := by
  obtain rfl | lower := h.top x hx
  · exact le_rfl
  · exact lower.le

/-- A set of writes comes to one entry. -/
theorem unique (ha : Leads S a) (hb : Leads S b) : a = b := by
  have below : ∀ {a b}, Leads S a → Leads S b → rank a ≤ rank b := by
    intro a b ha hb
    cases a with
    | none => exact bot_le
    | some x => exact hb.le (ha.mem x rfl)
  have same := le_antisymm (below ha hb) (below hb ha)
  cases a with
  | none =>
      cases b with
      | none => rfl
      | some y => exact absurd same (WithBot.bot_ne_coe)
  | some x =>
      obtain here | lower := hb.top x (ha.mem x rfl)
      · exact here.symm
      · exact absurd same lower.ne

/-- A write that supersedes the entry. -/
theorem insert (h : Leads S a) {x : Entry τ α} (newer : rank a < rank (some x) ∨ a = some x) :
    Leads (Insert.insert x S) (some x) := by
  constructor
  · rintro y eq
    cases eq
    exact Set.mem_insert _ _
  · rintro y (rfl | mem)
    · exact .inl rfl
    obtain newer | rfl := newer
    · exact .inr (lt_of_le_of_lt (h.le mem) newer)
    · exact h.top y mem

/-- Two sets of writes whose entries do not tie come to the join. -/
theorem union (ha : Leads S a) (hb : Leads T b) (tie : rank a = rank b → a = b) :
    Leads (S ∪ T) (join a b) := by
  by_cases h : rank a < rank b
  · rw [join_of_lt h]
    refine ⟨fun x eq => .inr (hb.mem x eq), ?_⟩
    rintro x (mem | mem)
    · exact .inr (lt_of_le_of_lt (ha.le mem) h)
    · exact hb.top x mem
  · rw [join_of_le (not_lt.mp h)]
    refine ⟨fun x eq => .inl (ha.mem x eq), ?_⟩
    rintro x (mem | mem)
    · exact ha.top x mem
    obtain lower | same := lt_or_eq_of_le (not_lt.mp h)
    · exact .inr (lt_of_le_of_lt (hb.le mem) lower)
    · rw [tie same.symm]
      exact hb.top x mem

end Leads

end Lww
