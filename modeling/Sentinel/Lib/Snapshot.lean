import Mathlib

/-!
# What is new since the last reading

A sequence of readings of a collection, compared each with the one before: what a reading
holds that the last one did not is an arrival, and the first reading has none. Nothing is
remembered beyond one reading, so an element that leaves and comes back arrives again.
`not_mem_arrivals_iff` and `count_arrivals_le_one_iff` say when an element never arrives
and when it arrives at most once.
-/

namespace Snapshot

variable {α : Type*} [DecidableEq α]

/-- The arrivals of the readings after `last`, those of the same reading in its order. -/
def arrivals : Option (List α) → List (List α) → List α
  | _, [] => []
  | none, r :: rs => arrivals (some r) rs
  | some last, r :: rs => r.filter (fun a => decide (a ∉ last)) ++ arrivals (some r) rs

/-- An element that was read and then missing is not read again. -/
def NeverReturns (a : α) (rs : List (List α)) : Prop :=
  rs.Triplewise fun x y z => a ∈ x → a ∈ z → a ∈ y

/-- The first reading with the element has it once. -/
def ArrivesOnce (a : α) (rs : List (List α)) : Prop :=
  ∀ r ∈ rs.find? (fun r => decide (a ∈ r)), r.count a ≤ 1

variable {a : α} {r last : List α} {rs : List (List α)}

@[simp] theorem arrivals_nil (seen : Option (List α)) : arrivals seen [] = [] := by
  cases seen <;> rfl

@[simp] theorem arrivals_none : arrivals none (r :: rs) = arrivals (some r) rs := rfl

theorem arrivals_some : arrivals (some last) (r :: rs) =
    r.filter (fun a => decide (a ∉ last)) ++ arrivals (some r) rs := rfl

omit [DecidableEq α] in
theorem neverReturns_cons_of_mem (mem : a ∈ r) :
    NeverReturns a (r :: rs) ↔ rs.Pairwise fun y z => a ∈ z → a ∈ y := by
  rw [NeverReturns, List.triplewise_cons]
  constructor
  · rintro ⟨pairs, -⟩
    exact pairs.imp fun h => h mem
  · intro pairs
    refine ⟨pairs.imp fun h _ => h, ?_⟩
    -- three readings in a row are two, so the pairs decide
    clear mem
    induction pairs with
    | nil => exact .nil
    | cons head tail ih =>
        refine List.triplewise_cons.mpr ⟨?_, ih⟩
        exact tail.imp fun h _ => h

omit [DecidableEq α] in
theorem neverReturns_cons_of_not_mem (new : a ∉ r) :
    NeverReturns a (r :: rs) ↔ NeverReturns a rs := by
  rw [NeverReturns, List.triplewise_cons]
  refine and_iff_right ?_
  induction rs with
  | nil => exact .nil
  | cons r' rs ih => exact List.pairwise_cons.mpr ⟨fun _ _ mem => absurd mem new, ih⟩

/-- After a reading without it, an element arrives with the next reading that has it. -/
theorem not_mem_arrivals_of_not_mem (gone : a ∉ last) :
    a ∉ arrivals (some last) rs ↔ ∀ r ∈ rs, a ∉ r := by
  induction rs generalizing last with
  | nil => simp
  | cons r rs ih =>
      by_cases mem : a ∈ r
      · simp [arrivals_some, mem, gone]
      · simp [arrivals_some, mem, ih mem]

/-- After a reading with it, an element arrives no more if it stays until it leaves for
good. -/
theorem not_mem_arrivals_of_mem (there : a ∈ last) :
    a ∉ arrivals (some last) rs ↔ rs.Pairwise fun y z => a ∈ z → a ∈ y := by
  induction rs generalizing last with
  | nil => simp
  | cons r rs ih =>
      by_cases mem : a ∈ r
      · simp [arrivals_some, there, mem, ih mem, List.pairwise_cons]
      · have rest : (∀ r' ∈ rs, a ∉ r') → rs.Pairwise fun y z => a ∈ z → a ∈ y := by
          intro gone
          exact List.pairwise_of_forall_mem_list fun y _ z memZ back => absurd back (gone z memZ)
        simpa [arrivals_some, there, mem, not_mem_arrivals_of_not_mem mem, List.pairwise_cons]
          using rest

/-- An element of the first reading never arrives exactly if it never returns. -/
theorem not_mem_arrivals_iff (first : a ∈ r) :
    a ∉ arrivals none (r :: rs) ↔ NeverReturns a (r :: rs) := by
  rw [arrivals_none, not_mem_arrivals_of_mem first, neverReturns_cons_of_mem first]

theorem count_arrivals_some_le_one_iff (new : a ∉ last) :
    (arrivals (some last) rs).count a ≤ 1 ↔ NeverReturns a rs ∧ ArrivesOnce a rs := by
  induction rs generalizing last with
  | nil => simp [NeverReturns, ArrivesOnce]
  | cons r rs ih =>
      have split : (arrivals (some last) (r :: rs)).count a =
          r.count a + (arrivals (some r) rs).count a := by
        rw [arrivals_some, List.count_append, List.count_filter (by simpa using new)]
      by_cases mem : a ∈ r
      · have pos : 0 < r.count a := List.count_pos_iff.mpr mem
        have once : ArrivesOnce a (r :: rs) ↔ r.count a ≤ 1 := by
          simp [ArrivesOnce, mem]
        rw [split, once, neverReturns_cons_of_mem mem, ← not_mem_arrivals_of_mem mem,
          ← List.count_eq_zero]
        omega
      · have once : ArrivesOnce a (r :: rs) ↔ ArrivesOnce a rs := by
          simp [ArrivesOnce, mem]
        rw [split, once, neverReturns_cons_of_not_mem mem, List.count_eq_zero_of_not_mem mem,
          Nat.zero_add, ih mem]

/-- Any other element arrives at most once exactly if it never returns and the first reading
with it has it once. -/
theorem count_arrivals_le_one_iff (new : a ∉ r) :
    (arrivals none (r :: rs)).count a ≤ 1 ↔
      NeverReturns a (r :: rs) ∧ ArrivesOnce a (r :: rs) := by
  have once : ArrivesOnce a (r :: rs) ↔ ArrivesOnce a rs := by
    simp [ArrivesOnce, new]
  rw [arrivals_none, count_arrivals_some_le_one_iff new, once, neverReturns_cons_of_not_mem new]

end Snapshot
