import Mathlib

/-!
# Sorting by a key

`sortDesc` is the stable sort that puts the greatest key first. Elements of one key keep their
order, so what a sort does with a second criterion that it does not look at can be read off the
list before the sort (`pairwise_first_iff`).
-/

namespace Ranking

variable {α β : Type} [LinearOrder β] (key : α → β)

/-- A stable sort, the greatest key first. -/
def sortDesc (l : List α) : List α := l.mergeSort fun a b => decide (key b ≤ key a)

variable {key} {l : List α}

theorem desc_trans (a b c : α) (first : decide (key b ≤ key a) = true)
    (second : decide (key c ≤ key b) = true) : decide (key c ≤ key a) = true := by
  rw [decide_eq_true_iff] at *
  exact second.trans first

theorem desc_total (a b : α) : (decide (key b ≤ key a) || decide (key a ≤ key b)) = true := by
  rw [Bool.or_eq_true, decide_eq_true_iff, decide_eq_true_iff]
  exact le_total (key b) (key a)

theorem perm_sortDesc : (sortDesc key l).Perm l := List.mergeSort_perm l _

theorem mem_sortDesc {a : α} : a ∈ sortDesc key l ↔ a ∈ l := perm_sortDesc.mem_iff

theorem pairwise_sortDesc : (sortDesc key l).Pairwise fun a b => key b ≤ key a := by
  exact (List.pairwise_mergeSort desc_trans desc_total l).imp fun le => of_decide_eq_true le

/-- Two elements in the order of their keys keep their order. -/
theorem pair_sublist_sortDesc {a b : α} (le : key b ≤ key a) (sub : [a, b].Sublist l) :
    [a, b].Sublist (sortDesc key l) :=
  List.pair_sublist_mergeSort desc_trans desc_total (decide_eq_true le) sub

/-- The elements of one key. -/
def level (key : α → β) (k : β) (l : List α) : List α := l.filter fun a => decide (key a = k)

theorem mem_level {k : β} {a : α} : a ∈ level key k l ↔ a ∈ l ∧ key a = k := by
  rw [level, List.mem_filter, decide_eq_true_iff]

/-- What keeps the sorted parts of a list in their order keeps the elements of one key so. -/
theorem level_eq {s : List α} (perm : s.Perm l) (kept : ∀ part : List α,
    part.Pairwise (fun a b => key b ≤ key a) → part.Sublist l → part.Sublist s) (k : β) :
    level key k s = level key k l := by
  have sorted : (level key k l).Pairwise fun a b => key b ≤ key a := by
    refine List.pairwise_of_forall_mem_list fun a first b second => ?_
    rw [(mem_level.mp first).2, (mem_level.mp second).2]
  have inside := (kept _ sorted List.filter_sublist).filter fun a => decide (key a = k)
  rw [level, List.filter_filter] at inside
  simp only [Bool.and_self] at inside
  exact (inside.eq_of_length (perm.filter _).length_eq.symm).symm

theorem level_sortDesc (k : β) : level key k (sortDesc key l) = level key k l := by
  refine level_eq perm_sortDesc (fun part sorted sub => ?_) k
  exact List.sublist_mergeSort desc_trans desc_total (sorted.imp decide_eq_true) sub

/-- The sort puts the elements of a class before all others just if no other element has a
greater key, nor the same key and an earlier place. -/
theorem pairwise_first_iff (first : α → Prop) :
    (sortDesc key l).Pairwise (fun a b => first b → first a) ↔
      (∀ a ∈ l, ∀ b ∈ l, ¬ first a → first b → key a ≤ key b) ∧
      l.Pairwise fun a b => key a = key b → first b → first a := by
  constructor
  · intro ordered
    constructor
    · intro a memA b memB other member
      -- two elements stand in one order or the other
      let R := fun x y : α => key y ≤ key x ∧ (first y → first x)
      have sorted : (sortDesc key l).Pairwise R := pairwise_sortDesc.and ordered
      have either : ∀ x ∈ sortDesc key l, R x x ∨ R x x := fun x _ => .inl ⟨le_rfl, id⟩
      have related := List.Pairwise.forall_of_forall_of_flip (R := fun x y => R x y ∨ R y x) either
        (sorted.imp .inl) (sorted.imp .inr)
      obtain ⟨-, impossible⟩ | ⟨le, -⟩ :=
        related (mem_sortDesc.mpr memA) (mem_sortDesc.mpr memB)
      · exact absurd (impossible member) other
      · exact le
    · rw [List.pairwise_iff_forall_sublist] at ordered ⊢
      intro a b sub same
      exact ordered (pair_sublist_sortDesc same.ge sub)
  · rintro ⟨greater, earlier⟩
    rw [List.pairwise_iff_forall_sublist] at earlier ⊢
    intro a b sub member
    by_contra other
    have memA : a ∈ l := mem_sortDesc.mp (sub.mem List.mem_cons_self)
    have memB : b ∈ l := mem_sortDesc.mp (sub.mem (List.mem_cons_of_mem _ List.mem_cons_self))
    have le : key b ≤ key a := List.pairwise_iff_forall_sublist.mp pairwise_sortDesc sub
    have same : key a = key b := le_antisymm (greater a memA b memB other member) le
    have both : [a, b].filter (fun x => decide (key x = key b)) = [a, b] := by simp [same]
    have inside := sub.filter fun x => decide (key x = key b)
    rw [both] at inside
    have before : [a, b].Sublist (level key (key b) l) := by
      rw [← level_sortDesc]
      exact inside
    exact other (earlier (before.trans List.filter_sublist) same member)

/-! ## Another stable sort -/

theorem pairwise_insertionSort_desc :
    (l.insertionSort fun a b => key b ≤ key a).Pairwise fun a b => key b ≤ key a := by
  have total : Std.Total fun a b : α => key b ≤ key a := ⟨fun a b => le_total (key b) (key a)⟩
  have trans : IsTrans α fun a b => key b ≤ key a := ⟨fun _ _ _ first second => second.trans first⟩
  exact List.pairwise_insertionSort _ l

theorem level_insertionSort (k : β) :
    level key k (l.insertionSort fun a b => key b ≤ key a) = level key k l :=
  level_eq (List.perm_insertionSort _ l) (fun _ sorted sub => List.sublist_insertionSort sorted sub) k

/-- A partial map that keeps the keys keeps the elements of one key together. -/
theorem level_filterMap {γ : Type} {key' : γ → β} {f : α → Option γ}
    (keyed : ∀ a x, f a = some x → key' x = key a) (k : β) :
    level key' k (l.filterMap f) = (level key k l).filterMap f := by
  rw [level, level, List.filter_filterMap, List.filterMap_filter]
  refine List.filterMap_congr fun a _ => ?_
  cases value : f a with
  | none => simp
  | some x => by_cases here : key a = k <;> simp [keyed a x value, here]

/-! ## What determines the result -/

/-- Two lists with the greatest keys first are one, if they agree on the elements of each key. -/
theorem eq_of_levels {s t : List α} (sorted : s.Pairwise fun a b => key b ≤ key a)
    (sorted' : t.Pairwise fun a b => key b ≤ key a)
    (same : ∀ k, level key k s = level key k t) : s = t := by
  have mem_iff : ∀ {a}, a ∈ s ↔ a ∈ t := by
    intro a
    have here := congrArg (fun l => a ∈ l) (same (key a))
    simpa only [mem_level, and_true, eq_iff_iff] using here
  induction s generalizing t with
  | nil =>
      cases t with
      | nil => rfl
      | cons b t => exact absurd (mem_iff.mpr List.mem_cons_self) List.not_mem_nil
  | cons a s ih =>
      cases t with
      | nil => exact absurd (mem_iff.mp List.mem_cons_self) List.not_mem_nil
      | cons b t =>
          obtain ⟨first, later⟩ := List.pairwise_cons.mp sorted
          obtain ⟨first', later'⟩ := List.pairwise_cons.mp sorted'
          have le : key b ≤ key a := by
            obtain rfl | mem := List.mem_cons.mp (mem_iff.mpr List.mem_cons_self)
            · exact le_rfl
            · exact first b mem
          have ge : key a ≤ key b := by
            obtain rfl | mem := List.mem_cons.mp (mem_iff.mp List.mem_cons_self)
            · exact le_rfl
            · exact first' a mem
          have equal : key a = key b := le_antisymm ge le
          have heads := same (key b)
          rw [level, level, List.filter_cons, List.filter_cons, if_pos (decide_eq_true equal),
            if_pos (decide_eq_true rfl)] at heads
          obtain rfl := (List.cons.inj heads).1
          have tails : ∀ k, level key k s = level key k t := by
            intro k
            have both := same k
            rw [level, level, List.filter_cons, List.filter_cons] at both
            split at both
            · exact (List.cons.inj both).2
            · exact both
          rw [ih later later' tails]
          intro x
          have here := congrArg (fun l => x ∈ l) (tails (key x))
          simpa only [mem_level, and_true, eq_iff_iff] using here

theorem not_sublist_swap {t : List α} (distinct : t.Nodup) {a b : α} (sub : [a, b].Sublist t) :
    ¬ [b, a].Sublist t := by
  induction t with
  | nil => cases sub
  | cons x t ih =>
      intro swapped
      obtain ⟨fresh, distinct⟩ := List.nodup_cons.mp distinct
      cases sub with
      | cons _ sub =>
          cases swapped with
          | cons _ swapped => exact ih distinct sub swapped
          | cons_cons _ _ => exact fresh (sub.mem (List.mem_cons_of_mem _ List.mem_cons_self))
      | cons_cons _ sub =>
          cases swapped with
          | cons _ swapped =>
              exact fresh (swapped.mem (List.mem_cons_of_mem _ List.mem_cons_self))
          | cons_cons _ _ => exact fresh (sub.mem List.mem_cons_self)

/-- Two lists without repetitions are one, if they have the same elements in the same order. -/
theorem eq_of_same_order {s t : List α} (distinct : s.Nodup) (distinct' : t.Nodup)
    (mem_iff : ∀ a, a ∈ s ↔ a ∈ t) (order : ∀ a b, [a, b].Sublist s → [a, b].Sublist t) :
    s = t := by
  have perm : s.Perm t := (List.perm_ext_iff_of_nodup distinct distinct').mpr mem_iff
  have listed : s.Pairwise fun a b => [a, b].Sublist t :=
    List.pairwise_iff_forall_sublist.mpr fun sub => order _ _ sub
  have listed' : t.Pairwise fun a b => [a, b].Sublist t :=
    List.pairwise_iff_forall_sublist.mpr fun sub => sub
  have antisymm : ∀ a b, a ∈ s → b ∈ t → [a, b].Sublist t → [b, a].Sublist t → a = b :=
    fun a b _ _ first second => absurd second (not_sublist_swap distinct' first)
  exact perm.eq_of_pairwise antisymm listed listed'

end Ranking
