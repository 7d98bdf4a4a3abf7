import Sentinel.Lib.Lines

/-!
# Texts cut at a separator

The pieces of a text are `List.splitOn`. Joining any last pieces gives back a text with just
these pieces, and the pieces of one text end those of another exactly if it is the text, or
what follows a separator in it.
-/

namespace Labels

variable {α : Type*} [DecidableEq α] {sep : α} {a b : List α} {ls ms : List (List α)}

/-- Some last pieces are the pieces of the text they make. -/
theorem splitOn_intercalate_suffix (last : ls <:+ a.splitOn sep) (nonempty : ls ≠ []) :
    ([sep].intercalate ls).splitOn sep = ls :=
  List.splitOn_intercalate sep (fun _ mem => Sentinel.Lines.not_mem_of_mem_splitOn (last.subset mem)) nonempty

omit [DecidableEq α] in
theorem intercalate_append (left : ls ≠ []) (right : ms ≠ []) :
    [sep].intercalate (ls ++ ms) = [sep].intercalate ls ++ sep :: [sep].intercalate ms := by
  induction ls with
  | nil => exact absurd rfl left
  | cons l ls ih =>
      cases ls with
      | nil =>
          obtain ⟨m, ms, rfl⟩ := List.exists_cons_of_ne_nil right
          simp [List.intercalate]
      | cons l' ls =>
          have rest := ih (List.cons_ne_nil _ _)
          simp only [List.intercalate, List.cons_append, List.intersperse_cons_cons,
            List.flatten_cons, List.append_assoc] at rest ⊢
          rw [rest]

theorem splitOn_suffix_iff :
    b.splitOn sep <:+ a.splitOn sep ↔ a = b ∨ ∃ c, a = c ++ sep :: b := by
  constructor
  · rintro ⟨front, parts⟩
    have text : a = [sep].intercalate (front ++ b.splitOn sep) := by
      rw [parts, List.intercalate_splitOn]
    by_cases whole : front = []
    · left
      rw [text, whole, List.nil_append, List.intercalate_splitOn]
    · right
      refine ⟨[sep].intercalate front, ?_⟩
      rw [text, intercalate_append whole (List.splitOn_ne_nil _ _), List.intercalate_splitOn]
  · rintro (rfl | ⟨c, rfl⟩)
    · exact List.suffix_rfl
    · rw [List.splitOn_append_cons_self]
      exact List.suffix_append _ _

theorem splitOn_injective : a.splitOn sep = b.splitOn sep ↔ a = b := by
  constructor
  · intro same
    calc a = [sep].intercalate (a.splitOn sep) := (List.intercalate_splitOn sep).symm
      _ = b := by rw [same, List.intercalate_splitOn]
  · rintro rfl
    rfl

end Labels
