import Mathlib

/-!
# Texts by lines and by separators

A text is a list of characters. `unlines` ends every line with a line break, and splitting at line
breaks takes it apart again. `strip` drops the matching characters at both ends; a text that neither
begins nor ends with one is left alone.
-/

namespace Sentinel.Lines

variable {α : Type*} {p : α → Bool}

/-! ## Both ends -/

/-- Drop the matching elements at both ends. -/
def strip (p : α → Bool) (l : List α) : List α := ((l.dropWhile p).reverse.dropWhile p).reverse

/-- Neither the first nor the last element matches. -/
def Bare (p : α → Bool) (l : List α) : Prop :=
  (∀ x, l.head? = some x → p x = false) ∧ ∀ x, l.getLast? = some x → p x = false

theorem dropWhile_eq_self {l : List α} (first : ∀ x, l.head? = some x → p x = false) :
    l.dropWhile p = l := by
  refine List.dropWhile_eq_self_iff.mpr fun inside => ?_
  rw [first l[0] (by rw [List.head?_eq_getElem?, List.getElem?_eq_getElem inside])]
  exact Bool.false_ne_true

theorem strip_of_bare {l : List α} (bare : Bare p l) : strip p l = l := by
  rw [strip, dropWhile_eq_self bare.1, dropWhile_eq_self, List.reverse_reverse]
  intro x first
  rw [List.head?_reverse] at first
  exact bare.2 x first

theorem bare_strip (l : List α) : Bare p (strip p l) := by
  constructor
  · intro x first
    rw [strip, List.head?_reverse] at first
    have suffix : (l.dropWhile p).reverse.dropWhile p <:+ (l.dropWhile p).reverse :=
      List.dropWhile_suffix p
    -- what is left at the right end has its first element where the left end was dropped
    have kept : (l.dropWhile p).head? = some x := by
      obtain ⟨dropped, whole⟩ := suffix
      have last : (l.dropWhile p).reverse.getLast? = some x := by
        rw [← whole, List.getLast?_append, first, Option.some_or]
      rwa [List.getLast?_reverse] at last
    simpa only [kept] using List.head?_dropWhile_not p l
  · intro x last
    rw [strip, List.getLast?_reverse] at last
    simpa only [last] using List.head?_dropWhile_not p (l.dropWhile p).reverse

theorem strip_strip (l : List α) : strip p (strip p l) = strip p l :=
  strip_of_bare (bare_strip l)

/-- A matching element before the text is dropped with the others. -/
theorem strip_cons {x : α} (drop : p x = true) (l : List α) : strip p (x :: l) = strip p l := by
  rw [strip, List.dropWhile_cons_of_pos drop, strip]

theorem mem_of_mem_strip {l : List α} {x : α} (mem : x ∈ strip p l) : x ∈ l := by
  rw [strip, List.mem_reverse] at mem
  have inner := (List.dropWhile_suffix p).subset mem
  exact (List.dropWhile_suffix p).subset (List.mem_reverse.mp inner)

/-- What is dropped on either side matches. -/
theorem strip_split (l : List α) :
    ∃ before after, l = before ++ strip p l ++ after ∧ (∀ x ∈ before, p x = true) ∧
      ∀ x ∈ after, p x = true := by
  refine ⟨l.takeWhile p, ((l.dropWhile p).reverse.takeWhile p).reverse, ?_, ?_, ?_⟩
  · have right : (l.dropWhile p).reverse =
        (l.dropWhile p).reverse.takeWhile p ++ (l.dropWhile p).reverse.dropWhile p :=
      List.takeWhile_append_dropWhile.symm
    have whole : l.dropWhile p = strip p l ++ ((l.dropWhile p).reverse.takeWhile p).reverse := by
      have back := congrArg List.reverse right
      rwa [List.reverse_reverse, List.reverse_append] at back
    rw [List.append_assoc, ← whole]
    exact List.takeWhile_append_dropWhile.symm
  · intro x mem
    exact List.mem_takeWhile_imp mem
  · intro x mem
    exact List.mem_takeWhile_imp (List.mem_reverse.mp mem)

/-- So are matching elements at either end. -/
theorem strip_append {before after : List α} (left : ∀ x ∈ before, p x = true)
    (right : ∀ x ∈ after, p x = true) (l : List α) :
    strip p (before ++ l ++ after) = strip p l := by
  rw [strip, List.append_assoc, List.dropWhile_append_of_pos left]
  by_cases kept : l.dropWhile p = []
  · have all : ∀ x ∈ l, p x = true := List.dropWhile_eq_nil_iff.mp kept
    rw [List.dropWhile_append_of_pos all, List.dropWhile_eq_nil_iff.mpr right, strip, kept]
  · have some_ : (l ++ after).dropWhile p = l.dropWhile p ++ after := by
      rw [List.dropWhile_append, if_neg (by rwa [List.isEmpty_iff])]
    have ends : ∀ x ∈ after.reverse, p x = true := fun x mem =>
      right x (List.mem_reverse.mp mem)
    rw [some_, List.reverse_append, List.dropWhile_append_of_pos ends, strip]

theorem strip_eq_nil {l : List α} : strip p l = [] ↔ ∀ x ∈ l, p x = true := by
  constructor
  · intro none x mem
    obtain ⟨before, after, whole, left, right⟩ := @strip_split α p l
    rw [none, List.append_nil] at whole
    rw [whole, List.mem_append] at mem
    exact mem.elim (left x) (right x)
  · intro all
    have bare := strip_append (l := []) all (List.forall_mem_nil _)
    rwa [List.append_nil, List.append_nil] at bare

/-! ## Separators -/

section Split

variable [BEq α] [LawfulBEq α] {x : α}

theorem not_mem_of_mem_splitOn {s l : List α} (mem : l ∈ s.splitOn x) : x ∉ l := by
  intro inside
  rw [List.splitOn_eq_splitOnP] at mem
  induction s generalizing l with
  | nil =>
      rw [List.splitOnP_nil, List.mem_singleton] at mem
      subst mem
      cases inside
  | cons y ys ih =>
      rw [List.splitOnP_cons_eq_if_modifyHead] at mem
      obtain ⟨r, rs, split⟩ := List.exists_cons_of_ne_nil (List.splitOnP_ne_nil (· == x) ys)
      by_cases cut : (y == x) = true
      · rw [if_pos cut, List.mem_cons] at mem
        obtain rfl | mem := mem
        · cases inside
        · exact ih mem inside
      · rw [if_neg cut, split, List.modifyHead_cons, List.mem_cons] at mem
        obtain rfl | mem := mem
        · obtain rfl | inside := List.mem_cons.mp inside
          · exact cut (beq_self_eq_true x)
          · exact ih (split ▸ List.mem_cons_self) inside
        · exact ih (split ▸ List.mem_cons_of_mem _ mem) inside

omit [BEq α] [LawfulBEq α] in
theorem mem_intercalate {sep l : List α} {ls : List (List α)} {y : α} (mem : l ∈ ls)
    (inside : y ∈ l) : y ∈ sep.intercalate ls := by
  induction ls with
  | nil => cases mem
  | cons a ls ih =>
      cases ls with
      | nil =>
          rw [List.mem_singleton] at mem
          rwa [List.intercalate_singleton, ← mem]
      | cons b ls =>
          rw [List.intercalate_cons_cons]
          obtain rfl | mem := List.mem_cons.mp mem
          · exact List.mem_append_left _ (List.mem_append_left _ inside)
          · exact List.mem_append_right _ (ih mem)

/-- A piece holds what the text holds. -/
theorem mem_of_mem_splitOn {s l : List α} {y : α} (mem : l ∈ s.splitOn x) (inside : y ∈ l) :
    y ∈ s := by
  have whole : [x].intercalate (s.splitOn x) = s := List.intercalate_splitOn x
  rw [← whole]
  exact mem_intercalate mem inside

/-- Each of the lines, followed by the break. -/
def unlines (x : α) (lines : List (List α)) : List α := lines.flatMap fun l => l ++ [x]

/-- A first line without the break is cut off. -/
theorem splitOn_append_cons {l : List α} (clean : x ∉ l) (rest : List α) :
    (l ++ x :: rest).splitOn x = l :: rest.splitOn x := by
  have plain : ∀ y ∈ l, (y == x) = false := by
    intro y mem
    exact beq_false_of_ne fun same => clean (same ▸ mem)
  rw [List.splitOn_eq_splitOnP,
    List.splitOnP_append_cons_of_forall_mem plain x (beq_self_eq_true x),
    ← List.splitOn_eq_splitOnP]

theorem splitOn_of_notMem {l : List α} (clean : x ∉ l) : l.splitOn x = [l] := by
  have plain : ∀ y ∈ l, (y == x) = false := by
    intro y mem
    exact beq_false_of_ne fun same => clean (same ▸ mem)
  rw [List.splitOn_eq_splitOnP, List.splitOnP_eq_singleton plain]

/-- A break parts the pieces before it from those behind it. -/
theorem splitOn_append_break (a b : List α) :
    (a ++ x :: b).splitOn x = a.splitOn x ++ b.splitOn x := by
  rw [List.splitOn_eq_splitOnP, List.splitOn_eq_splitOnP, List.splitOn_eq_splitOnP]
  exact List.splitOnP_append_cons a b (beq_self_eq_true x)

/-- The lines come back, with nothing after the last break. -/
theorem splitOn_unlines {lines : List (List α)} (clean : ∀ l ∈ lines, x ∉ l) :
    (unlines x lines).splitOn x = lines ++ [[]] := by
  induction lines with
  | nil => rfl
  | cons l lines ih =>
      obtain ⟨first, others⟩ := List.forall_mem_cons.mp clean
      rw [unlines, List.flatMap_cons, List.append_assoc, List.singleton_append,
        splitOn_append_cons first, List.cons_append]
      exact congrArg (l :: ·) (ih others)

end Split

end Sentinel.Lines
