import Sentinel.Lib.Lines

/-!
# Files of sections

A configuration file by its lines: a blank line is nothing, `[Name]` begins a section, and
`Key = value` belongs to the section before it. The value is everything behind the first ` = `.
Values end with their lines, so a value that is read has no line break in it, whatever was meant by
the one who wrote it (`parse_clean`). There are no comments: a `#` is a character of its line.
-/

namespace Sentinel.Conf

inductive Line where
  | blank
  | header (name : String)
  | pair (field value : String)
  deriving DecidableEq, Repr

structure Section where
  name : String
  pairs : List (String × String)
  deriving DecidableEq, Repr

/-- What stands before the separator and what stands behind it. -/
def cut (sep : List Char) : List Char → Option (List Char × List Char)
  | [] => none
  | c :: cs =>
      if sep.isPrefixOf (c :: cs) then some ([], (c :: cs).drop sep.length)
      else (cut sep cs).map fun found => (c :: found.1, found.2)

/-- `str::split_once` on a character. -/
def splitOnce (c : Char) (s : List Char) : Option (List Char × List Char) := cut [c] s

def parseLine (l : List Char) : Option Line :=
  match l with
  | [] => some .blank
  | '[' :: rest =>
      if rest.getLast? = some ']' then some (.header (String.ofList rest.dropLast)) else none
  | _ => (cut " = ".toList l).map fun found =>
      .pair (String.ofList found.1) (String.ofList found.2)

/-- The pairs before the first header, and the sections. -/
def parseLines : List (List Char) → Option (List (String × String) × List Section)
  | [] => some ([], [])
  | l :: ls =>
      match parseLine l, parseLines ls with
      | some .blank, some found => some found
      | some (.header name), some (pairs, sections) => some ([], ⟨name, pairs⟩ :: sections)
      | some (.pair field value), some (pairs, sections) =>
          some ((field, value) :: pairs, sections)
      | _, _ => none

/-- The sections of a file. -/
def parse (text : String) : Option (List Section) :=
  match parseLines (text.toList.splitOn '\n') with
  | some ([], sections) => some sections
  | _ => none

theorem mem_of_cut {sep l : List Char} {found : List Char × List Char}
    (read : cut sep l = some found) : ∀ c ∈ found.2, c ∈ l := by
  induction l generalizing found with
  | nil => cases read
  | cons x xs ih =>
      rw [cut] at read
      split at read
      · cases read
        intro c mem
        exact List.mem_of_mem_drop mem
      · cases inner : cut sep xs with
        | none =>
            rw [inner] at read
            cases read
        | some rest =>
            rw [inner] at read
            cases read
            intro c mem
            exact List.mem_cons_of_mem x (ih inner c mem)

theorem parseLine_clean {l : List Char} (clean : '\n' ∉ l) {field value : String}
    (read : parseLine l = some (.pair field value)) : '\n' ∉ value.toList := by
  unfold parseLine at read
  split at read
  · cases read
  · split at read <;> cases read
  · cases found : cut " = ".toList l with
    | none =>
        rw [found] at read
        cases read
    | some pieces =>
        rw [found] at read
        cases read
        rw [String.toList_ofList]
        exact fun inside => clean (mem_of_cut found _ inside)

theorem parseLines_clean {ls : List (List Char)} (clean : ∀ l ∈ ls, '\n' ∉ l)
    {pairs : List (String × String)} {sections : List Section}
    (read : parseLines ls = some (pairs, sections)) :
    (∀ pair ∈ pairs, '\n' ∉ pair.2.toList) ∧
      ∀ s ∈ sections, ∀ pair ∈ s.pairs, '\n' ∉ pair.2.toList := by
  induction ls generalizing pairs sections with
  | nil =>
      cases read
      exact ⟨List.forall_mem_nil _, List.forall_mem_nil _⟩
  | cons l ls ih =>
      obtain ⟨first, others⟩ := List.forall_mem_cons.mp clean
      rw [parseLines] at read
      split at read
      · rename_i found _ rest
        cases read
        exact ih others rest
      · rename_i name pairs' sections' _ rest
        cases read
        obtain ⟨before, after⟩ := ih others rest
        exact ⟨List.forall_mem_nil _, List.forall_mem_cons.mpr ⟨before, after⟩⟩
      · rename_i field value pairs' sections' here rest
        cases read
        obtain ⟨before, after⟩ := ih others rest
        exact ⟨List.forall_mem_cons.mpr ⟨parseLine_clean first here, before⟩, after⟩
      · cases read

/-- No value that is read has a line break in it. -/
theorem parse_clean {text : String} {sections : List Section}
    (read : parse text = some sections) :
    ∀ s ∈ sections, ∀ pair ∈ s.pairs, '\n' ∉ pair.2.toList := by
  unfold parse at read
  split at read
  · rename_i found lines
    cases read
    exact (parseLines_clean (fun l mem => Lines.not_mem_of_mem_splitOn mem) lines).2
  · cases read

/-- A file is read line by line. -/
theorem parse_unlines {lines : List (List Char)} (clean : ∀ l ∈ lines, '\n' ∉ l)
    {sections : List Section} (read : parseLines (lines ++ [[]]) = some ([], sections)) :
    parse (String.ofList (Lines.unlines '\n' lines)) = some sections := by
  rw [parse, String.toList_ofList, Lines.splitOn_unlines clean, read]

end Sentinel.Conf
