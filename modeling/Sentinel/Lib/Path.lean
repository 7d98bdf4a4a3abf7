import Mathlib

/-!
# File names of paths

A path as the standard library of its platform reads it: a prefix on Windows (a drive, a share,
a device, or a verbatim path, in which only backslashes separate), then components between
separators. `fileName` is the last component, `isAbsolute` asks for a root, and `joinParts`
writes parts with slashes, which reads back as the same parts.
-/

namespace Paths

inductive Platform where
  | unix | windows
  deriving DecidableEq, Repr

/-- A slash of either kind. -/
def isSlash (c : Char) : Bool := c == '/' || c == '\\'

/-- What of a path stands behind its prefix. -/
structure Body where
  path : List Char
  verbatim : Bool
  hasPrefix : Bool
  isDrive : Bool
  deriving DecidableEq, Repr

/-- What separates components behind the prefix. -/
def separates (verbatim : Bool) (c : Char) : Bool := if verbatim then c == '\\' else isSlash c

/-- The text without a start, in whose spelling `/` counts as a backslash. -/
def stripStart (start s : List Char) : Option (List Char) :=
  if (s.take start.length).map (fun c => if c = '/' then '\\' else c) = start then
    some (s.drop start.length) else none

/-- The first component. -/
def firstComponent (verbatim : Bool) (s : List Char) : List Char :=
  s.takeWhile fun c => !separates verbatim c

/-- A share: a server and a name, and the length they take. -/
def shareLength (verbatim : Bool) (s : List Char) : Nat :=
  let server := firstComponent verbatim s
  let share := firstComponent verbatim (s.drop (server.length + 1))
  server.length + if share = [] then 0 else 1 + share.length

/-- A drive letter and a colon. -/
def startsWithDrive : List Char → Bool
  | d :: ':' :: _ => d.isAlpha
  | _ => false

/-- `parse_prefix` of Windows. -/
def windowsBody (s : List Char) : Body :=
  match stripStart ['\\', '\\'] s with
  | some t =>
      match stripStart ['?', '\\'] t, stripStart ['.', '\\'] t with
      | some u, _ =>
          if (s.take 4).contains '/' then shareBody s t
          else match stripStart ['U', 'N', 'C', '\\'] u with
            | some v => ⟨s.drop (8 + shareLength true v), true, true, false⟩
            | none =>
                if startsWithDrive u && ((u[2]?).map isSlash).getD true then
                  ⟨s.drop 6, true, true, false⟩
                else ⟨s.drop (4 + (firstComponent true u).length), true, true, false⟩
      | none, some u => ⟨s.drop (4 + (firstComponent false u).length), false, true, false⟩
      | none, none => shareBody s t
  | none =>
      if startsWithDrive s then ⟨s.drop 2, false, true, true⟩ else ⟨s, false, false, false⟩
where
  /-- `\\server\share`, if neither is empty. -/
  shareBody (s t : List Char) : Body :=
    let server := firstComponent false t
    let share := firstComponent false (t.drop (server.length + 1))
    if server = [] ∨ share = [] then ⟨s, false, false, false⟩
    else ⟨s.drop (2 + shareLength false t), false, true, false⟩

/-- What stands behind the prefix, and what separates there. -/
def body : Platform → List Char → List Char × (Char → Bool)
  | .unix, s => (s, fun c => c == '/')
  | .windows, s => ((windowsBody s).path, separates (windowsBody s).verbatim)

/-- The components that are kept: empty ones go, and so do those of a dot, which a verbatim path
keeps. -/
def components (platform : Platform) (s : List Char) : List (List Char) :=
  let verbatim := platform = .windows ∧ (windowsBody s).verbatim = true
  ((body platform s).1.splitOnP (body platform s).2).filter fun p =>
    p ≠ [] ∧ (p ≠ ['.'] ∨ verbatim)

/-- `Path::file_name`. -/
def fileName (platform : Platform) (s : List Char) : Option (List Char) :=
  (components platform s).getLast?.filter fun p => p ≠ ['.'] ∧ p ≠ ['.', '.']

/-- `Path::is_absolute`. -/
def isAbsolute : Platform → List Char → Bool
  | .unix, s => s.head? == some '/'
  | .windows, s =>
      let b := windowsBody s
      b.hasPrefix && (!b.isDrive || (b.path.head?.map isSlash).getD false)

/-! ## Pieces of a text -/

section Pieces

variable {p : Char → Bool} {s l : List Char}

theorem not_of_mem_splitOnP (mem : l ∈ s.splitOnP p) : ∀ c ∈ l, p c = false := by
  induction s generalizing l with
  | nil =>
      rw [List.splitOnP_nil, List.mem_singleton] at mem
      simp [mem]
  | cons x xs ih =>
      rw [List.splitOnP_cons_eq_if_modifyHead] at mem
      obtain ⟨r, rs, split⟩ := List.exists_cons_of_ne_nil (List.splitOnP_ne_nil p xs)
      by_cases cut : p x = true
      · rw [if_pos cut, List.mem_cons] at mem
        obtain rfl | mem := mem
        · simp
        · exact ih mem
      · rw [if_neg cut, split, List.modifyHead_cons, List.mem_cons] at mem
        obtain rfl | mem := mem
        · refine List.forall_mem_cons.mpr ⟨Bool.eq_false_iff.mpr cut, ?_⟩
          exact ih (split ▸ List.mem_cons_self)
        · exact ih (split ▸ List.mem_cons_of_mem _ mem)

/-- The parts with slashes between them. -/
def joinParts (parts : List (List Char)) : List Char := ['/'].intercalate parts

theorem joinParts_cons_cons (a b : List Char) (rest : List (List Char)) :
    joinParts (a :: b :: rest) = a ++ '/' :: joinParts (b :: rest) := by
  simp [joinParts, List.intercalate]

theorem joinParts_singleton (a : List Char) : joinParts [a] = a := by
  simp [joinParts, List.intercalate]

/-- Parts without slashes are read back. -/
theorem splitOnP_joinParts {parts : List (List Char)} (nonempty : parts ≠ [])
    (plain : ∀ a ∈ parts, ∀ c ∈ a, isSlash c = false) :
    (joinParts parts).splitOnP isSlash = parts := by
  induction parts with
  | nil => exact absurd rfl nonempty
  | cons a rest ih =>
      obtain ⟨first, later⟩ := List.forall_mem_cons.mp plain
      cases rest with
      | nil => rw [joinParts_singleton, List.splitOnP_eq_singleton first]
      | cons b rest =>
          rw [joinParts_cons_cons, List.splitOnP_append_cons_of_forall_mem first '/' (by decide),
            ih (List.cons_ne_nil b rest) later]

end Pieces

/-! ## Absolute paths -/

theorem stripStart_slash {start s t : List Char} (stripped : stripStart ('\\' :: start) s = some t) :
    ∃ c rest, s = c :: rest ∧ isSlash c = true := by
  rw [stripStart] at stripped
  split at stripped
  · rename_i same
    cases s with
    | nil => cases same
    | cons c rest =>
        refine ⟨c, rest, rfl, ?_⟩
        rw [List.length_cons, List.take_succ_cons, List.map_cons] at same
        have head := (List.cons.inj same).1
        split at head
        · rename_i slash
          rw [slash]
          rfl
        · rw [head]
          rfl
  · cases stripped

/-- Without a slash in front, only a drive and a slash behind it make a path absolute. -/
theorem isAbsolute_windows_iff {s : List Char} (plain : ∀ c ∈ s.head?, isSlash c = false) :
    isAbsolute .windows s = true ↔
      ∃ d c rest, s = d :: ':' :: c :: rest ∧ d.isAlpha = true ∧ isSlash c = true := by
  have bare : stripStart ['\\', '\\'] s = none := by
    cases stripped : stripStart ['\\', '\\'] s with
    | none => rfl
    | some t =>
        obtain ⟨c, rest, rfl, slash⟩ := stripStart_slash stripped
        rw [plain c rfl] at slash
        cases slash
  have read : isAbsolute .windows s =
      (startsWithDrive s && ((s.drop 2).head?.map isSlash).getD false) := by
    rw [isAbsolute, windowsBody, bare]
    cases drive : startsWithDrive s <;> simp
  rw [read, Bool.and_eq_true]
  constructor
  · rintro ⟨drive, root⟩
    rw [startsWithDrive.eq_def] at drive
    split at drive
    · rename_i d rest
      cases rest with
      | nil => cases root
      | cons c rest => exact ⟨d, c, rest, rfl, drive, root⟩
    · cases drive
  · rintro ⟨d, c, rest, rfl, alpha, slash⟩
    exact ⟨alpha, slash⟩

theorem isAbsolute_unix_iff {s : List Char} :
    isAbsolute .unix s = true ↔ ∃ rest, s = '/' :: rest := by
  cases s with
  | nil => simp [isAbsolute]
  | cons c rest => simp [isAbsolute]

/-- A text without slashes is no absolute path. -/
theorem isAbsolute_plain {platform : Platform} {s : List Char}
    (plain : ∀ c ∈ s, isSlash c = false) : isAbsolute platform s = false := by
  rw [← Bool.not_eq_true]
  cases platform with
  | unix =>
      rw [isAbsolute_unix_iff]
      rintro ⟨rest, rfl⟩
      cases plain '/' List.mem_cons_self
  | windows =>
      rw [isAbsolute_windows_iff fun c mem => plain c (List.mem_of_mem_head? mem)]
      rintro ⟨d, c, rest, rfl, -, slash⟩
      rw [plain c (by simp)] at slash
      cases slash

/-! ## Safe names -/

/-- A path stays below the directory it is joined to, whichever slash separates: it is relative,
and no component is empty, a dot or two dots. -/
def Safe (platform : Platform) (s : List Char) : Prop :=
  isAbsolute platform s = false ∧
    ∀ part ∈ s.splitOnP isSlash, part ≠ [] ∧ part ≠ ['.'] ∧ part ≠ ['.', '.']

instance (platform : Platform) (s : List Char) : Decidable (Safe platform s) :=
  inferInstanceAs (Decidable (_ ∧ _))

/-- A name without slashes is safe unless it is empty or made of dots. -/
theorem safe_plain_iff {platform : Platform} {s : List Char}
    (plain : ∀ c ∈ s, isSlash c = false) :
    Safe platform s ↔ s ≠ [] ∧ s ≠ ['.'] ∧ s ≠ ['.', '.'] := by
  rw [Safe, isAbsolute_plain plain, List.splitOnP_eq_singleton plain]
  simp

/-- What stands before the first slash. -/
theorem takeWhile_joinParts {a : List Char} (rest : List (List Char))
    (plain : ∀ c ∈ a, isSlash c = false) :
    (joinParts (a :: rest)).takeWhile (fun c => !isSlash c) = a := by
  have stop : ∀ c ∈ a, (!isSlash c) = true := fun c mem => by rw [plain c mem]; rfl
  cases rest with
  | nil => rw [joinParts_singleton, List.takeWhile_eq_self_iff.mpr stop]
  | cons b rest =>
      rw [joinParts_cons_cons, List.takeWhile_append_of_pos stop,
        List.takeWhile_cons_of_neg (by decide), List.append_nil]

/-- Parts without slashes make an absolute path just on Windows, from a drive and more. -/
theorem isAbsolute_joinParts_iff {platform : Platform} {a : List Char} {rest : List (List Char)}
    (nonempty : a ≠ []) (plain : ∀ c ∈ a, isSlash c = false) :
    isAbsolute platform (joinParts (a :: rest)) = true ↔
      platform = .windows ∧ rest ≠ [] ∧ ∃ d, a = [d, ':'] ∧ d.isAlpha = true := by
  obtain ⟨x, xs, rfl⟩ := List.exists_cons_of_ne_nil nonempty
  have first : ∃ tail, joinParts ((x :: xs) :: rest) = x :: tail := by
    cases rest with
    | nil => exact ⟨xs, joinParts_singleton _⟩
    | cons b rest => exact ⟨_, joinParts_cons_cons _ _ _⟩
  obtain ⟨tail, head⟩ := first
  have start : isSlash x = false := plain x List.mem_cons_self
  cases platform with
  | unix =>
      rw [isAbsolute_unix_iff, head]
      constructor
      · rintro ⟨_, eq⟩
        cases eq
        cases start
      · rintro ⟨absurd_, -⟩
        cases absurd_
  | windows =>
      rw [isAbsolute_windows_iff fun c mem => by rw [head] at mem; cases mem; exact start]
      constructor
      · rintro ⟨d, c, more, eq, alpha, slash⟩
        have before := takeWhile_joinParts rest plain
        have letter : isSlash d = false := by
          rw [head] at eq
          cases eq
          exact start
        rw [eq, List.takeWhile_cons_of_pos (by rw [letter]; rfl),
          List.takeWhile_cons_of_pos (by decide), List.takeWhile_cons_of_neg (by rw [slash]; decide)]
          at before
        refine ⟨rfl, ?_, d, before.symm, alpha⟩
        rintro rfl
        rw [joinParts_singleton, ← before] at eq
        cases eq
      · rintro ⟨-, later, d, eq, alpha⟩
        obtain ⟨b, bs, rfl⟩ := List.exists_cons_of_ne_nil later
        exact ⟨d, '/', joinParts (b :: bs), by rw [joinParts_cons_cons, eq]; rfl, alpha, rfl⟩

end Paths
