import Sentinel.Desktop.NativeHost

/-!
# The plain export and the import of passwords

`export_plain_csv` writes a table of six columns and `parse_chrome_csv` finds the columns it knows
by their names. The reader of the table is a machine over characters that knows whether it is inside
quotation marks; a quotation mark inside quotation marks looks one character ahead. It drops bare
carriage returns and the rows of one empty field, so that the writer quotes the former.

The notes do not come back: they are written under `notes` and looked for under `note`. Nor do the
codes, which have no column in a browser's table.
-/

namespace Sentinel.Desktop

namespace Csv

/-! ## The reader -/

/-- `rows`, `record`, `field` and `in_quotes`. -/
structure Reader where
  rows : List (List String)
  record : List String
  field : List Char
  inQuotes : Bool

namespace Reader

def init : Reader := ⟨[], [], [], false⟩

def push (st : Reader) (c : Char) : Reader := { st with field := st.field ++ [c] }

/-- The field goes to the record. -/
def endField (st : Reader) : Reader :=
  { st with record := st.record ++ [String.ofList st.field], field := [] }

def endRow (st : Reader) : Reader :=
  let st := st.endField
  { st with rows := st.rows ++ [st.record], record := [] }

/-- A character outside quotation marks. -/
def plain (st : Reader) (c : Char) : Reader :=
  if c = '"' then { st with inQuotes := true }
  else if c = ',' then st.endField
  else if c = '\r' then st
  else if c = '\n' then st.endRow
  else st.push c

end Reader

/-- The loop of `parse`. -/
def read (st : Reader) : List Char → Reader
  | [] => st
  | c :: rest =>
      if st.inQuotes then
        if c = '"' then
          match rest with
          | '"' :: rest => read (st.push '"') rest
          | rest => read { st with inQuotes := false } rest
        else read (st.push c) rest
      else read (st.plain c) rest

def parse (input : String) : List (List String) :=
  let st := read .init input.toList
  let rows := if !st.field.isEmpty || !st.record.isEmpty then st.endRow.rows else st.rows
  rows.filter fun r => !(r.length == 1 && r.head? == some "")

/-! ## The writer -/

/-- The characters that need quotation marks. -/
def isSpecial (c : Char) : Bool := c == ',' || c == '"' || c == '\n' || c == '\r'

/-- `str::replace` of a quotation mark by two. -/
def doubled (f : List Char) : List Char := f.flatMap fun c => if c = '"' then ['"', '"'] else [c]

def quote (f : String) : String :=
  if f.toList.any isSpecial then "\"" ++ String.ofList (doubled f.toList) ++ "\"" else f

def write (rows : List (List String)) : String :=
  String.join (rows.map fun row => ",".intercalate (row.map quote) ++ "\n")

/-! ## What is written is read back -/

section RoundTrip

variable {rows : List (List String)} {record : List String} {rest : List Char}

theorem read_outside (field : List Char) (c : Char) :
    read ⟨rows, record, field, false⟩ (c :: rest) =
      read (Reader.plain ⟨rows, record, field, false⟩ c) rest := by
  conv_lhs => unfold read
  exact if_neg Bool.false_ne_true

theorem read_plain {f : List Char} (plain : ∀ c ∈ f, isSpecial c = false) (field : List Char) :
    read ⟨rows, record, field, false⟩ (f ++ rest) =
      read ⟨rows, record, field ++ f, false⟩ rest := by
  induction f generalizing field with
  | nil => rw [List.nil_append, List.append_nil]
  | cons c f ih =>
      obtain ⟨first, others⟩ := List.forall_mem_cons.mp plain
      simp only [isSpecial, Bool.or_eq_false_iff, beq_eq_false_iff_ne] at first
      obtain ⟨⟨⟨comma, mark⟩, line⟩, return_⟩ := first
      have pushed : Reader.plain ⟨rows, record, field, false⟩ c =
          ⟨rows, record, field ++ [c], false⟩ := by
        rw [Reader.plain, if_neg mark, if_neg comma, if_neg return_, if_neg line]
        rfl
      rw [List.cons_append, read_outside, pushed, ih others, List.append_assoc,
        List.singleton_append]

/-- A quotation mark that none follows ends the quotation. -/
theorem read_mark {field : List Char} (next : rest.head? ≠ some '"') :
    read ⟨rows, record, field, true⟩ ('"' :: rest) = read ⟨rows, record, field, false⟩ rest := by
  rw [read, if_pos rfl, if_pos rfl]
  intro rest' eq
  rw [eq] at next
  exact next rfl

theorem read_inside {c : Char} (other : c ≠ '"') (field : List Char) :
    read ⟨rows, record, field, true⟩ (c :: rest) =
      read ⟨rows, record, field ++ [c], true⟩ rest := by
  conv_lhs => unfold read
  exact (if_pos rfl).trans (if_neg other)

/-- Inside quotation marks every character is kept, and a doubled mark is one. -/
theorem read_doubled (next : rest.head? ≠ some '"') (f field : List Char) :
    read ⟨rows, record, field, true⟩ (doubled f ++ '"' :: rest) =
      read ⟨rows, record, field ++ f, false⟩ rest := by
  induction f generalizing field with
  | nil =>
      rw [List.append_nil]
      exact read_mark next
  | cons c f ih =>
      have step : read ⟨rows, record, field, true⟩ (doubled (c :: f) ++ '"' :: rest) =
          read ⟨rows, record, field ++ [c], true⟩ (doubled f ++ '"' :: rest) := by
        rw [doubled, List.flatMap_cons, List.append_assoc]
        by_cases mark : c = '"'
        · subst mark
          rfl
        · rw [if_neg mark]
          exact read_inside mark field
      rw [step, ih, List.append_assoc, List.singleton_append]

/-- A quoted field is read as the field. -/
theorem read_quote (next : rest.head? ≠ some '"') (f : String) :
    read ⟨rows, record, [], false⟩ ((quote f).toList ++ rest) =
      read ⟨rows, record, f.toList, false⟩ rest := by
  unfold quote
  split
  · have whole : ("\"" ++ String.ofList (doubled f.toList) ++ "\"").toList ++ rest =
        '"' :: (doubled f.toList ++ '"' :: rest) := by
      simp [String.toList_append]
    have began : Reader.plain ⟨rows, record, [], false⟩ '"' = ⟨rows, record, [], true⟩ := rfl
    rw [whole, read_outside, began, read_doubled next, List.nil_append]
  · rename_i plain
    rw [Bool.not_eq_true, List.any_eq_false] at plain
    rw [read_plain fun c mem => Bool.eq_false_iff.mpr (plain c mem), List.nil_append]

/-- The text of a row. -/
theorem toList_row (f g : String) (row : List String) :
    (",".intercalate ((f :: g :: row).map quote) ++ "\n").toList =
      (quote f).toList ++ ',' :: (",".intercalate ((g :: row).map quote) ++ "\n").toList := by
  rw [List.map_cons, List.map_cons, String.intercalate_cons_cons]
  simp [String.toList_append]

/-- A row is read field by field. -/
theorem read_row {row : List String} (some_ : row ≠ []) (record : List String) :
    read ⟨rows, record, [], false⟩ ((",".intercalate (row.map quote) ++ "\n").toList ++ rest) =
      read ⟨rows ++ [record ++ row], [], [], false⟩ rest := by
  induction row generalizing record with
  | nil => exact absurd rfl some_
  | cons f row ih =>
      cases row with
      | nil =>
          have whole : (",".intercalate ([f].map quote) ++ "\n").toList ++ rest =
              (quote f).toList ++ '\n' :: rest := by
            rw [List.map_singleton, String.intercalate_singleton]
            simp [String.toList_append]
          have ended : Reader.plain ⟨rows, record, f.toList, false⟩ '\n' =
              ⟨rows ++ [record ++ [f]], [], [], false⟩ := by
            simp [Reader.plain, Reader.endRow, Reader.endField]
          rw [whole, read_quote (by simp), read_outside, ended]
      | cons g row =>
          have ended : Reader.plain ⟨rows, record, f.toList, false⟩ ',' =
              ⟨rows, record ++ [f], [], false⟩ := by
            simp [Reader.plain, Reader.endField]
          rw [toList_row, List.append_assoc, List.cons_append, read_quote (by simp), read_outside,
            ended, ih (List.cons_ne_nil _ _), List.append_assoc, List.singleton_append]

/-- The rows of a table are read in order. -/
theorem read_write {table : List (List String)} (full : ∀ row ∈ table, row ≠ []) :
    read ⟨rows, [], [], false⟩ (write table).toList = ⟨rows ++ table, [], [], false⟩ := by
  induction table generalizing rows with
  | nil =>
      rw [List.append_nil]
      rfl
  | cons row table ih =>
      obtain ⟨first, others⟩ := List.forall_mem_cons.mp full
      rw [write, List.map_cons, String.join_cons, String.toList_append, read_row first []]
      exact (ih others).trans (by rw [List.nil_append, List.append_assoc, List.singleton_append])

/-- A row that the writer can write and the reader keeps: some fields, and not one empty one. -/
def Kept (row : List String) : Prop := row ≠ [] ∧ row ≠ [""]

theorem parse_write {table : List (List String)} (kept : ∀ row ∈ table, Kept row) :
    parse (write table) = table := by
  have all : ∀ row ∈ table, (!(row.length == 1 && row.head? == some "")) = true := by
    intro row mem
    rw [Bool.not_eq_true', Bool.and_eq_false_iff, beq_eq_false_iff_ne, beq_eq_false_iff_ne]
    by_contra both
    rw [not_or, not_not, not_not] at both
    obtain ⟨f, single⟩ := List.length_eq_one_iff.mp both.1
    rw [single, List.head?_cons, Option.some.injEq] at both
    exact (kept row mem).2 (by rw [single, both.2])
  rw [parse, Reader.init, read_write fun row mem => (kept row mem).1]
  exact List.filter_eq_self.mpr all

end RoundTrip

end Csv

open Vault

/-! ## The export -/

def firstUrl (item : Item) : Option String := item.urls.head?.map UrlMatch.url

def exportHeader : List String := ["name", "url", "username", "password", "totp", "notes"]

/-- The row of an item. -/
def exportRow (item : Item) : List String :=
  let (user, pass, totp) := (item.login.map fun l =>
    (l.username.getD "", l.password.getD "", l.totp.getD "")).getD ("", "", "")
  [item.title, (firstUrl item).getD "", user, pass, totp, item.notes.getD ""]

def exportPlainCsv (items : List Item) : String :=
  Csv.write (exportHeader :: items.map exportRow)

/-! ## The import -/

/-- `str::eq_ignore_ascii_case`. -/
def eqIgnoreAsciiCase (a b : String) : Bool :=
  a.toList.map Char.toLower == b.toList.map Char.toLower

/-- `name_i`, `url_i`, `user_i`, `pass_i` and `note_i`. -/
structure ChromeColumns where
  name : Option Nat
  url : Option Nat
  user : Option Nat
  pass : Option Nat
  note : Option Nat
  deriving DecidableEq, Repr

def chromeColumns (header : List String) : ChromeColumns :=
  let col name := header.findIdx? fun h => eqIgnoreAsciiCase h name
  ⟨col "name", col "url", col "username", col "password", col "note"⟩

/-- `get`: an empty cell is none. -/
def cell (row : List String) (i : Option Nat) : Option String :=
  (i.bind fun i => row[i]?).filter fun s => s != ""

def importedItem (cols : ChromeColumns) (id : ItemId) (row : List String) (now : Int) : Item :=
  let title := ((cell row cols.name).or (cell row cols.url)).getD ""
  { newLogin id title now with
    notes := cell row cols.note
    urls := match cell row cols.url with
      | some url => [⟨url, .domain⟩]
      | none => []
    login := some { username := cell row cols.user, password := cell row cols.pass, totp := none } }

/-- The loop over the rows, which takes a fresh id for each. -/
def importedItems (cols : ChromeColumns) (ids : Nat → ItemId) (now : Int) :
    Nat → List (List String) → List Item
  | _, [] => []
  | n, row :: rows => importedItem cols (ids n) row now :: importedItems cols ids now (n + 1) rows

def parseChromeCsv (ids : Nat → ItemId) (input : String) (now : Int) :
    Except CoreError (List Item) :=
  match Csv.parse input with
  | [] => .ok []
  | header :: rows => .ok (importedItems (chromeColumns header) ids now 0 rows)

/-! ## What is exported is imported -/

/-- An absent text and an empty one are the same. -/
def SameText (a b : Option String) : Prop := a.getD "" = b.getD ""

structure SameLogin (a b : Item) : Prop where
  title : a.title = b.title
  url : SameText (firstUrl a) (firstUrl b)
  username : SameText (itemUsername a) (itemUsername b)
  password : SameText (itemPassword a) (itemPassword b)

theorem chromeColumns_exportHeader :
    chromeColumns exportHeader = ⟨some 0, some 1, some 2, some 3, none⟩ := by decide

theorem cell_getD {row : List String} {i : Nat} {s : String} (at_ : row[i]? = some s) :
    (cell row (some i)).getD "" = s := by
  rw [cell, Option.bind_some, at_]
  by_cases empty : s = ""
  · subst empty
    rfl
  · rw [Option.filter_some, if_pos (by simpa using empty), Option.getD_some]

theorem cell_eq_some {row : List String} {i : Nat} {s : String} (at_ : row[i]? = some s)
    (full : s ≠ "") : cell row (some i) = some s := by
  rw [cell, Option.bind_some, at_, Option.filter_some, if_pos (by simpa using full)]

theorem firstUrl_importedItem (cols : ChromeColumns) (id : ItemId) (row : List String) (now : Int) :
    firstUrl (importedItem cols id row now) = cell row cols.url := by
  unfold importedItem firstUrl
  cases cell row cols.url <;> rfl

theorem exportRow_username (item : Item) :
    (exportRow item)[2]? = some ((itemUsername item).getD "") := by
  unfold exportRow itemUsername
  cases item.login <;> rfl

theorem exportRow_password (item : Item) :
    (exportRow item)[3]? = some ((itemPassword item).getD "") := by
  unfold exportRow itemPassword
  cases item.login <;> rfl

theorem sameLogin_importedItem {item : Item} (titled : item.title ≠ "") (id : ItemId) (now : Int) :
    SameLogin item (importedItem (chromeColumns exportHeader) id (exportRow item) now) := by
  rw [chromeColumns_exportHeader]
  constructor
  · have title : cell (exportRow item) (some 0) = some item.title := cell_eq_some rfl titled
    change _ = ((cell (exportRow item) (some 0)).or _).getD ""
    rw [title]
    rfl
  · rw [SameText, firstUrl_importedItem]
    exact (cell_getD rfl).symm
  · exact (cell_getD (exportRow_username item)).symm
  · exact (cell_getD (exportRow_password item)).symm

theorem sameLogin_importedItems {items : List Item} (titled : ∀ item ∈ items, item.title ≠ "")
    (ids : Nat → ItemId) (now : Int) (n : Nat) :
    List.Forall₂ SameLogin items (importedItems (chromeColumns exportHeader) ids now n
      (items.map exportRow)) := by
  induction items generalizing n with
  | nil => exact .nil
  | cons item items ih =>
      obtain ⟨first, others⟩ := List.forall_mem_cons.mp titled
      exact .cons (sameLogin_importedItem first (ids n) now) (ih others (n + 1))

theorem kept_export (items : List Item) :
    ∀ row ∈ exportHeader :: items.map exportRow, Csv.Kept row := by
  have long : ∀ row : List String, row.length = 6 → Csv.Kept row := by
    intro row six
    constructor <;> rintro rfl <;> cases six
  refine List.forall_mem_cons.mpr ⟨long _ rfl, ?_⟩
  intro row mem
  obtain ⟨item, -, rfl⟩ := List.mem_map.mp mem
  exact long _ rfl

/-- A table is read back as it was written, and the import of an export gives every item its title,
first URL, user name and password. -/
theorem csv_lossless :
    (∀ table : List (List String), (∀ row ∈ table, Csv.Kept row) →
      Csv.parse (Csv.write table) = table) ∧
    ∀ (items : List Item), (∀ item ∈ items, item.title ≠ "") →
      ∀ (ids : Nat → ItemId) (now : Int), ∃ items',
        parseChromeCsv ids (exportPlainCsv items) now = .ok items' ∧
          List.Forall₂ SameLogin items items' := by
  refine ⟨fun table => Csv.parse_write, fun items titled ids now => ?_⟩
  refine ⟨_, ?_, sameLogin_importedItems titled ids now 0⟩
  rw [parseChromeCsv, exportPlainCsv, Csv.parse_write (kept_export items)]

/-- A table with a comma, marks and a line break, and a login without a user name. -/
theorem csv_lossless_marks :
    Csv.parse (Csv.write [["a,b", "\"hi\"\r\n"], ["", ""]]) = [["a,b", "\"hi\"\r\n"], ["", ""]] ∧
    ∃ items', parseChromeCsv (fun _ => ⟨List.replicate 16 1, rfl⟩)
        (exportPlainCsv [newLogin ⟨List.replicate 16 0, rfl⟩ "GitHub" 1]) 2 = .ok items' ∧
      List.Forall₂ SameLogin [newLogin ⟨List.replicate 16 0, rfl⟩ "GitHub" 1] items' :=
  ⟨csv_lossless.1 _ (by simp [Csv.Kept]),
    csv_lossless.2 _ (List.forall_mem_singleton.mpr (by decide)) _ _⟩

end Sentinel.Desktop
