import Sentinel.Servers.Reports

/-!
# The allowlist

`crowdsec_allowlist_set` writes the file and `parse_allowlist` reads it, line by line. An entry is
trimmed when it is validated and not when it is written, so that a line break around it ends its
line in the file. The reader takes what follows for the end of the `ip:` block: the entry is lost
when the break stands before it, and all later entries are.
-/

namespace Sentinel.Servers

open Api Shell

/-! ## The reader -/

/-- The end of a line is `\n` or `\r\n`. -/
def dropReturn (line : List Char) : List Char :=
  if line.getLast? = some '\r' then line.dropLast else line

/-- `str::lines`: what follows the last line break is a line unless it is empty. -/
def strLines (text : List Char) : List (List Char) :=
  let pieces := text.splitOn '\n'
  pieces.dropLast.map dropReturn ++ (pieces.getLast?.filter fun last => !last.isEmpty).toList

/-- A line of `parse_allowlist`, with `in_ip` and `out`. -/
def allowlistLine (st : Bool × List String) (line : List Char) : Bool × List String :=
  let t := Lines.strip isWhitespace line
  if "ip:".toList.isPrefixOf t then (true, st.2)
  else
    let inIp := !("cidr:".toList.isPrefixOf t || st.1 && t.head? != some '-' && !t.isEmpty) && st.1
    if inIp && t.head? == some '-' then
      let val := Lines.strip isWhitespace (Lines.strip (· == '"')
        (Lines.strip isWhitespace (t.dropWhile (· == '-'))))
      (inIp, if !val.isEmpty then st.2 ++ [String.ofList val] else st.2)
    else (inIp, st.2)

def parseAllowlist (yaml : String) : List String :=
  ((strLines yaml.toList).foldl allowlistLine (false, [])).2

/-- The reader on lines that need not be ended. -/
def feed (st : Bool × List String) (text : List Char) : Bool × List String :=
  (text.splitOn '\n').foldl allowlistLine st

theorem strip_dropReturn (line : List Char) :
    Lines.strip isWhitespace (dropReturn line) = Lines.strip isWhitespace line := by
  unfold dropReturn
  split
  · rename_i last
    obtain ⟨front, rfl⟩ := List.getLast?_eq_some_iff.mp last
    have blank : ∀ c ∈ ['\r'], isWhitespace c = true := by
      intro c mem
      rw [List.mem_singleton.mp mem]
      rfl
    have drop := Lines.strip_append (List.forall_mem_nil _) blank front
    rw [List.nil_append] at drop
    rw [List.dropLast_concat, drop]
  · rfl

theorem allowlistLine_congr (st : Bool × List String) {line line' : List Char}
    (same : Lines.strip isWhitespace line = Lines.strip isWhitespace line') :
    allowlistLine st line = allowlistLine st line' := by
  rw [allowlistLine, same, allowlistLine]

theorem allowlistLine_dropReturn (st : Bool × List String) (line : List Char) :
    allowlistLine st (dropReturn line) = allowlistLine st line :=
  allowlistLine_congr st (strip_dropReturn line)

/-- A blank line changes nothing. -/
theorem allowlistLine_nil (st : Bool × List String) : allowlistLine st [] = st := by
  obtain ⟨inIp, out⟩ := st
  rw [allowlistLine, String.toList_ofList, String.toList_ofList]
  cases inIp <;> rfl

/-- How lines end makes no difference. -/
theorem parseAllowlist_eq (yaml : String) :
    parseAllowlist yaml = (feed (false, []) yaml.toList).2 := by
  have returns : ∀ (lines : List (List Char)) (st : Bool × List String),
      (lines.map dropReturn).foldl allowlistLine st = lines.foldl allowlistLine st := by
    intro lines st
    rw [List.foldl_map]
    exact congrArg (fun f => lines.foldl f st)
      (funext₂ fun st line => allowlistLine_dropReturn st line)
  obtain none | ⟨front, last, pieces⟩ := List.eq_nil_or_concat' (yaml.toList.splitOn '\n')
  · exact absurd none (by rw [List.splitOn_eq_splitOnP]; exact List.splitOnP_ne_nil _ _)
  have end_ : ∀ st, (((some last).filter fun last => !last.isEmpty).toList).foldl allowlistLine st =
      allowlistLine st last := by
    intro st
    cases last with
    | nil => exact (allowlistLine_nil st).symm
    | cons c rest => rfl
  rw [parseAllowlist, strLines, feed, pieces, List.dropLast_concat, List.getLast?_concat,
    List.foldl_append, returns, end_, List.foldl_append]
  rfl

/-- A line break ends what was read. -/
theorem feed_break (st : Bool × List String) (a b : List Char) :
    feed st (a ++ '\n' :: b) = feed (feed st a) b := by
  rw [feed, Lines.splitOn_append_break, List.foldl_append, feed, feed]

/-- A text without a line break is a line. -/
theorem feed_line (st : Bool × List String) {line : List Char} (clean : '\n' ∉ line) :
    feed st line = allowlistLine st line := by
  have piece : line.splitOn '\n' = [line] := Lines.splitOn_of_notMem clean
  rw [feed, piece, List.foldl_cons, List.foldl_nil]

theorem isPrefixOf_of_notMem {c : Char} {pre t : List Char} (mem : c ∈ pre) (none : c ∉ t) :
    pre.isPrefixOf t = false := by
  rw [Bool.eq_false_iff, Ne, List.isPrefixOf_iff_prefix]
  intro begins
  exact none (begins.subset mem)

/-- Neither `ip:` nor `cidr:` begins a line without the letter. -/
theorem isPrefixOf_keys {t : List Char} (letter : 'i' ∉ t) :
    "ip:".toList.isPrefixOf t = false ∧ "cidr:".toList.isPrefixOf t = false := by
  rw [String.toList_ofList, String.toList_ofList]
  exact ⟨isPrefixOf_of_notMem (by decide) letter, isPrefixOf_of_notMem (by decide) letter⟩

theorem isEmpty_strip (line : List Char) :
    (Lines.strip isWhitespace line).isEmpty = line.all isWhitespace := by
  rw [Bool.eq_iff_iff, List.isEmpty_iff, Lines.strip_eq_nil, List.all_eq_true]

/-- A line without the letters and signs of the file ends the block, unless it is blank. -/
theorem allowlistLine_plain {line : List Char} (letter : 'i' ∉ line) (sign : '-' ∉ line)
    (inIp : Bool) (out : List String) :
    allowlistLine (inIp, out) line = (inIp && line.all isWhitespace, out) := by
  obtain ⟨ip, cidr⟩ := isPrefixOf_keys fun mem => letter (Lines.mem_of_mem_strip mem)
  have other : (Lines.strip isWhitespace line).head? ≠ some '-' := fun first =>
    sign (Lines.mem_of_mem_strip (List.mem_of_head? first))
  have differs : ((Lines.strip isWhitespace line).head? != some '-') = true :=
    bne_iff_ne.mpr other
  have none : ((Lines.strip isWhitespace line).head? == some '-') = false :=
    beq_false_of_ne other
  rw [allowlistLine, ip, cidr, if_neg Bool.false_ne_true]
  dsimp only
  rw [differs, none, Bool.and_false, if_neg Bool.false_ne_true, isEmpty_strip]
  cases inIp <;> simp

/-- So does such a text. -/
theorem feed_plain {text : List Char} (letter : 'i' ∉ text) (sign : '-' ∉ text) (inIp : Bool)
    (out : List String) : feed (inIp, out) text = (inIp && text.all isWhitespace, out) := by
  generalize size : text.length = n
  induction n using Nat.strong_induction_on generalizing text inIp with
  | _ n ih =>
      by_cases broken : '\n' ∈ text
      · obtain ⟨a, b, rfl, clean⟩ := List.eq_append_cons_of_mem broken
        rw [List.mem_append, List.mem_cons, not_or, not_or] at letter sign
        have shorter : b.length < n := by
          rw [← size, List.length_append, List.length_cons]
          omega
        have blank : isWhitespace '\n' = true := rfl
        rw [feed_break, feed_line _ clean, allowlistLine_plain letter.1 sign.1,
          ih _ shorter letter.2.2 sign.2.2 _ rfl, List.all_append, List.all_cons, blank,
          Bool.true_and, Bool.and_assoc]
      · rw [feed_line _ broken, allowlistLine_plain letter sign]

/-- Outside the block nothing is read before `ip:`. -/
theorem feed_outside {text : List Char} (letter : 'i' ∉ text) (out : List String) :
    feed (false, out) text = (false, out) := by
  have each : ∀ lines : List (List Char), (∀ l ∈ lines, 'i' ∉ l) →
      lines.foldl allowlistLine (false, out) = (false, out) := by
    intro lines clean
    induction lines with
    | nil => rfl
    | cons l lines ih =>
        obtain ⟨first, others⟩ := List.forall_mem_cons.mp clean
        obtain ⟨ip, -⟩ := isPrefixOf_keys fun mem => first (Lines.mem_of_mem_strip mem)
        have line : allowlistLine (false, out) l = (false, out) := by
          rw [allowlistLine, ip, if_neg Bool.false_ne_true]
          dsimp only
          rw [Bool.and_false, Bool.false_and, if_neg Bool.false_ne_true]
        rw [List.foldl_cons, line]
        exact ih others
  exact each _ fun l mem inside => letter (Lines.mem_of_mem_splitOn mem inside)

/-! ## Entries -/

/-- What stands before an entry in its line. -/
def entryHead : List Char := [' ', ' ', ' ', ' ', '-', ' ', '"']

theorem toList_entryHead : "    - \"".toList = entryHead := String.toList_ofList

/-- A line of the block, with white space at its end. -/
theorem allowlistLine_entry {core after : List Char}
    (ends : ∀ c, core.getLast? = some c → isWhitespace c = false)
    (blank : ∀ c ∈ after, isWhitespace c = true) (out : List String) :
    allowlistLine (true, out) (entryHead ++ core ++ after) =
      (true, if !(Lines.strip isWhitespace (Lines.strip (· == '"') core)).isEmpty then
        out ++ [String.ofList (Lines.strip isWhitespace (Lines.strip (· == '"') core))]
      else out) := by
  have margin : ∀ c ∈ [' ', ' ', ' ', ' '], isWhitespace c = true := by
    intro c mem
    simp only [List.mem_cons, List.not_mem_nil, or_false, or_self] at mem
    rw [mem]
    rfl
  have last : ∀ c, ('"' :: core).getLast? = some c → isWhitespace c = false := by
    intro c last
    cases core with
    | nil =>
        cases last
        rfl
    | cons d core =>
        rw [List.getLast?_cons_cons] at last
        exact ends c last
  have lastItem : ∀ c, ('-' :: ' ' :: '"' :: core).getLast? = some c → isWhitespace c = false := by
    intro c end_
    rw [List.getLast?_cons_cons, List.getLast?_cons_cons] at end_
    exact last c end_
  have first : ∀ (d : Char) (l : List Char), isWhitespace d = false →
      ∀ c, (d :: l).head? = some c → isWhitespace c = false := by
    intro d l plain c head
    cases head
    exact plain
  have item : Lines.strip isWhitespace (entryHead ++ core ++ after) =
      '-' :: ' ' :: '"' :: core := by
    have cut := Lines.strip_append margin blank ('-' :: ' ' :: '"' :: core)
    rw [Lines.strip_of_bare ⟨first '-' _ rfl, lastItem⟩] at cut
    exact cut
  have quoted : Lines.strip isWhitespace (' ' :: '"' :: core) = '"' :: core := by
    have space : isWhitespace ' ' = true := rfl
    rw [Lines.strip_cons space, Lines.strip_of_bare ⟨first '"' _ rfl, last⟩]
  have dash : ('-' :: ' ' :: '"' :: core).dropWhile (· == '-') = ' ' :: '"' :: core := rfl
  have open_ : Lines.strip (· == '"') ('"' :: core) = Lines.strip (· == '"') core :=
    Lines.strip_cons (p := (· == '"')) (beq_self_eq_true '"') core
  rw [allowlistLine, item, String.toList_ofList, String.toList_ofList]
  dsimp only
  rw [dash, quoted, open_]
  rfl

theorem bare_trim (e : String) : Lines.Bare isWhitespace (trim e).toList := by
  rw [toList_trim]
  exact Lines.bare_strip _

/-- An accepted entry as it was given: white space, the address, white space. -/
structure Entry (e : String) (before after : List Char) : Prop where
  whole : e.toList = before ++ (trim e).toList ++ after
  left : ∀ c ∈ before, isWhitespace c = true
  right : ∀ c ∈ after, isWhitespace c = true
  nonempty : (trim e).toList ≠ []
  chars : ∀ c ∈ (trim e).toList, isAddressChar c = true

theorem strip_quote_of_notMem {l : List Char} (quote : '"' ∉ l) : Lines.strip (· == '"') l = l := by
  have other : ∀ c ∈ l, (c == '"') = false := fun c mem =>
    beq_false_of_ne fun same => quote (same ▸ mem)
  exact Lines.strip_of_bare ⟨fun c first => other c (List.mem_of_head? first),
    fun c last => other c (List.mem_of_getLast? last)⟩

theorem notMem_of_blank {l : List Char} (blank : ∀ c ∈ l, isWhitespace c = true) {c : Char}
    (plain : isWhitespace c = false) : c ∉ l := by
  intro mem
  rw [blank c mem] at plain
  cases plain

/-- The quotation mark that ends an entry is not white space. -/
theorem all_closing (l : List Char) : (l ++ ['"']).all isWhitespace = false := by
  have closing : isWhitespace '"' = false := rfl
  rw [List.all_append, List.all_cons, closing, Bool.false_and, Bool.and_false]

theorem newline_notMem_entryHead : '\n' ∉ entryHead := by decide

namespace Entry

variable {ipAddr : String → Bool} {e : String} {before after : List Char}

theorem exists_of_valid (valid : validIpOrCidr ipAddr e = true) :
    ∃ after, Entry e (e.toList.takeWhile isWhitespace) after := by
  obtain ⟨before, after, whole, left, right⟩ := trim_split e
  obtain ⟨some_, chars⟩ := address_of_validIpOrCidr valid
  obtain ⟨c, rest, core⟩ := List.exists_cons_of_ne_nil some_
  have first : isWhitespace c = false := (bare_trim e).1 c (by rw [core]; rfl)
  have none : ¬isWhitespace c = true := by
    rw [first]
    exact Bool.false_ne_true
  have margin : e.toList.takeWhile isWhitespace = before := by
    rw [whole, List.append_assoc, List.takeWhile_append_of_pos left, core, List.cons_append,
      List.takeWhile_cons_of_neg none, List.append_nil]
  rw [margin]
  exact ⟨after, whole, left, right, some_, chars⟩

variable (entry : Entry e before after)

include entry

theorem notMem_address {c : Char} (address : isAddressChar c = false) : c ∉ (trim e).toList := by
  intro mem
  rw [entry.chars c mem] at address
  cases address

/-- The trimmed part with the white space before it. -/
theorem strip_margin : Lines.strip isWhitespace (before ++ (trim e).toList) = (trim e).toList := by
  have cut := Lines.strip_append entry.left (List.forall_mem_nil _) (trim e).toList
  rwa [List.append_nil, Lines.strip_of_bare (bare_trim e)] at cut

/-- Neither the letter nor the sign nor the quotation mark stands before or in the address. -/
theorem notMem_front {c : Char} (plain : isWhitespace c = false)
    (address : isAddressChar c = false) : c ∉ before ++ (trim e).toList := by
  rw [List.mem_append, not_or]
  exact ⟨notMem_of_blank entry.left plain, entry.notMem_address address⟩

theorem notMem {c : Char} (plain : isWhitespace c = false) (address : isAddressChar c = false) :
    c ∉ e.toList := by
  rw [entry.whole, List.mem_append, not_or]
  exact ⟨entry.notMem_front plain address, notMem_of_blank entry.right plain⟩

/-- A line of the block with the address in it. -/
theorem allowlistLine_address {core after : List Char}
    (ends : ∀ c, core.getLast? = some c → isWhitespace c = false)
    (blank : ∀ c ∈ after, isWhitespace c = true)
    (inner : Lines.strip isWhitespace (Lines.strip (· == '"') core) = (trim e).toList)
    (out : List String) :
    allowlistLine (true, out) (entryHead ++ core ++ after) = (true, out ++ [trim e]) := by
  have kept : (!(trim e).toList.isEmpty) = true := by
    rw [Bool.not_eq_true', List.isEmpty_eq_false_iff]
    exact entry.nonempty
  rw [allowlistLine_entry ends blank, inner, kept, if_pos rfl, String.ofList_toList]

/-- A line break before the address: the line has no value, and the address ends the block. -/
theorem feed_leading (leading : '\n' ∈ before) (out : List String) :
    feed (true, out) (entryHead ++ e.toList ++ ['"']) = (false, out) := by
  obtain ⟨b₁, b₂, rfl, clean⟩ := List.eq_append_cons_of_mem leading
  have text : entryHead ++ e.toList ++ ['"'] =
      (entryHead ++ [] ++ b₁) ++ '\n' :: (b₂ ++ (trim e).toList ++ after ++ ['"']) := by
    rw [entry.whole]
    simp only [List.append_assoc, List.cons_append, List.append_nil]
  have blank : ∀ c ∈ b₁, isWhitespace c = true := fun c mem =>
    entry.left c (List.mem_append_left _ mem)
  have line : '\n' ∉ entryHead ++ [] ++ b₁ := by
    rw [List.append_nil, List.mem_append, not_or]
    exact ⟨newline_notMem_entryHead, clean⟩
  have first : allowlistLine (true, out) (entryHead ++ [] ++ b₁) = (true, out) :=
    allowlistLine_entry (fun c last => by cases last) blank out
  have inside : ∀ c ∈ b₂ ++ (trim e).toList ++ after, c ∈ e.toList := by
    intro c mem
    rw [entry.whole]
    rw [List.append_assoc, List.mem_append] at mem ⊢
    exact mem.imp_left fun later => List.mem_append_right _ (List.mem_cons_of_mem _ later)
  have plain : ∀ c, c ∉ e.toList → c ≠ '"' → c ∉ b₂ ++ (trim e).toList ++ after ++ ['"'] := by
    intro c none mark
    rw [List.mem_append, not_or, List.mem_singleton]
    exact ⟨fun mem => none (inside c mem), mark⟩
  rw [text, feed_break, feed_line _ line, first,
    feed_plain (plain 'i' (entry.notMem rfl rfl) (by decide))
      (plain '-' (entry.notMem rfl rfl) (by decide)), all_closing, Bool.and_false]

/-- A line break behind the address only: the address is read, and the quotation mark ends the
block. -/
theorem feed_trailing (leading : '\n' ∉ before) (trailing : '\n' ∈ after) (out : List String) :
    feed (true, out) (entryHead ++ e.toList ++ ['"']) = (false, out ++ [trim e]) := by
  obtain ⟨a₁, a₂, rfl, clean⟩ := List.eq_append_cons_of_mem trailing
  have text : entryHead ++ e.toList ++ ['"'] =
      (entryHead ++ (before ++ (trim e).toList) ++ a₁) ++ '\n' :: (a₂ ++ ['"']) := by
    rw [entry.whole]
    simp only [List.append_assoc, List.cons_append]
  have blank : ∀ c ∈ a₁, isWhitespace c = true := fun c mem =>
    entry.right c (List.mem_append_left _ mem)
  have rest : ∀ c ∈ a₂, isWhitespace c = true := fun c mem =>
    entry.right c (List.mem_append_right _ (List.mem_cons_of_mem _ mem))
  have line : '\n' ∉ entryHead ++ (before ++ (trim e).toList) ++ a₁ := by
    simp only [List.mem_append, not_or]
    exact ⟨⟨newline_notMem_entryHead, leading, entry.notMem_address rfl⟩, clean⟩
  have ends : ∀ c, (before ++ (trim e).toList).getLast? = some c → isWhitespace c = false := by
    intro c last
    rw [List.getLast?_append_of_ne_nil _ entry.nonempty] at last
    exact (bare_trim e).2 c last
  have inner : Lines.strip isWhitespace (Lines.strip (· == '"') (before ++ (trim e).toList)) =
      (trim e).toList := by
    rw [strip_quote_of_notMem (entry.notMem_front rfl rfl), entry.strip_margin]
  have plain : ∀ c, isWhitespace c = false → c ≠ '"' → c ∉ a₂ ++ ['"'] := by
    intro c plain mark
    rw [List.mem_append, not_or, List.mem_singleton]
    exact ⟨notMem_of_blank rest plain, mark⟩
  rw [text, feed_break, feed_line _ line, entry.allowlistLine_address ends blank inner,
    feed_plain (plain 'i' rfl (by decide)) (plain '-' rfl (by decide)), all_closing,
    Bool.and_false]

/-- An entry in one line. -/
theorem feed_clean (clean : '\n' ∉ e.toList) (out : List String) :
    feed (true, out) (entryHead ++ e.toList ++ ['"']) = (true, out ++ [trim e]) := by
  have line : '\n' ∉ entryHead ++ e.toList ++ ['"'] := by
    simp only [List.mem_append, not_or]
    exact ⟨⟨newline_notMem_entryHead, clean⟩, by decide⟩
  have ends : ∀ c, (e.toList ++ ['"']).getLast? = some c → isWhitespace c = false := by
    intro c last
    rw [List.getLast?_concat] at last
    cases last
    rfl
  have marks : ∀ c ∈ ['"'], (c == '"') = true := by
    intro c mem
    rw [List.mem_singleton.mp mem]
    rfl
  have inner : Lines.strip isWhitespace (Lines.strip (· == '"') (e.toList ++ ['"'])) =
      (trim e).toList := by
    have cut := Lines.strip_append (p := (· == '"')) (List.forall_mem_nil _) marks e.toList
    rw [List.nil_append, strip_quote_of_notMem (entry.notMem rfl rfl)] at cut
    rw [cut, toList_trim]
  have address := entry.allowlistLine_address ends (List.forall_mem_nil _) inner out
  rw [List.append_nil, ← List.append_assoc] at address
  rw [feed_line _ line, address]

end Entry

/-! ## The file -/

/-- The entries that are read. -/
def kept : List String → List String
  | [] => []
  | e :: rest =>
      if '\n' ∈ e.toList.takeWhile isWhitespace then []
      else trim e :: if '\n' ∈ e.toList then [] else kept rest

/-- The entries of the file, each in its line. -/
def ipText (entries : List String) : List Char :=
  entries.flatMap fun e => entryHead ++ e.toList ++ ['"', '\n']

theorem ipText_cons (e : String) (rest : List String) (text : List Char) :
    ipText (e :: rest) ++ text =
      (entryHead ++ e.toList ++ ['"']) ++ '\n' :: (ipText rest ++ text) := by
  rw [ipText, List.flatMap_cons]
  simp only [List.append_assoc, List.cons_append, List.nil_append, ipText]

/-- No break that an entry could have stands before its last line. -/
def Unbroken (entries : List String) : Prop :=
  (∀ e ∈ entries.dropLast, '\n' ∉ e.toList) ∧
    ∀ e, entries.getLast? = some e → '\n' ∉ e.toList.takeWhile isWhitespace

theorem unbroken_cons {e : String} {rest : List String} (some_ : rest ≠ []) :
    Unbroken (e :: rest) ↔ '\n' ∉ e.toList ∧ Unbroken rest := by
  obtain ⟨next, rest, rfl⟩ := List.exists_cons_of_ne_nil some_
  rw [Unbroken, List.dropLast_cons_of_ne_nil (List.cons_ne_nil _ _), List.forall_mem_cons,
    List.getLast?_cons_cons, and_assoc, Unbroken]

theorem kept_eq_iff (entries : List String) :
    kept entries = entries.map trim ↔ Unbroken entries := by
  induction entries with
  | nil => exact iff_of_true rfl ⟨List.forall_mem_nil _, fun e last => by cases last⟩
  | cons e rest ih =>
      rw [kept, List.map_cons]
      by_cases single : rest = []
      · subst single
        have cond : Unbroken [e] ↔ '\n' ∉ e.toList.takeWhile isWhitespace :=
          ⟨fun all => all.2 e rfl, fun no => ⟨List.forall_mem_nil _, fun e' last => by
            cases last
            exact no⟩⟩
        have last : (if '\n' ∈ e.toList then [] else kept []) = [] := ite_self _
        rw [cond, last]
        split
        · rename_i leading
          exact iff_of_false (List.cons_ne_nil _ _).symm (not_not.mpr leading)
        · rename_i clean
          exact iff_of_true rfl clean
      · rw [unbroken_cons single]
        have others : rest.map trim ≠ [] := fun none => single (List.map_eq_nil_iff.mp none)
        split
        · rename_i leading
          have broken : '\n' ∈ e.toList := (List.takeWhile_prefix _).subset leading
          exact iff_of_false (List.cons_ne_nil _ _).symm fun all => all.1 broken
        · split
          · rename_i broken
            exact iff_of_false (fun same => others (List.cons.inj same).2.symm)
              fun all => all.1 broken
          · rename_i clean
            rw [← ih]
            exact ⟨fun same => ⟨clean, (List.cons.inj same).2⟩, fun all => by rw [all.2]⟩

section Read

variable {ipAddr : String → Bool} {entries : List String}

theorem letter_notMem_entry {e : String} (valid : validIpOrCidr ipAddr e = true) :
    'i' ∉ entryHead ++ e.toList ++ ['"'] := by
  obtain ⟨after, entry⟩ := Entry.exists_of_valid valid
  have head : 'i' ∉ entryHead := by decide
  rw [List.mem_append, List.mem_append, not_or, not_or, List.mem_singleton]
  exact ⟨⟨head, entry.notMem rfl rfl⟩, by decide⟩

theorem feed_ipText_outside (valid : ∀ e ∈ entries, validIpOrCidr ipAddr e = true)
    (out : List String) (text : List Char) :
    feed (false, out) (ipText entries ++ text) = feed (false, out) text := by
  induction entries with
  | nil => rfl
  | cons e rest ih =>
      obtain ⟨first, others⟩ := List.forall_mem_cons.mp valid
      rw [ipText_cons, feed_break, feed_outside (letter_notMem_entry first), ih others]

/-- The reader in the block: it goes on behind it with what it has read. -/
theorem feed_ipText (valid : ∀ e ∈ entries, validIpOrCidr ipAddr e = true) (out : List String)
    (text : List Char) :
    ∃ inIp, feed (true, out) (ipText entries ++ text) = feed (inIp, out ++ kept entries) text := by
  induction entries generalizing out with
  | nil => exact ⟨true, by rw [kept, List.append_nil, ipText, List.flatMap_nil, List.nil_append]⟩
  | cons e rest ih =>
      obtain ⟨first, others⟩ := List.forall_mem_cons.mp valid
      obtain ⟨after, entry⟩ := Entry.exists_of_valid first
      rw [ipText_cons, feed_break, kept]
      by_cases leading : '\n' ∈ e.toList.takeWhile isWhitespace
      · rw [if_pos leading, entry.feed_leading leading, feed_ipText_outside others, List.append_nil]
        exact ⟨false, rfl⟩
      · rw [if_neg leading]
        by_cases broken : '\n' ∈ e.toList
        · have trailing : '\n' ∈ after := by
            rw [entry.whole, List.mem_append, List.mem_append] at broken
            exact (broken.resolve_left fun front =>
              front.elim leading (entry.notMem_address rfl))
          rw [if_pos broken, entry.feed_trailing leading trailing, feed_ipText_outside others]
          exact ⟨false, rfl⟩
        · rw [if_neg broken, entry.feed_clean broken]
          obtain ⟨inIp, read⟩ := ih others (out ++ [trim e])
          rw [List.append_assoc, List.singleton_append] at read
          exact ⟨inIp, read⟩

/-- The first line of the second block and what follows it. -/
def cidrLine : List Char := [' ', ' ', 'c', 'i', 'd', 'r', ':']

def rangesText : List Char :=
  ("    - \"127.0.0.0/8\"\n".toList ++ "    - \"10.0.0.0/8\"\n".toList) ++
    ("    - \"172.16.0.0/12\"\n".toList ++ "    - \"192.168.0.0/16\"\n".toList)

/-- The lines before the entries, the last of them without its end. -/
def headText : List Char :=
  "name: northkey/whitelist\ndescription: \"NorthKey never-ban allowlist\"\n".toList ++
    "whitelist:\n  reason: \"NorthKey allowlist\"\n  ip:".toList

theorem toList_ipLines_eq (entries : List String) : (ipLines entries).toList = ipText entries := by
  have mark : "\"\n".toList = ['"', '\n'] := String.toList_ofList
  rw [toList_ipLines, ipText, toList_entryHead, mark]

theorem toList_append_two (a b : String) : (a ++ b).toList = a.toList ++ b.toList :=
  String.toList_append

theorem toList_yamlHead : yamlHead.toList = headText ++ ['\n'] := by
  refine (toList_append_two _ _).trans ?_
  unfold headText
  repeat rw [String.toList_ofList]
  simp only [List.cons_append, List.nil_append]

theorem toList_yamlTail : yamlTail.toList = cidrLine ++ '\n' :: rangesText := by
  refine (toList_append_two _ _).trans ?_
  unfold rangesText cidrLine
  repeat rw [String.toList_ofList]
  simp only [List.cons_append, List.nil_append]

theorem toList_allowlistYaml (entries : List String) :
    (allowlistYaml entries).toList =
      headText ++ '\n' :: (ipText entries ++ (cidrLine ++ '\n' :: rangesText)) := by
  refine (toList_append_three yamlHead (ipLines entries) yamlTail).trans ?_
  rw [toList_yamlHead, toList_ipLines_eq, toList_yamlTail, List.append_assoc, List.singleton_append]

theorem feed_headText : feed (false, []) headText = (true, []) := by
  unfold headText
  repeat rw [String.toList_ofList]
  rfl

theorem feed_cidrLine (inIp : Bool) (out : List String) :
    feed (inIp, out) cidrLine = (false, out) := by
  have line : '\n' ∉ cidrLine := by decide
  rw [feed_line _ line, allowlistLine, String.toList_ofList, String.toList_ofList]
  cases inIp <;> rfl

theorem letter_notMem_rangesText : 'i' ∉ rangesText := by
  unfold rangesText
  repeat rw [String.toList_ofList]
  decide

/-- What is read of the file. -/
theorem parseAllowlist_allowlistYaml (valid : ∀ e ∈ entries, validIpOrCidr ipAddr e = true) :
    parseAllowlist (allowlistYaml entries) = kept entries := by
  obtain ⟨inIp, read⟩ := feed_ipText valid [] (cidrLine ++ '\n' :: rangesText)
  rw [parseAllowlist_eq, toList_allowlistYaml, feed_break, feed_headText, read, feed_break,
    feed_cidrLine, feed_outside letter_notMem_rangesText]
  rfl

end Read

/-! ## The built-in ranges

The purpose of the file for CrowdSec: what the list under the key `cidr` holds.
-/

/-- An item of a list, in quotation marks. -/
def cidrItem (line : List Char) : Option String :=
  if entryHead.isPrefixOf line && line.getLast? == some '"' then
    some (String.ofList (line.drop entryHead.length).dropLast)
  else none

/-- The items up to the first line that is none. -/
def cidrItems : List (List Char) → List String
  | [] => []
  | line :: rest =>
      match cidrItem line with
      | some range => range :: cidrItems rest
      | none => []

/-- The items below the key `cidr` of the whitelist. -/
def cidrList (yaml : String) : List String :=
  cidrItems ((strLines yaml.toList).dropWhile (· != cidrLine)).tail

def privateRanges : List String := ["127.0.0.0/8", "10.0.0.0/8", "172.16.0.0/12", "192.168.0.0/16"]

theorem strLines_break (a b : List Char) :
    strLines (a ++ '\n' :: b) = (a.splitOn '\n').map dropReturn ++ strLines b := by
  have some_ : b.splitOn '\n' ≠ [] := by
    rw [List.splitOn_eq_splitOnP]
    exact List.splitOnP_ne_nil _ _
  rw [strLines, Lines.splitOn_append_break, List.dropLast_append_of_ne_nil some_, List.map_append,
    List.getLast?_append_of_ne_nil _ some_, List.append_assoc, strLines]

theorem mem_of_mem_dropReturn {line : List Char} {c : Char} (mem : c ∈ dropReturn line) :
    c ∈ line := by
  unfold dropReturn at mem
  split at mem
  · exact List.dropLast_subset _ mem
  · exact mem

/-- No line of a text without the letter is the key. -/
theorem dropWhile_lines {a : List Char} (letter : 'i' ∉ a) (rest : List (List Char)) :
    ((a.splitOn '\n').map dropReturn ++ rest).dropWhile (· != cidrLine) =
      rest.dropWhile (· != cidrLine) := by
  refine List.dropWhile_append_of_pos ?_
  intro line mem
  obtain ⟨piece, inside, rfl⟩ := List.mem_map.mp mem
  rw [bne_iff_ne]
  intro same
  have key : 'i' ∈ cidrLine := by decide
  rw [← same] at key
  exact letter (Lines.mem_of_mem_splitOn inside (mem_of_mem_dropReturn key))

theorem dropWhile_headText (rest : List (List Char)) :
    ((headText.splitOn '\n').map dropReturn ++ rest).dropWhile (· != cidrLine) =
      rest.dropWhile (· != cidrLine) := by
  refine List.dropWhile_append_of_pos ?_
  have all : (((headText.splitOn '\n').map dropReturn).all (· != cidrLine)) = true := by
    unfold headText
    repeat rw [String.toList_ofList]
    rfl
  exact List.all_eq_true.mp all

theorem cidrItems_ranges : cidrItems ((strLines (cidrLine ++ '\n' :: rangesText)).dropWhile
    (· != cidrLine)).tail = privateRanges := by
  unfold rangesText
  repeat rw [String.toList_ofList]
  rfl

/-- Whatever the entries are, the built-in ranges stay. -/
theorem cidrList_allowlistYaml {ipAddr : String → Bool} {entries : List String}
    (valid : ∀ e ∈ entries, validIpOrCidr ipAddr e = true) :
    cidrList (allowlistYaml entries) = privateRanges := by
  have skip : ∀ text, (strLines (ipText entries ++ text)).dropWhile (· != cidrLine) =
      (strLines text).dropWhile (· != cidrLine) := by
    intro text
    induction entries with
    | nil => rfl
    | cons e rest ih =>
        obtain ⟨first, others⟩ := List.forall_mem_cons.mp valid
        rw [ipText_cons, strLines_break, dropWhile_lines (letter_notMem_entry first), ih others]
  rw [cidrList, toList_allowlistYaml, strLines_break, dropWhile_headText, skip, cidrItems_ranges]

/-! ## The script on a server -/

section Script

variable {σ : Type} {sh : Command → σ → σ × Nat} {file : σ → List Char → Option (List Char)}

/-- How the commands of the script treat files: `cat` writes its text, the others leave the file
alone. -/
structure Files (sh : Command → σ → σ × Nat) (file : σ → List Char → Option (List Char)) :
    Prop where
  cat : ∀ path text s,
    file (sh ⟨["cat".toList], [⟨[], ['>'], path⟩], some text⟩ s).1 path = some text
  reload : ∀ s, file (sh reload s).1 allowlistPath = file s allowlistPath
  echo : ∀ s, file (sh echoDone s).1 allowlistPath = file s allowlistPath

/-- The file after the script. -/
theorem file_script (files : Files sh file) (entries : List String) (s : σ) :
    file (runProgram sh [[writeAllowlist entries], [reload], [echoDone]] s).1 allowlistPath =
      some (allowlistYaml entries).toList := by
  have first : [[reload], [echoDone]] ≠ ([] : List AndList) := List.cons_ne_nil _ _
  have second : [[echoDone]] ≠ ([] : List AndList) := List.cons_ne_nil _ _
  rw [runProgram, if_pos first, runProgram, if_pos second, runProgram_single, runAnd_single,
    runAnd_single, files.echo, files.reload]
  exact files.cat allowlistPath _ s

/-- An accepted list is written with the built-in ranges in the file, and read back exactly when no
entry but the last has a line break around it, and the last has none before its address. -/
theorem allowlist_iff {ipAddr : String → Bool} {entries : List String}
    (accepted : (Control.allowlistSet entries).accepted ipAddr = true) (files : Files sh file)
    (s : σ) :
    ∃ p yaml, program (Control.allowlistSet entries).command.toList = some p ∧
      file (runProgram sh p s).1 allowlistPath = some yaml ∧
      cidrList (String.ofList yaml) = privateRanges ∧
      (parseAllowlist (String.ofList yaml) = entries.map trim ↔
        (∀ e ∈ entries.dropLast, '\n' ∉ e.toList) ∧
          ∀ e, entries.getLast? = some e → '\n' ∉ e.toList.takeWhile isWhitespace) := by
  have valid : ∀ e ∈ entries, validIpOrCidr ipAddr e = true := List.all_eq_true.mp accepted
  have clean : ∀ e ∈ entries, 'Y' ∉ e.toList := fun e mem =>
    notMem_of_validIpOrCidr (valid e mem) (by decide) rfl
  refine ⟨_, _, program_allowlistScript clean, file_script files entries s, ?_, ?_⟩
  · rw [String.ofList_toList, cidrList_allowlistYaml valid]
  · rw [String.ofList_toList, parseAllowlist_allowlistYaml valid]
    exact kept_eq_iff entries

end Script

/-! A server with its files, and lists with a line break in them. -/

namespace Disk

abbrev Store := List Char → Option (List Char)

/-- `cat` with a text and a target; the other commands of the script write no file. -/
def sh (c : Command) (s : Store) : Store × Nat :=
  match c.input, c.redirects with
  | some text, [⟨[], ['>'], path⟩] => (fun q => if q = path then some text else s q, 0)
  | _, _ => (s, 0)

theorem files : Files sh fun s => s where
  cat := fun _ _ _ => if_pos rfl
  reload := fun _ => rfl
  echo := fun _ => rfl

/-- `IpAddr::from_str` on the two addresses. -/
def ipAddr (s : String) : Bool := s == "198.51.100.4" || s == "198.51.100.5"

end Disk

/-- Two addresses are read back. -/
theorem allowlist_iff_two :
    ∃ p yaml,
      program (Control.allowlistSet ["198.51.100.4", "198.51.100.5"]).command.toList = some p ∧
      (runProgram Disk.sh p fun _ => none).1 allowlistPath = some yaml ∧
      cidrList (String.ofList yaml) = privateRanges ∧
      parseAllowlist (String.ofList yaml) = ["198.51.100.4", "198.51.100.5"].map trim := by
  have accepted : (Control.allowlistSet ["198.51.100.4", "198.51.100.5"]).accepted Disk.ipAddr =
      true := by
    decide +kernel
  obtain ⟨p, yaml, read, written, ranges, back⟩ :=
    allowlist_iff accepted Disk.files (fun _ => none)
  refine ⟨p, yaml, read, written, ranges, back.mpr ⟨?_, ?_⟩⟩
  · intro e mem
    rw [List.mem_singleton.mp mem, String.toList_ofList]
    decide
  · intro e last
    have same : some "198.51.100.5" = some e := last
    rw [← Option.some.inj same, String.toList_ofList]
    decide

/-- A line break behind the first address, and the second is not read back. -/
theorem allowlist_false :
    (Control.allowlistSet ["198.51.100.4\n", "198.51.100.5"]).accepted Disk.ipAddr = true ∧
    ∃ p yaml,
      program (Control.allowlistSet ["198.51.100.4\n", "198.51.100.5"]).command.toList = some p ∧
      (runProgram Disk.sh p fun _ => none).1 allowlistPath = some yaml ∧
      parseAllowlist (String.ofList yaml) = ["198.51.100.4"] ∧
      ["198.51.100.4\n", "198.51.100.5"].map trim = ["198.51.100.4", "198.51.100.5"] := by
  have accepted : (Control.allowlistSet ["198.51.100.4\n", "198.51.100.5"]).accepted Disk.ipAddr =
      true := by
    decide +kernel
  have valid : ∀ e ∈ ["198.51.100.4\n", "198.51.100.5"], validIpOrCidr Disk.ipAddr e = true :=
    List.all_eq_true.mp accepted
  have clean : ∀ e ∈ ["198.51.100.4\n", "198.51.100.5"], 'Y' ∉ e.toList := fun e mem =>
    notMem_of_validIpOrCidr (valid e mem) (by decide) rfl
  refine ⟨accepted, _, _, program_allowlistScript clean, file_script Disk.files _ _, ?_, ?_⟩
  · rw [String.ofList_toList, parseAllowlist_allowlistYaml valid]
    decide +kernel
  · decide +kernel

end Sentinel.Servers
