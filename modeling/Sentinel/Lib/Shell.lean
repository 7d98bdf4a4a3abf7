import Sentinel.Lib.Lines

/-!
# Commands of a shell

Token recognition and command lists of the POSIX shell, without expansions: words, single quotes,
redirections, here-documents with a quoted delimiter, `;`, `&&` and line breaks. A text with any
other character that means something to a shell is not read, nor is one with a command that begins
with a reserved word or a special built-in utility. Only blanks and tabs separate words; any other
white space but a line break belongs to a word.

The lexer reads character by character and never looks at the tokens it has read (`run_frame`), so a
text can be read in pieces. The status of a list of commands is that of the last one that ran.
-/

namespace Sentinel.Shell

inductive Token where
  | word (text : List Char)
  /-- `>` or `>&`, with the number in front of it -/
  | redirect (fd op : List Char)
  /-- a here-document, with its text -/
  | here (fd text : List Char)
  | andIf
  | semi
  | newline
  deriving DecidableEq, Repr

/-- A here-document that was announced: its delimiter is the next word, or is known. -/
inductive Pending where
  | none
  | awaiting (fd : List Char)
  | ready (fd delimiter : List Char)
  deriving DecidableEq, Repr

inductive Mode where
  | between
  | word (text : List Char) (quoted : Bool)
  | single (text : List Char)
  | amp
  | great (fd : List Char)
  | less (fd : List Char)
  | dless (fd : List Char)
  | here (text line : List Char)
  | failed
  deriving DecidableEq, Repr

/-- The lexer; the last token comes first. -/
structure State where
  out : List Token
  pending : Pending
  mode : Mode
  deriving DecidableEq, Repr

def init : State := ⟨[], .none, .between⟩

def State.emit (st : State) (t : Token) : State := ⟨t :: st.out, st.pending, .between⟩

def State.become (st : State) (mode : Mode) : State := { st with mode }

inductive CharClass where
  | blank | newline | quote | semi | amp | great | less | ordinary | other
  deriving DecidableEq, Repr

def classify (c : Char) : CharClass :=
  if c = ' ' ∨ c = '\t' then .blank
  else if c = '\n' then .newline
  else if c = '\'' then .quote
  else if c = ';' then .semi
  else if c = '&' then .amp
  else if c = '>' then .great
  else if c = '<' then .less
  else if c ∈ ['$', '\u0060', '"', '\\', '(', ')', '|', '*', '?', '[', '#', '~', '\u007b', '\u007d',
    '!', '='] then .other
  else .ordinary

/-- A word is over. -/
def State.finish (st : State) (text : List Char) (quoted : Bool) : State :=
  match st.pending with
  | .awaiting fd => if quoted then ⟨st.out, .ready fd text, .between⟩ else st.become .failed
  | _ => st.emit (.word text)

def State.endLine (st : State) : State :=
  match st.pending with
  | .none => st.emit .newline
  | .awaiting _ => st.become .failed
  | .ready _ _ => st.become (.here [] [])

/-- A character between two words. -/
def State.plain (st : State) (c : Char) : State :=
  match classify c with
  | .blank => st.become .between
  | .newline => st.endLine
  | .quote => st.become (.single [])
  | .semi => st.emit .semi
  | .amp => st.become .amp
  | .great => st.become (.great [])
  | .less => st.become (.less [])
  | .ordinary => st.become (.word [c] false)
  | .other => st.become .failed

/-- A line of a here-document is over. -/
def State.hereLine (st : State) (text line : List Char) : State :=
  match st.pending with
  | .ready fd delimiter =>
      if line = delimiter then ⟨.newline :: .here fd text :: st.out, .none, .between⟩
      else st.become (.here (text ++ line ++ ['\n']) [])
  | _ => st.become .failed

/-- A character that ends a word. -/
def State.endWord (st : State) (text : List Char) (quoted : Bool) (c : Char) : State :=
  let st := st.finish text quoted
  if st.mode = .failed then st else st.plain c

/-- A character inside a word. -/
def State.inWord (st : State) (text : List Char) (quoted : Bool) (c : Char) : State :=
  match classify c with
  | .ordinary => st.become (.word (text ++ [c]) quoted)
  | .quote => st.become (.single text)
  | .great =>
      if quoted = false ∧ text.all Char.isDigit then st.become (.great text)
      else st.endWord text quoted c
  | .less =>
      if quoted = false ∧ text.all Char.isDigit then st.become (.less text)
      else st.endWord text quoted c
  | .other => st.become .failed
  | _ => st.endWord text quoted c

def step (st : State) (c : Char) : State :=
  match st.mode with
  | .failed => st
  | .between => st.plain c
  | .word text quoted => st.inWord text quoted c
  | .single text => if c = '\'' then st.become (.word text true) else st.become (.single (text ++ [c]))
  | .amp => if c = '&' then st.emit .andIf else st.become .failed
  | .great fd =>
      if c = '&' then st.emit (.redirect fd ['>', '&']) else (st.emit (.redirect fd ['>'])).plain c
  | .less fd => if c = '<' then st.become (.dless fd) else st.become .failed
  | .dless fd =>
      if c = '-' then st.become .failed
      else State.plain ⟨st.out, .awaiting fd, .between⟩ c
  | .here text line =>
      if c = '\n' then st.hereLine text line else st.become (.here text (line ++ [c]))

def run (st : State) (text : List Char) : State := text.foldl step st

/-- The tokens, when the text may end here. -/
def State.close (st : State) : Option (List Token) :=
  match st.mode, st.pending with
  | .between, .none => some st.out.reverse
  | .word text _, .none => some (.word text :: st.out).reverse
  | _, _ => none

def tokens (text : List Char) : Option (List Token) := (run init text).close

/-! ## Reading in pieces -/

theorem run_append (st : State) (s t : List Char) : run st (s ++ t) = run (run st s) t :=
  List.foldl_append

/-- The tokens that were there before. -/
def State.under (st : State) (before : List Token) : State := { st with out := st.out ++ before }

section Frame

variable (st : State) (before : List Token)

theorem ite_under (p : Prop) [Decidable p] {a b a' b' : State} (yes : a' = a.under before)
    (no : b' = b.under before) :
    (if p then a' else b') = (if p then a else b).under before := by
  split
  · exact yes
  · exact no

theorem finish_under (text : List Char) (quoted : Bool) :
    (st.under before).finish text quoted = (st.finish text quoted).under before := by
  obtain ⟨out, pending, mode⟩ := st
  cases pending with
  | awaiting fd => cases quoted <;> rfl
  | _ => rfl

theorem endLine_under : (st.under before).endLine = st.endLine.under before := by
  obtain ⟨out, pending, mode⟩ := st
  cases pending <;> rfl

theorem plain_under (c : Char) : (st.under before).plain c = (st.plain c).under before := by
  unfold State.plain
  cases classify c with
  | newline => exact endLine_under st before
  | _ => rfl

theorem hereLine_under (text line : List Char) :
    (st.under before).hereLine text line = (st.hereLine text line).under before := by
  obtain ⟨out, pending, mode⟩ := st
  cases pending with
  | ready fd delimiter => exact ite_under before (line = delimiter) rfl rfl
  | _ => rfl

theorem endWord_under (text : List Char) (quoted : Bool) (c : Char) :
    (st.under before).endWord text quoted c = (st.endWord text quoted c).under before := by
  unfold State.endWord
  rw [finish_under]
  dsimp only
  rw [plain_under]
  exact ite_under before ((st.finish text quoted).mode = .failed) rfl rfl

theorem inWord_under (text : List Char) (quoted : Bool) (c : Char) :
    (st.under before).inWord text quoted c = (st.inWord text quoted c).under before := by
  unfold State.inWord
  rw [endWord_under]
  cases classify c with
  | great => exact ite_under before (quoted = false ∧ text.all Char.isDigit = true) rfl rfl
  | less => exact ite_under before (quoted = false ∧ text.all Char.isDigit = true) rfl rfl
  | _ => rfl

theorem step_under (c : Char) : step (st.under before) c = (step st c).under before := by
  obtain ⟨out, pending, mode⟩ := st
  cases mode with
  | between => exact plain_under _ before c
  | word text quoted => exact inWord_under _ before text quoted c
  | single text => exact ite_under before (c = '\'') rfl rfl
  | amp => exact ite_under before (c = '&') rfl rfl
  | great fd =>
      have later := plain_under (State.emit ⟨out, pending, .great fd⟩ (.redirect fd ['>'])) before c
      exact ite_under before (c = '&') rfl later
  | less fd => exact ite_under before (c = '<') rfl rfl
  | dless fd =>
      have later := plain_under ⟨out, .awaiting fd, .between⟩ before c
      exact ite_under before (c = '-') rfl later
  | here text line =>
      have later := hereLine_under ⟨out, pending, .here text line⟩ before text line
      exact ite_under before (c = '\n') later rfl
  | failed => rfl

/-- What was read before is not looked at. -/
theorem run_under (text : List Char) : run (st.under before) text = (run st text).under before := by
  induction text generalizing st with
  | nil => rfl
  | cons c rest ih => exact (congrArg (run · rest) (step_under st before c)).trans (ih (step st c))

end Frame

/-- Reading on from between two words. -/
theorem run_between (out : List Token) (text : List Char) :
    run ⟨out, .none, .between⟩ text = (run init text).under out :=
  run_under init out text

/-- Ordinary characters extend a word. -/
theorem run_word {text : List Char} (ordinary : ∀ c ∈ text, classify c = .ordinary)
    (out : List Token) (pending : Pending) (w : List Char) (quoted : Bool) :
    run ⟨out, pending, .word w quoted⟩ text = ⟨out, pending, .word (w ++ text) quoted⟩ := by
  induction text generalizing w with
  | nil => rw [List.append_nil]; rfl
  | cons c rest ih =>
      obtain ⟨first, others⟩ := List.forall_mem_cons.mp ordinary
      have extended : step ⟨out, pending, .word w quoted⟩ c =
          ⟨out, pending, .word (w ++ [c]) quoted⟩ := by
        change State.inWord _ w quoted c = _
        rw [State.inWord, first]
        rfl
      rw [run, List.foldl_cons, extended, ← run, ih others, List.append_assoc]
      rfl

/-- Ordinary characters are a word. -/
theorem run_ordinary {text : List Char} (nonempty : text ≠ [])
    (ordinary : ∀ c ∈ text, classify c = .ordinary) (out : List Token) (pending : Pending) :
    run ⟨out, pending, .between⟩ text = ⟨out, pending, .word text false⟩ := by
  cases text with
  | nil => exact absurd rfl nonempty
  | cons c rest =>
      obtain ⟨first, others⟩ := List.forall_mem_cons.mp ordinary
      have began : step ⟨out, pending, .between⟩ c = ⟨out, pending, .word [c] false⟩ := by
        change State.plain _ c = _
        rw [State.plain, first]
        rfl
      rw [run, List.foldl_cons, began, ← run, run_word others]
      rfl

theorem run_blanks {text : List Char} (blank : ∀ c ∈ text, classify c = .blank)
    (out : List Token) (pending : Pending) :
    run ⟨out, pending, .between⟩ text = ⟨out, pending, .between⟩ := by
  induction text with
  | nil => rfl
  | cons c rest ih =>
      obtain ⟨first, others⟩ := List.forall_mem_cons.mp blank
      have stayed : step ⟨out, pending, .between⟩ c = ⟨out, pending, .between⟩ := by
        change State.plain _ c = _
        rw [State.plain, first]
        rfl
      rw [run, List.foldl_cons, stayed, ← run, ih others]

theorem endWord_eq (out : List Token) (mode : Mode) (w : List Char) (quoted : Bool) (c : Char) :
    State.endWord ⟨out, .none, mode⟩ w quoted c =
      State.plain ⟨.word w :: out, .none, .between⟩ c := by
  have more : Mode.between ≠ .failed := by decide
  unfold State.endWord
  exact if_neg more

/-- Blanks around an ordinary text leave that word. -/
theorem run_argument {before word after : List Char} (left : ∀ c ∈ before, classify c = .blank)
    (nonempty : word ≠ []) (ordinary : ∀ c ∈ word, classify c = .ordinary)
    (right : ∀ c ∈ after, classify c = .blank) :
    run init (before ++ word ++ after ++ [' ']) = ⟨[.word word], .none, .between⟩ := by
  have last : ∀ c ∈ after ++ [' '], classify c = .blank := by
    intro c mem
    obtain mem | mem := List.mem_append.mp mem
    · exact right c mem
    · rw [List.mem_singleton.mp mem]
      rfl
  have ended : ∀ rest : List Char, rest ≠ [] → (∀ c ∈ rest, classify c = .blank) →
      run ⟨[], .none, .word word false⟩ rest = ⟨[.word word], .none, .between⟩ := by
    intro rest more blank
    obtain ⟨c, cs, rfl⟩ := List.exists_cons_of_ne_nil more
    obtain ⟨first, others⟩ := List.forall_mem_cons.mp blank
    have done : step ⟨[], .none, .word word false⟩ c = ⟨[.word word], .none, .between⟩ := by
      change State.inWord _ word false c = _
      rw [State.inWord, first, endWord_eq, State.plain, first]
      rfl
    rw [run, List.foldl_cons, done, ← run, run_blanks others]
  rw [List.append_assoc, run_append, run_append _ before, init, run_blanks left,
    run_ordinary nonempty ordinary, ended _ (by simp) last]

/-- Characters that only make words and lines. -/
def IsFlat (c : Char) : Prop :=
  classify c = .ordinary ∨ classify c = .blank ∨ classify c = .newline

/-- What the lexer holds after such a text. -/
structure Flat (text : List Char) (st : State) : Prop where
  pending : st.pending = .none
  mode : st.mode = .between ∨ ∃ w, st.mode = .word w false
  tokens : ∀ t ∈ st.out, (∃ w, t = .word w) ∨ t = .newline
  newline : .newline ∈ st.out ↔ '\n' ∈ text

/-- The characters that mean something outside words. -/
def specials : List Char :=
  ['\'', ';', '&', '>', '<', '$', '\u0060', '"', '\\', '(', ')', '|', '*', '?', '[', '#', '~',
    '\u007b', '\u007d', '!', '=']

/-- Any other character belongs to a word, unless it is a blank or a line break. -/
theorem classify_of_notMem {c : Char} (plain : c ∉ specials) :
    classify c = if c = ' ' ∨ c = '\t' then .blank else if c = '\n' then .newline else .ordinary := by
  simp only [specials, List.mem_cons, not_or] at plain
  obtain ⟨quote, semi, amp, great, less, rest⟩ := plain
  unfold classify
  rw [if_neg quote, if_neg semi, if_neg amp, if_neg great, if_neg less]
  refine if_congr Iff.rfl rfl (if_congr Iff.rfl rfl (if_neg ?_))
  simp only [List.mem_cons, not_or]
  exact rest

theorem isFlat_of_notMem {c : Char} (plain : c ∉ specials) : IsFlat c := by
  rw [IsFlat, classify_of_notMem plain]
  split
  · exact .inr (.inl rfl)
  · split
    · exact .inr (.inr rfl)
    · exact .inl rfl

theorem eq_newline_of_classify {c : Char} (line : classify c = .newline) : c = '\n' := by
  by_contra other
  unfold classify at line
  rw [if_neg other] at line
  repeat' split at line
  all_goals cases line

theorem flat_init : Flat [] init where
  pending := rfl
  mode := .inl rfl
  tokens := List.forall_mem_nil _
  newline := ⟨fun mem => absurd mem List.not_mem_nil, fun mem => absurd mem List.not_mem_nil⟩

/-- An ordinary character goes into a word. -/
theorem flat_ordinary {text : List Char} {out : List Token} {mode : Mode} {w : List Char} {c : Char}
    (flat : Flat text ⟨out, .none, mode⟩) (ordinary : classify c = .ordinary) :
    Flat (text ++ [c]) ⟨out, .none, .word (w ++ [c]) false⟩ where
  pending := rfl
  mode := .inr ⟨_, rfl⟩
  tokens := flat.tokens
  newline := by
    have other : c ≠ '\n' := by
      rintro rfl
      cases ordinary
    rw [List.mem_append, List.mem_singleton, flat.newline]
    exact ⟨.inl, fun mem => mem.resolve_right fun same => other same.symm⟩

/-- A blank or a line break ends the word that is being read. -/
theorem flat_separator {text : List Char} {out : List Token} {mode : Mode} {c : Char}
    (new : List Token) (flat : Flat text ⟨out, .none, mode⟩)
    (tokens : ∀ t ∈ new, (∃ w, t = .word w) ∨ t = .newline) (line : .newline ∈ new ↔ c = '\n') :
    Flat (text ++ [c]) ⟨new ++ out, .none, .between⟩ where
  pending := rfl
  mode := .inl rfl
  tokens := by
    intro t mem
    obtain mem | mem := List.mem_append.mp mem
    · exact tokens t mem
    · exact flat.tokens t mem
  newline := by
    rw [List.mem_append, List.mem_append, List.mem_singleton, line, flat.newline, or_comm,
      eq_comm]

theorem flat_step {text : List Char} {st : State} {c : Char} (flat : Flat text st)
    (more : IsFlat c) : Flat (text ++ [c]) (step st c) := by
  obtain ⟨out, pending, mode⟩ := st
  have none := flat.pending
  dsimp only at none
  subst none
  obtain between | ⟨w, inWord⟩ := flat.mode
  · dsimp only at between
    subst between
    change Flat _ (State.plain _ c)
    rw [State.plain]
    obtain ordinary | blank | newline := more
    · rw [ordinary]
      exact flat_ordinary (w := []) flat ordinary
    · rw [blank]
      refine flat_separator [] flat (List.forall_mem_nil _) ?_
      refine ⟨fun mem => absurd mem List.not_mem_nil, ?_⟩
      rintro rfl
      cases blank
    · rw [newline]
      refine flat_separator [.newline] flat (by simp) ?_
      exact ⟨fun _ => eq_newline_of_classify newline, fun _ => List.mem_singleton_self _⟩
  · dsimp only at inWord
    subst inWord
    change Flat _ (State.inWord _ w false c)
    rw [State.inWord]
    obtain ordinary | blank | newline := more
    · rw [ordinary]
      exact flat_ordinary flat ordinary
    · rw [blank, endWord_eq, State.plain, blank]
      refine flat_separator [.word w] flat (by simp) ?_
      refine ⟨fun mem => by simp at mem, ?_⟩
      rintro rfl
      cases blank
    · rw [newline, endWord_eq, State.plain, newline]
      refine flat_separator [.newline, .word w] flat (by simp) ?_
      exact ⟨fun _ => eq_newline_of_classify newline, fun _ => List.mem_cons_self⟩

/-- The lexer on a text of words and lines. -/
theorem flat_run {text : List Char} (flat : ∀ c ∈ text, IsFlat c) : Flat text (run init text) := by
  induction text using List.reverseRecOn with
  | nil => exact flat_init
  | append_singleton text c ih =>
      obtain ⟨before, last⟩ := List.forall_mem_append.mp flat
      rw [run_append]
      exact flat_step (ih before) (last c (List.mem_singleton_self c))

/-- A text of words and lines as an argument: the tokens it leaves. -/
theorem flat_argument {text : List Char} (flat : ∀ c ∈ text, IsFlat c) :
    ∃ ts, run init (text ++ [' ']) = ⟨ts, .none, .between⟩ ∧
      (∀ t ∈ ts, (∃ w, t = .word w) ∨ t = .newline) ∧ (.newline ∈ ts ↔ '\n' ∈ text) := by
  have blank : classify ' ' = .blank := rfl
  have whole : ∀ c ∈ text ++ [' '], IsFlat c := by
    rw [List.forall_mem_append]
    exact ⟨flat, by simpa using .inr (.inl blank)⟩
  have held := flat_run whole
  have mode : (run init (text ++ [' '])).mode = .between := by
    have before := flat_run flat
    rw [run_append]
    generalize run init text = st at before ⊢
    obtain ⟨out, pending, mode⟩ := st
    have none := before.pending
    dsimp only at none
    subst none
    obtain between | ⟨w, inWord⟩ := before.mode
    · dsimp only at between
      subst between
      rfl
    · dsimp only at inWord
      subst inWord
      change (State.inWord ⟨out, .none, .word w false⟩ w false ' ').mode = .between
      rw [State.inWord, blank, endWord_eq]
      rfl
  generalize run init (text ++ [' ']) = st at held mode ⊢
  obtain ⟨out, pending, mode'⟩ := st
  obtain ⟨none, -, tokens, newline⟩ := held
  dsimp only at none mode
  subst none mode
  refine ⟨out, rfl, tokens, ?_⟩
  rw [newline, List.mem_append, List.mem_singleton]
  exact or_iff_left (by decide)

/-- A template with an argument before a blank: what stands around it is read as it would be read
without it. -/
theorem run_template {before argument after : List Char} {out ts : List Token}
    (left : run init before = ⟨out, .none, .between⟩)
    (middle : run init (argument ++ [' ']) = ⟨ts, .none, .between⟩) :
    run init (before ++ (argument ++ ' ' :: after)) = (run init after).under (ts ++ out) := by
  have shape : before ++ (argument ++ ' ' :: after) =
      before ++ (argument ++ [' ']) ++ after := by
    simp
  rw [shape, run_append, run_append, left, run_between, middle]
  exact run_between _ _

/-- The text of a here-document none of whose lines can be the delimiter: a character of the
delimiter is missing in it. -/
theorem run_here {text : List Char} {x : Char} {delimiter : List Char} (inside : x ∈ delimiter)
    (missing : x ∉ text) (out : List Token) (fd before line : List Char) (start : x ∉ line) :
    ∃ before' line', x ∉ line' ∧ before' ++ line' = before ++ line ++ text ∧
      (text.getLast? = some '\n' → line' = []) ∧
      run ⟨out, .ready fd delimiter, .here before line⟩ text =
        ⟨out, .ready fd delimiter, .here before' line'⟩ := by
  induction text generalizing before line with
  | nil =>
      refine ⟨before, line, start, (List.append_nil _).symm, ?_, rfl⟩
      intro last
      simp at last
  | cons c rest ih =>
      obtain ⟨other, later⟩ := not_or.mp (mt List.mem_cons.mpr missing)
      by_cases ends : c = '\n'
      · have apart : line ≠ delimiter := fun same => start (same ▸ inside)
        have read : step ⟨out, .ready fd delimiter, .here before line⟩ c =
            ⟨out, .ready fd delimiter, .here (before ++ line ++ ['\n']) []⟩ :=
          (if_pos ends).trans (if_neg apart)
        obtain ⟨before', line', clean, whole, last, done⟩ :=
          ih later (before ++ line ++ ['\n']) [] List.not_mem_nil
        refine ⟨before', line', clean, ?_, ?_, ?_⟩
        · rw [whole, ends]
          simp
        · intro final
          cases rest with
          | nil =>
              have same : run ⟨out, .ready fd delimiter,
                  .here (before ++ line ++ ['\n']) []⟩ [] = _ := done
              cases same
              rfl
          | cons d rest => exact last (by simpa using final)
        · rw [run, List.foldl_cons, read]
          exact done
      · have read : step ⟨out, .ready fd delimiter, .here before line⟩ c =
            ⟨out, .ready fd delimiter, .here before (line ++ [c])⟩ := if_neg ends
        have clean : x ∉ line ++ [c] := by
          rw [List.mem_append, List.mem_singleton]
          exact fun mem => mem.elim start other
        obtain ⟨before', line', clean', whole, last, done⟩ := ih later before (line ++ [c]) clean
        refine ⟨before', line', clean', ?_, ?_, ?_⟩
        · rw [whole]
          simp
        · intro final
          cases rest with
          | nil => exact absurd (by simpa using final) ends
          | cons d rest => exact last (by simpa using final)
        · rw [run, List.foldl_cons, read]
          exact done

/-! ## Commands -/

structure Redirect where
  fd : List Char
  op : List Char
  target : List Char
  deriving DecidableEq, Repr

/-- A simple command: its words, its redirections and the text of its here-document. -/
structure Command where
  words : List (List Char)
  redirects : List Redirect
  input : Option (List Char)
  deriving DecidableEq, Repr

def command : List Token → Option Command
  | [] => some ⟨[], [], none⟩
  | .word w :: rest => (command rest).map fun c => { c with words := w :: c.words }
  | .redirect fd op :: .word target :: rest =>
      (command rest).map fun c => { c with redirects := ⟨fd, op, target⟩ :: c.redirects }
  | .here _ text :: rest => (command rest).map fun c => { c with input := some text }
  | _ => none

/-- Every one of them. -/
def each {α β : Type} (f : α → Option β) : List α → Option (List β)
  | [] => some []
  | a :: rest =>
      match f a, each f rest with
      | some b, some bs => some (b :: bs)
      | _, _ => none

/-- Commands with `&&` between them. -/
abbrev AndList := List Command

def andList (ts : List Token) : Option AndList := each command (ts.splitOn .andIf)

def isSeparator (t : Token) : Bool := t = .semi || t = .newline

/-- The lists of a program, without the empty ones between separators. -/
def parse (ts : List Token) : Option (List AndList) :=
  each andList ((ts.splitOnP isSeparator).filter (· ≠ []))

/-- The lists of a text, whatever its commands begin with. -/
def lists (text : List Char) : Option (List AndList) := (tokens text).bind parse

/-- Reserved words, and the utilities that act on the shell itself. -/
def reserved : List String :=
  ["!", "\x7b", "\x7d", "case", "do", "done", "elif", "else", "esac", "fi", "for", "if", "in", "then",
    "until", "while", "function", "select", "time", "coproc", "[[", "]]",
    ".", ":", "break", "continue", "eval", "exec", "exit", "export", "readonly", "return", "set",
    "shift", "times", "trap", "unset", "source"]

/-- Its status is that of one utility, after which the shell goes on. -/
def Command.isSimple (c : Command) : Bool :=
  c.words.head?.all fun w => decide (w ∉ reserved.map String.toList)

def program (text : List Char) : Option (List AndList) :=
  (lists text).filter fun p => p.all fun l => l.all Command.isSimple

theorem program_eq_some_iff {text : List Char} {p : List AndList} :
    program text = some p ↔ lists text = some p ∧ ∀ l ∈ p, ∀ c ∈ l, c.isSimple = true := by
  simp [program, Option.filter_eq_some_iff]

section Parse

variable {ts : List Token}

theorem splitOn_cons_of_ne {t x : Token} (other : t ≠ x) (ts : List Token) :
    (t :: ts).splitOn x = (ts.splitOn x).modifyHead (t :: ·) := by
  rw [List.splitOn_eq_splitOnP, List.splitOnP_cons_eq_if_modifyHead,
    if_neg (by simpa using other), ← List.splitOn_eq_splitOnP]

theorem andList_ne_nil {l : AndList} (read : andList ts = some l) : l ≠ [] := by
  obtain ⟨r, rs, split⟩ := List.exists_cons_of_ne_nil (List.splitOn_ne_nil Token.andIf ts)
  rw [andList, split, each] at read
  split at read
  · cases read
    exact List.cons_ne_nil _ _
  · cases read

/-- A word in front of a list is the first word of its first command. -/
theorem andList_word (w : List Char) {c : Command} {l : AndList}
    (read : andList ts = some (c :: l)) :
    andList (.word w :: ts) = some ({ c with words := w :: c.words } :: l) := by
  obtain ⟨r, rs, split⟩ := List.exists_cons_of_ne_nil (List.splitOn_ne_nil Token.andIf ts)
  rw [andList, split, each] at read
  rw [andList, splitOn_cons_of_ne (by simp), split, List.modifyHead_cons, each, command]
  split at read
  · rename_i d ds first others
    cases read
    rw [first, others]
    rfl
  · cases read

theorem splitOnP_word (w : List Char) (ts : List Token) :
    (Token.word w :: ts).splitOnP isSeparator =
      (ts.splitOnP isSeparator).modifyHead (Token.word w :: ·) := by
  have plain : isSeparator (.word w) = false := rfl
  rw [List.splitOnP_cons_eq_if_modifyHead, plain, if_neg Bool.false_ne_true]

theorem parse_newline (ts : List Token) : parse (.newline :: ts) = parse ts := by
  rw [parse, List.splitOnP_cons_eq_if_modifyHead, if_pos (by decide)]
  rfl

/-- What begins with no separator has a first command. -/
theorem exists_first {t : Token} (plain : isSeparator t = false) {p : List AndList}
    (read : parse (t :: ts) = some p) : ∃ c cs rest, p = (c :: cs) :: rest := by
  obtain ⟨r, rs, split⟩ := List.exists_cons_of_ne_nil (List.splitOnP_ne_nil isSeparator ts)
  rw [parse, List.splitOnP_cons_eq_if_modifyHead, plain, if_neg Bool.false_ne_true, split,
    List.modifyHead_cons, List.filter_cons_of_pos (by simp), each] at read
  split at read
  · rename_i l ls first _
    cases read
    obtain ⟨c, cs, rfl⟩ := List.exists_cons_of_ne_nil (andList_ne_nil first)
    exact ⟨c, cs, ls, rfl⟩
  · cases read

/-- A word in front of what is no separator is the first word of the first command. -/
theorem parse_cons_word (w : List Char) {t : Token} (plain : isSeparator t = false) {c : Command}
    {cs : AndList} {rest : List AndList} (read : parse (t :: ts) = some ((c :: cs) :: rest)) :
    parse (.word w :: t :: ts) = some (({ c with words := w :: c.words } :: cs) :: rest) := by
  obtain ⟨r, rs, split⟩ := List.exists_cons_of_ne_nil (List.splitOnP_ne_nil isSeparator ts)
  have parted : (t :: ts).splitOnP isSeparator = (t :: r) :: rs := by
    rw [List.splitOnP_cons_eq_if_modifyHead, plain, if_neg Bool.false_ne_true, split,
      List.modifyHead_cons]
  rw [parse, parted, List.filter_cons_of_pos (by simp), each] at read
  rw [parse, splitOnP_word, parted, List.modifyHead_cons, List.filter_cons_of_pos (by simp), each]
  split at read
  · rename_i l ls first others
    cases read
    rw [andList_word w first, others]
  · cases read

/-- A word in front of a program is the first word of its first command. -/
theorem parse_word (w : List Char) {p : List AndList} (read : parse ts = some p) :
    ∃ c cs rest, c.words.head? = some w ∧ parse (.word w :: ts) = some ((c :: cs) :: rest) := by
  cases ts with
  | nil => exact ⟨⟨[w], [], none⟩, [], [], rfl, rfl⟩
  | cons t ts =>
      cases plain : isSeparator t with
      | false =>
          obtain ⟨c, cs, rest, rfl⟩ := exists_first plain read
          exact ⟨_, cs, rest, rfl, parse_cons_word w plain read⟩
      | true =>
          -- the word stands alone before the separator
          refine ⟨⟨[w], [], none⟩, [], p, rfl, ?_⟩
          have alone : andList [Token.word w] = some [⟨[w], [], none⟩] := rfl
          rw [parse, List.splitOnP_cons_eq_if_modifyHead, plain, if_pos rfl,
            List.filter_cons_of_neg (by simp)] at read
          rw [parse, splitOnP_word, List.splitOnP_cons_eq_if_modifyHead, plain, if_pos rfl,
            List.modifyHead_cons, List.filter_cons_of_pos (by simp), each, alone, read]

/-- Words and lines in front of a program leave a program. -/
theorem parse_flat {before : List Token}
    (flat : ∀ t ∈ before, (∃ w, t = .word w) ∨ t = .newline) {p : List AndList}
    (read : parse ts = some p) : ∃ p', parse (before ++ ts) = some p' := by
  induction before with
  | nil => exact ⟨p, read⟩
  | cons t rest ih =>
      obtain ⟨first, others⟩ := List.forall_mem_cons.mp flat
      obtain ⟨p', later⟩ := ih others
      obtain ⟨w, rfl⟩ | rfl := first
      · obtain ⟨c, cs, lists, -, done⟩ := parse_word w later
        exact ⟨_, done⟩
      · exact ⟨p', (parse_newline _).trans later⟩

/-- So are several. -/
theorem parse_words (ws : List (List Char)) {t : Token} (plain : isSeparator t = false)
    {c : Command} {cs : AndList} {rest : List AndList}
    (read : parse (t :: ts) = some ((c :: cs) :: rest)) :
    parse (ws.map Token.word ++ t :: ts) =
      some (({ c with words := ws ++ c.words } :: cs) :: rest) := by
  induction ws with
  | nil => exact read
  | cons w ws ih =>
      cases ws with
      | nil => exact parse_cons_word w plain read
      | cons v ws => exact parse_cons_word w (by rfl) ih

theorem length_each {α β : Type} {f : α → Option β} {l : List α} {l' : List β}
    (read : each f l = some l') : l'.length = l.length := by
  induction l generalizing l' with
  | nil =>
      cases read
      rfl
  | cons a rest ih =>
      rw [each] at read
      split at read
      · rename_i b bs _ others
        cases read
        rw [List.length_cons, List.length_cons, ih others]
      · cases read

/-- What is not empty between separators stays a list of its own. -/
theorem exists_segment {t : Token} (mem : t ∈ ts) (plain : isSeparator t = false) :
    1 ≤ ((ts.splitOnP isSeparator).filter (· ≠ [])).length := by
  induction ts with
  | nil => cases mem
  | cons u rest ih =>
      obtain ⟨r, rs, split⟩ := List.exists_cons_of_ne_nil (List.splitOnP_ne_nil isSeparator rest)
      rw [List.splitOnP_cons_eq_if_modifyHead]
      by_cases cut : isSeparator u = true
      · rw [if_pos cut]
        obtain rfl | mem := List.mem_cons.mp mem
        · rw [cut] at plain
          cases plain
        · exact ih mem
      · rw [if_neg cut, split, List.modifyHead_cons, List.filter_cons_of_pos (by simp),
          List.length_cons]
        omega

/-- A line break between two commands makes two lists of them. -/
theorem two_le_length {before after : List Token} {t u : Token} (left : t ∈ before)
    (right : u ∈ after) (leftPlain : isSeparator t = false) (rightPlain : isSeparator u = false)
    {p : List AndList} (read : parse (before ++ .newline :: after) = some p) : 2 ≤ p.length := by
  rw [parse, List.splitOnP_append_cons _ _ (by rfl), List.filter_append] at read
  have first := exists_segment left leftPlain
  have second := exists_segment right rightPlain
  rw [length_each read, List.length_append]
  omega

end Parse

/-! ## Templates

A text with an argument in it: words in front, the argument and a blank, and a text whose tokens are
known. -/

section Templates

variable {before argument after : List Char} {heads : List (List Char)} {ts : List Token}

theorem close_under {st : State} (closed : st.close = some ts) (before : List Token) :
    (st.under before).close = some (before.reverse ++ ts) := by
  obtain ⟨out, pending, mode⟩ := st
  cases pending with
  | none =>
      cases mode with
      | between =>
          cases closed
          rw [← List.reverse_append]
          rfl
      | word text quoted =>
          cases closed
          rw [← List.reverse_append]
          rfl
      | _ => cases closed
  | _ => cases mode <;> cases closed

/-- The tokens of a template are those of its parts. -/
theorem tokens_template {argumentTokens : List Token}
    (left : run init before = ⟨(heads.map Token.word).reverse, .none, .between⟩)
    (middle : run init (argument ++ [' ']) = ⟨argumentTokens, .none, .between⟩)
    (right : tokens after = some ts) :
    tokens (before ++ (argument ++ ' ' :: after)) =
      some (heads.map Token.word ++ (argumentTokens.reverse ++ ts)) := by
  rw [tokens, run_template left middle, close_under right, List.reverse_append, List.reverse_reverse,
    List.append_assoc]

/-- Any argument of words and lines: the text begins with the first word of the template. -/
theorem lists_flat {w : List Char}
    (left : run init before = ⟨((w :: heads).map Token.word).reverse, .none, .between⟩)
    (flat : ∀ c ∈ argument, IsFlat c) (right : tokens after = some ts) {p : List AndList}
    (read : parse ts = some p) :
    ∃ c cs rest, c.words.head? = some w ∧
      lists (before ++ (argument ++ ' ' :: after)) = some ((c :: cs) :: rest) := by
  obtain ⟨argumentTokens, middle, tokens, -⟩ := flat_argument flat
  have inner : ∀ t ∈ argumentTokens.reverse, (∃ w, t = .word w) ∨ t = .newline :=
    fun t mem => tokens t (List.mem_reverse.mp mem)
  have outer : ∀ t ∈ heads.map Token.word, (∃ w, t = .word w) ∨ t = .newline := by
    intro t mem
    obtain ⟨w, -, rfl⟩ := List.mem_map.mp mem
    exact .inl ⟨w, rfl⟩
  obtain ⟨p₁, read₁⟩ := parse_flat inner read
  obtain ⟨p₂, read₂⟩ := parse_flat outer read₁
  obtain ⟨c, cs, rest, first, done⟩ := parse_word w read₂
  refine ⟨c, cs, rest, first, ?_⟩
  rw [lists, tokens_template left middle right]
  exact done

/-- Tokens that are words, all of them. -/
theorem exists_words {l : List Token} (words : ∀ t ∈ l, (∃ w, t = .word w) ∨ t = .newline)
    (one : .newline ∉ l) : ∃ ws, l = List.map Token.word ws := by
  induction l with
  | nil => exact ⟨[], rfl⟩
  | cons t rest ih =>
      obtain ⟨first, others⟩ := List.forall_mem_cons.mp words
      obtain ⟨other, later⟩ := not_or.mp (mt List.mem_cons.mpr one)
      obtain ⟨ws, rfl⟩ := ih others later
      obtain ⟨w, rfl⟩ | rfl := first
      · exact ⟨w :: ws, rfl⟩
      · exact absurd rfl other

/-- An argument without a line break makes words of the first command. -/
theorem lists_line {t : Token} {c : Command} {cs : AndList} {rest : List AndList}
    (left : run init before = ⟨(heads.map Token.word).reverse, .none, .between⟩)
    (flat : ∀ c ∈ argument, IsFlat c) (one : '\n' ∉ argument)
    (right : tokens after = some (t :: ts)) (plain : isSeparator t = false)
    (read : parse (t :: ts) = some ((c :: cs) :: rest)) :
    ∃ ws, lists (before ++ (argument ++ ' ' :: after)) =
      some (({ c with words := heads ++ (ws ++ c.words) } :: cs) :: rest) := by
  obtain ⟨argumentTokens, middle, tokens, newline⟩ := flat_argument flat
  have inner : ∀ t ∈ argumentTokens.reverse, (∃ w, t = .word w) ∨ t = .newline :=
    fun t mem => tokens t (List.mem_reverse.mp mem)
  obtain ⟨ws, words⟩ := exists_words inner fun mem => one (newline.mp (List.mem_reverse.mp mem))
  refine ⟨ws, ?_⟩
  rw [lists, tokens_template left middle right, words, ← List.append_assoc, ← List.map_append,
    ← List.append_assoc]
  exact parse_words (heads ++ ws) plain read

/-- An argument with a line break leaves two lists at least. -/
theorem lists_broken {w : List Char}
    (left : run init before = ⟨((w :: heads).map Token.word).reverse, .none, .between⟩)
    (flat : ∀ c ∈ argument, IsFlat c) (broken : '\n' ∈ argument)
    (right : tokens after = some ts) {t : Token} (last : t ∈ ts) (plain : isSeparator t = false)
    {p : List AndList} (read : lists (before ++ (argument ++ ' ' :: after)) = some p) :
    2 ≤ p.length := by
  obtain ⟨argumentTokens, middle, tokens, newline⟩ := flat_argument flat
  have inside : .newline ∈ argumentTokens.reverse := List.mem_reverse.mpr (newline.mpr broken)
  obtain ⟨a, b, split⟩ := List.append_of_mem inside
  rw [lists, tokens_template left middle right, split, Option.bind_some] at read
  have shape : (w :: heads).map Token.word ++ (a ++ .newline :: b ++ ts) =
      ((w :: heads).map Token.word ++ a) ++ .newline :: (b ++ ts) := by
    simp
  rw [shape] at read
  exact two_le_length (t := .word w) (List.mem_append_left _ List.mem_cons_self)
    (List.mem_append_right _ last) rfl plain read

end Templates

/-! ## Running -/

section Run

variable {σ : Type} (exec : Command → σ → σ × Nat)

/-- The commands of a list, as long as they succeed. -/
def runAnd : AndList → σ → σ × Nat
  | [], s => (s, 0)
  | c :: rest, s =>
      let done := exec c s
      if done.2 = 0 ∧ rest ≠ [] then runAnd rest done.1 else done

/-- All lists, whether they succeed or not. -/
def runProgram : List AndList → σ → σ × Nat
  | [], s => (s, 0)
  | l :: rest, s =>
      let done := runAnd exec l s
      if rest ≠ [] then runProgram rest done.1 else done

/-- The status of a program is that of its last list, whatever the others did. -/
theorem runProgram_append (front : List AndList) (last : AndList) (s : σ) :
    ∃ s', runProgram exec (front ++ [last]) s = runAnd exec last s' := by
  induction front generalizing s with
  | nil => exact ⟨s, rfl⟩
  | cons l rest ih =>
      obtain ⟨s', done⟩ := ih (runAnd exec l s).1
      exact ⟨s', (if_pos (by simp)).trans done⟩

theorem runAnd_single (c : Command) (s : σ) : runAnd exec [c] s = exec c s := by
  rw [runAnd]
  exact if_neg fun both => both.2 rfl

theorem runProgram_single (c : Command) (s : σ) : runProgram exec [[c]] s = exec c s :=
  runAnd_single exec c s

end Run

end Sentinel.Shell
