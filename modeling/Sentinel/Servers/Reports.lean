import Sentinel.Servers.Control

/-!
# What is reported of a remote command

Success travels from the command to the application through the shell, whose status is that of the
last command it runs, and through the channel, whose status counts only before the end of file. Two
of the texts end in `echo done`, which succeeds; and an address or a scenario with a line break
around it ends its command in the middle.

`Control` is one control command with its arguments. The server is any function from commands and
states to states and statuses on which `echo` succeeds. What a text does whose second line begins
with a reserved word, or with a utility that acts on the shell itself, is left open.
-/

namespace Sentinel.Servers

open Api Shell

/-- A control command. -/
inductive Control where
  | ban (ip : String) (minutes : Nat)
  | unban (ip : String)
  | promote (scenario : String)
  | demote (scenario : String)
  | allowlistSet (entries : List String)

namespace Control

/-- The text for the shell. -/
def command : Control → String
  | .ban ip minutes => banCommand ip minutes
  | .unban ip => unbanCommand ip
  | .promote scenario => simulationCommand scenario false
  | .demote scenario => simulationCommand scenario true
  | .allowlistSet entries => allowlistScript entries

/-- The tool that the text calls first. -/
def tool : Control → String
  | .allowlistSet _ => "cat"
  | _ => "cscli"

section Run

variable (ipAddr : String → Bool)

/-- The validator lets the arguments pass. -/
def accepted : Control → Bool
  | .ban ip _ => validIpOrCidr ipAddr ip
  | .unban ip => validIpOrCidr ipAddr ip
  | .promote scenario => validScenario scenario
  | .demote scenario => validScenario scenario
  | .allowlistSet entries => entries.all (validIpOrCidr ipAddr)

def run (locked : Bool) (host : String) (ssh : String → String → Except String ExecOut) :
    Control → Except String Unit
  | .ban ip minutes => crowdsecBan ipAddr locked host ssh ip minutes
  | .unban ip => crowdsecUnban ipAddr locked host ssh ip
  | .promote scenario => crowdsecPromote locked host ssh scenario
  | .demote scenario => crowdsecDemote locked host ssh scenario
  | .allowlistSet entries => crowdsecAllowlistSet ipAddr locked host ssh entries

end Run

/-- No line break stands in the argument. The entries of the allowlist are inside a
here-document. -/
def Unbroken : Control → Prop
  | .ban ip _ => '\n' ∉ ip.toList
  | .unban ip => '\n' ∉ ip.toList
  | .promote scenario => '\n' ∉ scenario.toList
  | .demote scenario => '\n' ∉ scenario.toList
  | .allowlistSet _ => True

/-- The text ends in `echo done`. -/
def Echoes : Control → Prop
  | .ban _ _ => False
  | .unban _ => False
  | _ => True

end Control

/-! ## The report -/

section Report

variable {ipAddr : String → Bool} {op : Control} {host : String}

theorem reported_eq_ok {failed : String} {out : ExecOut} :
    reported failed out = .ok () ↔ out.code = 0 := by
  unfold reported
  split
  · rename_i wrong
    refine ⟨?_, fun same => absurd same wrong⟩
    intro ok
    cases ok
  · rename_i fine
    exact ⟨fun _ => not_not.mp fine, fun _ => rfl⟩

theorem requireHost_eq (named : (trim host).isEmpty = false) :
    requireHost host = .ok (trim host) := by
  rw [requireHost, named, if_neg Bool.false_ne_true]

/-- An accepted command reports success exactly on code 0. -/
theorem run_eq_ok (accepted : op.accepted ipAddr = true) (named : (trim host).isEmpty = false)
    {ssh : String → String → Except String ExecOut} {out : ExecOut}
    (answers : ∀ text, ssh (trim host) text = .ok out) :
    op.run ipAddr false host ssh = .ok () ↔ out.code = 0 := by
  have found := requireHost_eq named
  have sent : ∀ text failed, ((Except.ok (trim host) : Except String String) >>= fun host =>
      ssh host text >>= fun out => reported failed out) = .ok () ↔ out.code = 0 := by
    intro text failed
    rw [← @reported_eq_ok failed]
    simp only [bind, Except.bind, answers]
  cases op with
  | ban ip minutes =>
      have valid : validIpOrCidr ipAddr ip = true := accepted
      rw [Control.run, crowdsecBan, if_neg Bool.false_ne_true, valid, if_neg (by decide), found]
      exact sent _ _
  | unban ip =>
      have valid : validIpOrCidr ipAddr ip = true := accepted
      rw [Control.run, crowdsecUnban, if_neg Bool.false_ne_true, valid, if_neg (by decide), found]
      exact sent _ _
  | promote scenario =>
      have valid : validScenario scenario = true := accepted
      rw [Control.run, crowdsecPromote, setSimulation, if_neg Bool.false_ne_true, valid,
        if_neg (by decide), found]
      exact sent _ _
  | demote scenario =>
      have valid : validScenario scenario = true := accepted
      rw [Control.run, crowdsecDemote, setSimulation, if_neg Bool.false_ne_true, valid,
        if_neg (by decide), found]
      exact sent _ _
  | allowlistSet entries =>
      have none : (entries.find? fun e => !validIpOrCidr ipAddr e) = none := by
        rw [List.find?_eq_none]
        intro e mem
        rw [List.all_eq_true.mp accepted e mem]
        decide
      rw [Control.run, crowdsecAllowlistSet, if_neg Bool.false_ne_true, none]
      dsimp only
      rw [found]
      exact sent _ _

theorem toInt32_eq_zero {status : UInt32} : status.toInt32 = 0 ↔ status = 0 := by
  constructor
  · intro same
    have bits : status.toInt32.toUInt32 = (0 : Int32).toUInt32 := congrArg Int32.toUInt32 same
    exact bits
  · rintro rfl
    rfl

theorem toInt32_eq_neg_one {status : UInt32} : status.toInt32 = -1 ↔ status = 0xffffffff := by
  constructor
  · intro same
    have bits : status.toInt32.toUInt32 = (-1 : Int32).toUInt32 := congrArg Int32.toUInt32 same
    exact bits
  · rintro rfl
    rfl

end Report

/-! ## The programs -/

/-- A text that takes an argument behind its first words. -/
structure Template where
  before : List Char
  heads : List (List Char)
  after : List Char
  first : Token
  ts : List Token
  /-- the first command, as far as it stands behind the argument -/
  tail : Command
  others : AndList
  rest : List AndList
  left : Shell.run init before =
    ⟨(("cscli".toList :: heads).map Token.word).reverse, .none, .between⟩
  right : tokens after = some (first :: ts)
  plain : isSeparator first = false
  read : parse (first :: ts) = some ((tail :: others) :: rest)

namespace Template

variable (T : Template) {argument : List Char}

def text (argument : List Char) : List Char := T.before ++ (argument ++ ' ' :: T.after)

/-- The first command, with these words for the argument. -/
def issued (ws : List (List Char)) : Command :=
  { T.tail with words := "cscli".toList :: T.heads ++ (ws ++ T.tail.words) }

theorem issued_calls (ws : List (List Char)) :
    (T.issued ws).words.head? = some "cscli".toList := rfl

theorem program_text (flat : ∀ c ∈ argument, IsFlat c) (one : '\n' ∉ argument)
    (simple : ∀ l ∈ T.others :: T.rest, ∀ c ∈ l, c.isSimple = true) :
    ∃ ws, program (T.text argument) = some ((T.issued ws :: T.others) :: T.rest) := by
  obtain ⟨ws, read⟩ := lists_line T.left flat one T.right T.plain T.read
  obtain ⟨others, rest⟩ := List.forall_mem_cons.mp simple
  refine ⟨ws, program_eq_some_iff.mpr ⟨read, List.forall_mem_cons.mpr ⟨?_, rest⟩⟩⟩
  exact List.forall_mem_cons.mpr ⟨isSimple_cscli (T.issued_calls ws), others⟩

/-- A line break in the argument ends the first command early. -/
theorem exists_of_broken (flat : ∀ c ∈ argument, IsFlat c) (broken : '\n' ∈ argument)
    {p : List AndList} (read : program (T.text argument) = some p) :
    ∃ issued others l ls, p = (issued :: others) :: l :: ls ∧
      issued.words.head? = some "cscli".toList := by
  have whole : lists (T.text argument) = some p := (program_eq_some_iff.mp read).1
  obtain ⟨c, cs, rest, calls, done⟩ := lists_flat T.left flat T.right T.read
  have two := lists_broken T.left flat broken T.right List.mem_cons_self T.plain whole
  obtain rfl := Option.some.inj (done.symm.trans whole)
  cases rest with
  | nil => simp at two
  | cons l ls => exact ⟨c, cs, l, ls, rfl, calls⟩

end Template

/-! The four of them. -/

theorem parse_banTokens (minutes : Nat) : parse (banTokens minutes) = some [[banTail minutes]] := rfl

def banTemplate (minutes : Nat) : Template where
  before := "cscli decisions add --ip ".toList
  heads := ["decisions".toList, "add".toList, "--ip".toList]
  after := "--duration ".toList ++ ((banDuration minutes).toList ++ ' ' ::
    "--reason 'NorthKey manual' 2>&1".toList)
  first := .word "--duration".toList
  ts := (banTokens minutes).tail
  tail := banTail minutes
  others := []
  rest := []
  left := run_addHead
  right := tokens_ban minutes
  plain := rfl
  read := parse_banTokens minutes

theorem parse_errorsTokens :
    parse errorsTokens = some [[⟨[], [errorsToOutput], none⟩]] := rfl

def unbanTemplate : Template where
  before := "cscli decisions delete --ip ".toList
  heads := ["decisions".toList, "delete".toList, "--ip".toList]
  after := "2>&1".toList
  first := .redirect ['2'] ['>', '&']
  ts := errorsTokens.tail
  tail := ⟨[], [errorsToOutput], none⟩
  others := []
  rest := []
  left := run_deleteHead
  right := tokens_errors
  plain := rfl
  read := parse_errorsTokens

theorem parse_simulationTokens : parse simulationTokens =
    some [[⟨[], [errorsToOutput], none⟩, reload], [echoDone]] := rfl

def simulationTemplate (training : Bool) : Template where
  before := "cscli simulation ".toList ++ ((simulationVerb training).toList ++ " ".toList)
  heads := ["simulation".toList, (simulationVerb training).toList]
  after := "2>&1 && systemctl reload crowdsec 2>/dev/null; echo done".toList
  first := .redirect ['2'] ['>', '&']
  ts := simulationTokens.tail
  tail := ⟨[], [errorsToOutput], none⟩
  others := [reload]
  rest := [[echoDone]]
  left := run_simulationHead training
  right := tokens_simulation
  plain := rfl
  read := parse_simulationTokens

/-- The program of a text: what it calls first; and, if no line break parts it, that it is one
command, or what it ends in. -/
structure Control.Program (op : Control) (p : List AndList) (issued : Command) : Prop where
  calls : issued.words.head? = some op.tool.toList
  first : ∃ others lists, p = (issued :: others) :: lists
  line : op.Unbroken → ¬op.Echoes → p = [[issued]]
  echoes : op.Unbroken → op.Echoes → ∃ front, p = front ++ [[echoDone]]

section Programs

variable {ipAddr : String → Bool}

/-- The text of a control command is that of a template around an argument. -/
structure Control.Fits (op : Control) (T : Template) (argument : String) : Prop where
  text : op.command.toList = T.text argument.toList
  tool : op.tool = "cscli"
  flat : ∀ c ∈ argument.toList, IsFlat c
  unbroken : op.Unbroken ↔ '\n' ∉ argument.toList
  alone : ¬op.Echoes → T.others = [] ∧ T.rest = []
  echoes : op.Echoes → T.others = [reload] ∧ T.rest = [[echoDone]]

/-- Each of them does but the allowlist. -/
theorem exists_fits (op : Control) (accepted : op.accepted ipAddr = true) :
    (∃ entries, op = .allowlistSet entries) ∨ ∃ T argument, op.Fits T argument := by
  cases op with
  | ban ip minutes =>
      have valid : validIpOrCidr ipAddr ip = true := accepted
      exact .inr ⟨banTemplate minutes, ip, toList_banCommand ip minutes, rfl,
        (isArgument_of_validIpOrCidr valid).flat, Iff.rfl, fun _ => ⟨rfl, rfl⟩,
        fun ends => ends.elim⟩
  | unban ip =>
      have valid : validIpOrCidr ipAddr ip = true := accepted
      exact .inr ⟨unbanTemplate, ip, toList_unbanCommand ip, rfl,
        (isArgument_of_validIpOrCidr valid).flat, Iff.rfl, fun _ => ⟨rfl, rfl⟩,
        fun ends => ends.elim⟩
  | promote scenario =>
      have valid : validScenario scenario = true := accepted
      exact .inr ⟨simulationTemplate false, scenario, toList_simulationCommand scenario false, rfl,
        (isArgument_of_validScenario valid).flat, Iff.rfl, fun silent => absurd trivial silent,
        fun _ => ⟨rfl, rfl⟩⟩
  | demote scenario =>
      have valid : validScenario scenario = true := accepted
      exact .inr ⟨simulationTemplate true, scenario, toList_simulationCommand scenario true, rfl,
        (isArgument_of_validScenario valid).flat, Iff.rfl, fun silent => absurd trivial silent,
        fun _ => ⟨rfl, rfl⟩⟩
  | allowlistSet entries => exact .inl ⟨entries, rfl⟩

/-- Every accepted command without a line break is a program with these properties. -/
theorem exists_program (op : Control) (accepted : op.accepted ipAddr = true)
    (unbroken : op.Unbroken) :
    ∃ p issued, program op.command.toList = some p ∧ op.Program p issued := by
  obtain ⟨entries, rfl⟩ | ⟨T, argument, fits⟩ := exists_fits op accepted
  · have clean : ∀ e ∈ entries, 'Y' ∉ e.toList := fun e mem =>
      notMem_of_validIpOrCidr (List.all_eq_true.mp accepted e mem) (by decide) (by decide)
    exact ⟨_, writeAllowlist entries, program_allowlistScript clean, rfl,
      ⟨[], [[reload], [echoDone]], rfl⟩, fun _ silent => absurd trivial silent,
      fun _ _ => ⟨[[writeAllowlist entries], [reload]], rfl⟩⟩
  · have simple : ∀ l ∈ T.others :: T.rest, ∀ c ∈ l, c.isSimple = true := by
      by_cases ends : op.Echoes
      · rw [(fits.echoes ends).1, (fits.echoes ends).2, List.forall_mem_cons,
          List.forall_mem_singleton, List.forall_mem_singleton, List.forall_mem_singleton]
        exact ⟨isSimple_reload, isSimple_echoDone⟩
      · rw [(fits.alone ends).1, (fits.alone ends).2, List.forall_mem_singleton]
        exact List.forall_mem_nil _
    obtain ⟨ws, read⟩ := T.program_text fits.flat (fits.unbroken.mp unbroken) simple
    rw [← fits.text] at read
    refine ⟨_, T.issued ws, read, ?_, ⟨T.others, T.rest, rfl⟩, fun _ silent => ?_, fun _ ends => ?_⟩
    · rw [fits.tool, T.issued_calls]
    · rw [(fits.alone silent).1, (fits.alone silent).2]
    · exact ⟨[T.issued ws :: T.others], by rw [(fits.echoes ends).2]; rfl⟩

/-- One with a line break has more to run behind its first command, if it is read. -/
theorem exists_of_broken (op : Control) (accepted : op.accepted ipAddr = true)
    (broken : ¬op.Unbroken) {p : List AndList} (read : program op.command.toList = some p) :
    ∃ issued others l ls, p = (issued :: others) :: l :: ls ∧
      issued.words.head? = some "cscli".toList ∧ op.Program p issued := by
  obtain ⟨entries, rfl⟩ | ⟨T, argument, fits⟩ := exists_fits op accepted
  · exact absurd trivial broken
  · rw [fits.text] at read
    obtain ⟨issued, others, l, ls, rfl, calls⟩ :=
      T.exists_of_broken fits.flat (not_not.mp (mt fits.unbroken.mpr broken)) read
    exact ⟨issued, others, l, ls, rfl, calls, by rw [fits.tool, calls], ⟨others, l :: ls, rfl⟩,
      fun whole => absurd whole broken, fun whole => absurd whole broken⟩

end Programs

/-! ## Faithful reports -/

/-- The status that a shell ends with on a command without a line break, where `echo` succeeds. -/
theorem status_eq_zero_iff {σ : Type} {sh : Command → σ → σ × Nat}
    (echo : ∀ c s, c.words.head? = some "echo".toList → (sh c s).2 = 0) {op : Control}
    (unbroken : op.Unbroken) {p : List AndList} {issued : Command} (shape : op.Program p issued)
    (s : σ) :
    ((runProgram sh p s).2 = 0 ↔ (sh issued s).2 = 0) ↔ (op.Echoes → (sh issued s).2 = 0) := by
  by_cases ends : op.Echoes
  · obtain ⟨front, rfl⟩ := shape.echoes unbroken ends
    obtain ⟨s', done⟩ := runProgram_append sh front [echoDone] s
    have zero : (runProgram sh (front ++ [[echoDone]]) s).2 = 0 := by
      rw [done, runAnd_single]
      exact echo echoDone s' rfl
    rw [iff_true_left zero]
    exact ⟨fun fine _ => fine, fun fine => fine ends⟩
  · rw [shape.line unbroken ends, runProgram_single]
    exact iff_of_true Iff.rfl fun ends' => absurd ends' ends

namespace FirstFails

/-- A server on which the first command fails and every other one succeeds; the state counts. -/
def sh (c : Command) (ran : Nat) : Nat × Nat :=
  (ran + 1, if ran = 0 ∧ c.words.head? ≠ some "echo".toList then 1 else 0)

theorem sh_echo (c : Command) (ran : Nat) (echo : c.words.head? = some "echo".toList) :
    (sh c ran).2 = 0 :=
  if_neg fun both => both.2 echo

theorem sh_later {ran : Nat} (later : 0 < ran) (c : Command) : (sh c ran).2 = 0 :=
  if_neg fun both => later.ne' both.1

theorem runAnd_later (l : AndList) {ran : Nat} (later : 0 < ran) :
    0 < (runAnd sh l ran).1 ∧ (runAnd sh l ran).2 = 0 := by
  induction l generalizing ran with
  | nil => exact ⟨later, rfl⟩
  | cons c rest ih =>
      rw [runAnd]
      split
      · exact ih (Nat.succ_pos ran)
      · exact ⟨Nat.succ_pos ran, sh_later later c⟩

theorem runProgram_later (p : List AndList) {ran : Nat} (later : 0 < ran) :
    (runProgram sh p ran).2 = 0 := by
  induction p generalizing ran with
  | nil => rfl
  | cons l rest ih =>
      rw [runProgram]
      split
      · exact ih (runAnd_later l later).1
      · exact (runAnd_later l later).2

/-- The status of the first command is lost when a list comes behind its own. -/
theorem runProgram_lost {c : Command} (other : c.words.head? ≠ some "echo".toList) (cs : AndList)
    (l : AndList) (ls : List AndList) :
    (sh c 0).2 = 1 ∧ (runProgram sh ((c :: cs) :: l :: ls) 0).2 = 0 := by
  have fails : (sh c 0).2 = 1 := if_pos ⟨rfl, other⟩
  have first : runAnd sh (c :: cs) 0 = sh c 0 := by
    rw [runAnd]
    exact if_neg fun both => absurd (fails.symm.trans both.1) Nat.one_ne_zero
  refine ⟨fails, ?_⟩
  rw [runProgram, first]
  exact (congrArg Prod.snd (if_pos (List.cons_ne_nil l ls))).trans
    (runProgram_later (l :: ls) Nat.zero_lt_one)

end FirstFails

section Faithful

variable (ipAddr : String → Bool) (fromUtf8Lossy : Bytes → String)

/-- A run of a control command is reported as the status says, if that comes first. -/
theorem run_eq_ok_iff {op : Control} {host : String} {msgs : List ChannelMsg} {status : UInt32}
    (accepted : op.accepted ipAddr = true) (named : (trim host).isEmpty = false)
    (conforming : Conforming msgs status) :
    op.run ipAddr false host (fun host _ => exec fromUtf8Lossy host msgs) = .ok () ↔
      StatusFirst msgs ∧ status = 0 := by
  have inner : (trim (trim host)).isEmpty = false := by rw [trim_trim, named]
  have answers : exec fromUtf8Lossy (trim host) msgs = .ok (execOut fromUtf8Lossy msgs) := by
    rw [exec, inner, if_neg Bool.false_ne_true]
  have ran : op.run ipAddr false host (fun host _ => exec fromUtf8Lossy host msgs) = .ok () ↔
      (execOut fromUtf8Lossy msgs).code = 0 := run_eq_ok accepted named fun _ => answers
  rw [ran, execOut]
  by_cases first : StatusFirst msgs
  · rw [gatherLoop_statusFirst conforming first, toInt32_eq_zero, and_iff_right first]
  · rw [gatherLoop_eofFirst conforming first]
    have other : ¬(-1 : Int32) = 0 := by decide
    exact iff_of_false other fun both => first both.1

/-- `exec` returns all data and the status exactly when the status comes before the end of file, or
is the one that reads as the default. A control command without a line break in its argument reports
what became of the command it was issued for exactly when the status comes first and, if the text
ends in `echo`, the command succeeded, or when the status comes late and the command failed. One with
a line break may report a success where its command failed. -/
theorem reports_iff :
    (∀ msgs status host, (trim host).isEmpty = false → Conforming msgs status →
      (exec fromUtf8Lossy host msgs = .ok ⟨fromUtf8Lossy (dataOf msgs),
          fromUtf8Lossy (extendedOf msgs), status.toInt32⟩ ↔
        StatusFirst msgs ∨ status = 0xffffffff)) ∧
    (∀ op : Control, op.accepted ipAddr = true → op.Unbroken → ∃ p issued,
      program op.command.toList = some p ∧ op.Program p issued ∧
      ∀ (σ : Type) (sh : Command → σ → σ × Nat) (s : σ) (host : String) (msgs : List ChannelMsg)
        (status : UInt32),
        (∀ c s, c.words.head? = some "echo".toList → (sh c s).2 = 0) →
        (trim host).isEmpty = false → status.toNat = (runProgram sh p s).2 →
        Conforming msgs status →
        ((op.run ipAddr false host (fun host _ => exec fromUtf8Lossy host msgs) = .ok () ↔
            (sh issued s).2 = 0) ↔
          StatusFirst msgs ∧ (op.Echoes → (sh issued s).2 = 0) ∨
            ¬StatusFirst msgs ∧ (sh issued s).2 ≠ 0)) ∧
    ∀ op : Control, op.accepted ipAddr = true → ¬op.Unbroken →
      ∀ p, program op.command.toList = some p → ∃ issued, op.Program p issued ∧
        ∃ sh : Command → Nat → Nat × Nat,
          (∀ c s, c.words.head? = some "echo".toList → (sh c s).2 = 0) ∧
          (sh issued 0).2 ≠ 0 ∧ (runProgram sh p 0).2 = 0 ∧
          ∀ host msgs, (trim host).isEmpty = false → Conforming msgs 0 → StatusFirst msgs →
            op.run ipAddr false host (fun host _ => exec fromUtf8Lossy host msgs) = .ok () := by
  refine ⟨?_, ?_, ?_⟩
  · intro msgs status host named conforming
    rw [exec, named, if_neg Bool.false_ne_true, execOut]
    by_cases first : StatusFirst msgs
    · rw [gatherLoop_statusFirst conforming first]
      exact iff_of_true rfl (.inl first)
    · rw [gatherLoop_eofFirst conforming first]
      constructor
      · intro same
        injection same with same
        injection same with _ _ code
        exact .inr (toInt32_eq_neg_one.mp code.symm)
      · rintro (early | full)
        · exact absurd early first
        · rw [toInt32_eq_neg_one.mpr full]
  · intro op accepted unbroken
    obtain ⟨p, issued, read, shape⟩ := exists_program op accepted unbroken
    refine ⟨p, issued, read, shape, ?_⟩
    intro σ sh s host msgs status echo named sent conforming
    have tells := status_eq_zero_iff echo unbroken shape s
    have zero : status = 0 ↔ (runProgram sh p s).2 = 0 := by
      rw [← sent]
      exact UInt32.toNat_inj.symm
    rw [run_eq_ok_iff ipAddr fromUtf8Lossy accepted named conforming, zero]
    by_cases first : StatusFirst msgs
    · simp only [first, true_and, not_true_eq_false, false_and, or_false]
      exact tells
    · simp only [first, false_and, not_false_eq_true, true_and, false_or, false_iff]
  · intro op accepted broken p read
    obtain ⟨issued, others, l, ls, rfl, calls, shape⟩ := exists_of_broken op accepted broken read
    have other : issued.words.head? ≠ some "echo".toList := by
      rw [calls]
      decide
    obtain ⟨fails, lost⟩ := FirstFails.runProgram_lost other others l ls
    refine ⟨issued, shape, FirstFails.sh, FirstFails.sh_echo, ?_, lost, ?_⟩
    · rw [fails]
      exact Nat.one_ne_zero
    · intro host msgs named conforming first
      exact (run_eq_ok_iff ipAddr fromUtf8Lossy accepted named conforming).mpr ⟨first, rfl⟩

end Faithful

/-! A server on which everything fails but `echo`, and the two orders of the last messages. -/

namespace Unwell

def sh (c : Command) (_ : Unit) : Unit × Nat :=
  ((), if c.words.head? = some "echo".toList then 0 else 1)

theorem sh_status (c : Command) (s : Unit) :
    (sh c s).2 = if c.words.head? = some "echo".toList then 0 else 1 := rfl

def statusFirst : List ChannelMsg := [.exitStatus 0, .eof, .close]

def eofFirst : List ChannelMsg := [.eof, .exitStatus 0, .close]

/-- `String::from_utf8_lossy`, on a command without output. -/
def noOutput (_ : Bytes) : String := ""

theorem conforming_statusFirst : Conforming statusFirst 0 where
  shape := by
    refine ⟨[], [.eof], rfl, ?_, by decide⟩
    intro m mem
    rw [List.nil_append, List.mem_singleton] at mem
    subst mem
    exact ⟨by decide, fun status => by simp⟩
  ended := by
    intro before after shape m mem
    cases before with
    | nil => cases shape
    | cons a before =>
        obtain ⟨-, shape⟩ := List.cons.inj shape
        cases before with
        | nil =>
            obtain ⟨-, rfl⟩ := List.cons.inj shape
            rw [List.mem_singleton] at mem
            subst mem
            exact ⟨fun b => by simp, fun b ext => by simp⟩
        | cons a before =>
            obtain ⟨-, shape⟩ := List.cons.inj shape
            have none : ChannelMsg.eof ∈ [ChannelMsg.close] := by
              rw [shape]
              exact List.mem_append_right _ List.mem_cons_self
            exact absurd none (by decide)

theorem conforming_eofFirst : Conforming eofFirst 0 where
  shape := by
    refine ⟨[.eof], [], rfl, ?_, by decide⟩
    intro m mem
    rw [List.append_nil, List.mem_singleton] at mem
    subst mem
    exact ⟨by decide, fun status => by simp⟩
  ended := by
    intro before after shape m mem
    have inside : m ∈ [ChannelMsg.exitStatus 0, .close] := by
      cases before with
      | nil =>
          obtain ⟨-, rfl⟩ := List.cons.inj shape
          exact mem
      | cons a before =>
          obtain ⟨-, shape⟩ := List.cons.inj shape
          rw [shape]
          exact List.mem_append_right _ (List.mem_cons_of_mem _ mem)
    simp only [List.mem_cons, List.not_mem_nil, or_false] at inside
    obtain rfl | rfl := inside
    · exact ⟨fun b => by simp, fun b ext => by simp⟩
    · exact ⟨fun b => by simp, fun b ext => by simp⟩

end Unwell

/-- The server sends status 0 and `exec` returns -1; and a scenario is reported as changed although
`cscli` failed. -/
theorem report_false :
    (Conforming Unwell.eofFirst 0 ∧ exec Unwell.noOutput "203.0.113.7" Unwell.eofFirst =
      .ok ⟨"", "", -1⟩) ∧
    ∃ p issued, program (Control.demote "crowdsecurity/ssh-bf").command.toList = some p ∧
      (Control.demote "crowdsecurity/ssh-bf").Program p issued ∧
      (Unwell.sh issued ()).2 = 1 ∧ (runProgram Unwell.sh p ()).2 = 0 ∧
      Conforming Unwell.statusFirst 0 ∧
      crowdsecDemote false "203.0.113.7"
        (fun host _ => exec Unwell.noOutput host Unwell.statusFirst) "crowdsecurity/ssh-bf" =
          .ok () := by
  refine ⟨⟨Unwell.conforming_eofFirst, rfl⟩, ?_⟩
  have accepted : (Control.demote "crowdsecurity/ssh-bf").accepted (fun _ => false) = true := by
    decide +kernel
  have unbroken : (Control.demote "crowdsecurity/ssh-bf").Unbroken := by
    have plain : '\n' ∉ "crowdsecurity/ssh-bf".toList := by
      rw [String.toList_ofList]
      decide
    exact plain
  obtain ⟨p, issued, read, shape⟩ := exists_program _ accepted unbroken
  refine ⟨p, issued, read, shape, ?_, ?_, Unwell.conforming_statusFirst, ?_⟩
  · have other : "cscli".toList ≠ "echo".toList := by decide
    have tool : issued.words.head? = some "cscli".toList := shape.calls
    rw [Unwell.sh_status, tool, if_neg fun same => other (Option.some.inj same)]
  · obtain ⟨front, rfl⟩ := shape.echoes unbroken trivial
    obtain ⟨s, done⟩ := runProgram_append Unwell.sh front [echoDone] ()
    have echoes : echoDone.words.head? = some "echo".toList := rfl
    rw [done, runAnd_single, Unwell.sh_status, if_pos echoes]
  · decide +kernel

/-- On a server where all is well, a command whose status comes first is reported as it went. -/
theorem reports_iff_well :
    exec Unwell.noOutput "203.0.113.7" Unwell.statusFirst = .ok ⟨"", "", 0⟩ ∧
    ∃ p issued, program (unbanCommand "203.0.113.9").toList = some p ∧
      (Control.unban "203.0.113.9").Program p issued ∧
      (crowdsecUnban (fun _ => true) false "203.0.113.7"
        (fun host _ => exec Unwell.noOutput host Unwell.statusFirst) "203.0.113.9" = .ok () ↔
        ((fun _ _ => ((), 0)) issued () : Unit × Nat).2 = 0) := by
  obtain ⟨channel, commands, -⟩ := reports_iff (fun _ => true) Unwell.noOutput
  have first : StatusFirst Unwell.statusFirst := ⟨0, by decide⟩
  refine ⟨(channel _ _ "203.0.113.7" (by decide +kernel) Unwell.conforming_statusFirst).mpr
    (.inl first), ?_⟩
  have one : (Control.unban "203.0.113.9").Unbroken := by
    have plain : '\n' ∉ "203.0.113.9".toList := by
      rw [String.toList_ofList]
      decide
    exact plain
  obtain ⟨p, issued, read, shape, report⟩ :=
    commands (.unban "203.0.113.9") (by decide +kernel) one
  have sent : (0 : UInt32).toNat = (runProgram (fun _ _ => ((), 0)) p ()).2 := by
    rw [shape.line one not_false, runProgram_single]
    rfl
  exact ⟨p, issued, read, shape, (report Unit (fun _ _ => ((), 0)) () "203.0.113.7" _ 0
    (fun _ _ _ => rfl) (by decide +kernel) sent Unwell.conforming_statusFirst).mpr
      (.inl ⟨first, fun ends => ends.elim⟩)⟩

end Sentinel.Servers
