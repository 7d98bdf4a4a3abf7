import Sentinel.Servers.Remote

/-!
# Control of CrowdSec

The control commands of `crowdsec.rs`: ban and unban, promote and demote, and the allowlist. Each
validates its arguments, builds one text for a root shell and reports what `exec` returns. `ssh` is
`exec` on the server: the text goes in, the outcome comes out.

The validators trim, the texts take the arguments as they came. A text is a list of words and lines
for the shell whatever white space stands around its argument (`flat_of_accepted`); only blanks and
tabs leave the command as it is meant.
-/

namespace Sentinel.Servers

open Api Shell

/-! ## The commands -/

/-- `PERM_DURATION`. -/
def permDuration : String := "876000h"

/-- `minutes == 0` means permanent. -/
def banDuration (minutes : Nat) : String :=
  if minutes = 0 then permDuration else toString minutes ++ "m"

def banCommand (ip : String) (minutes : Nat) : String :=
  "cscli decisions add --ip " ++ ip ++ " --duration " ++ banDuration minutes ++
    " --reason 'NorthKey manual' 2>&1"

def unbanCommand (ip : String) : String := "cscli decisions delete --ip " ++ ip ++ " 2>&1"

def simulationCommand (scenario : String) (training : Bool) : String :=
  "cscli simulation " ++ (if training then "enable" else "disable") ++ " " ++ scenario ++
    " 2>&1 && systemctl reload crowdsec 2>/dev/null; echo done"

/-- `ip_lines`. -/
def ipLines (entries : List String) : String :=
  String.join (entries.map fun e => "    - \"" ++ e ++ "\"\n")

/-- What stands before the entries in the file, and behind them. -/
def yamlHead : String :=
  "name: northkey/whitelist\ndescription: \"NorthKey never-ban allowlist\"\nwhitelist:\n" ++
    "  reason: \"NorthKey allowlist\"\n  ip:\n"

def yamlTail : String :=
  "  cidr:\n    - \"127.0.0.0/8\"\n    - \"10.0.0.0/8\"\n    - \"172.16.0.0/12\"\n" ++
    "    - \"192.168.0.0/16\"\n"

/-- The file that the script of `crowdsec_allowlist_set` writes. -/
def allowlistYaml (entries : List String) : String := yamlHead ++ ipLines entries ++ yamlTail

def allowlistScript (entries : List String) : String :=
  "cat > /etc/crowdsec/parsers/s02-enrich/northkey-whitelist.yaml <<'YAML'\n" ++
    allowlistYaml entries ++ "YAML\nsystemctl reload crowdsec 2>/dev/null; echo done"

/-- `valid_scenario`. -/
def validScenario (s : String) : Bool :=
  let s := trim s
  !s.isEmpty && decide ((utf8 s).length ≤ 128) &&
    s.toList.all fun c => c.isAlphanum || c == '/' || c == '-' || c == '_' || c == '.'

def requireHost (host : String) : Except String String :=
  if (trim host).isEmpty then .error "This server has no public IP address." else .ok (trim host)

/-- What every control command does with the outcome. -/
def reported (failed : String) (out : ExecOut) : Except String Unit :=
  if out.code ≠ 0 then .error (failed ++ trim out.stdout) else .ok ()

section Commands

variable (ipAddr : String → Bool) (locked : Bool) (host : String)
variable (ssh : String → String → Except String ExecOut)

def crowdsecBan (ip : String) (minutes : Nat) : Except String Unit :=
  if locked then .error "Unlock your vault first."
  else if !validIpOrCidr ipAddr ip then .error ("“" ++ ip ++ "” is not a valid IP address.")
  else do
    let host ← requireHost host
    let out ← ssh host (banCommand ip minutes)
    reported "Ban failed: " out

def crowdsecUnban (ip : String) : Except String Unit :=
  if locked then .error "Unlock your vault first."
  else if !validIpOrCidr ipAddr ip then .error ("“" ++ ip ++ "” is not a valid IP address.")
  else do
    let host ← requireHost host
    let out ← ssh host (unbanCommand ip)
    reported "Unban failed: " out

def setSimulation (scenario : String) (training : Bool) : Except String Unit :=
  if locked then .error "Unlock your vault first."
  else if !validScenario scenario then .error "Invalid scenario name."
  else do
    let host ← requireHost host
    let out ← ssh host (simulationCommand scenario training)
    reported "Could not change scenario mode: " out

def crowdsecPromote (scenario : String) : Except String Unit :=
  setSimulation locked host ssh scenario false

def crowdsecDemote (scenario : String) : Except String Unit :=
  setSimulation locked host ssh scenario true

def crowdsecAllowlistSet (entries : List String) : Except String Unit :=
  if locked then .error "Unlock your vault first."
  else
    match entries.find? fun e => !validIpOrCidr ipAddr e with
    | some e => .error ("“" ++ e ++ "” is not a valid IP or CIDR.")
    | none => do
        let host ← requireHost host
        let out ← ssh host (allowlistScript entries)
        reported "Could not update the allowlist: " out

end Commands

/-! ## Arguments -/

/-- The characters of an address or a scenario, trimmed. -/
def isArgumentChar (c : Char) : Bool :=
  c.isAlphanum || c == '.' || c == ':' || c == '/' || c == '-' || c == '_'

theorem notMem_specials {p : Char → Bool} (none : specials.all (fun c => !p c) = true) {c : Char}
    (holds : p c = true) : c ∉ specials := by
  intro mem
  have fails := List.all_eq_true.mp none c mem
  rw [holds] at fails
  cases fails

theorem classify_argumentChar {c : Char} (argument : isArgumentChar c = true) :
    classify c = .ordinary := by
  have other : ∀ d : Char, isArgumentChar d = false → c ≠ d := by
    rintro d no rfl
    rw [argument] at no
    cases no
  rw [classify_of_notMem (notMem_specials (p := isArgumentChar) (by decide) argument),
    if_neg (not_or.mpr ⟨other ' ' (by decide), other '\t' (by decide)⟩),
    if_neg (other '\n' (by decide))]

theorem isFlat_whitespace {c : Char} (blank : isWhitespace c = true) : IsFlat c :=
  isFlat_of_notMem (notMem_specials (p := isWhitespace) (by decide) blank)

/-- What the validators leave: once trimmed, a text of the characters of an address or a name. -/
structure IsArgument (s : String) : Prop where
  nonempty : (trim s).toList ≠ []
  chars : ∀ c ∈ (trim s).toList, isArgumentChar c = true

theorem isAlphanum_of_hex {c : Char}
    (hex : (c.isDigit = true ∨ ('a' ≤ c && decide (c ≤ 'f')) = true) ∨
      ('A' ≤ c && decide (c ≤ 'F')) = true) : c.isAlphanum = true := by
  have digits : c.isDigit = true → c.isAlphanum = true := by
    intro digit
    rw [Char.isAlphanum, digit, Bool.or_true]
  obtain (digit | lower) | upper := hex
  · exact digits digit
  · rw [Bool.and_eq_true, decide_eq_true_eq, decide_eq_true_eq] at lower
    have last : c ≤ 'z' := le_trans lower.2 (by decide)
    have letter : c.isLower = true := by
      rw [Char.isLower, Bool.and_eq_true]
      exact ⟨decide_eq_true lower.1, decide_eq_true last⟩
    rw [Char.isAlphanum, Char.isAlpha, letter, Bool.or_true, Bool.true_or]
  · rw [Bool.and_eq_true, decide_eq_true_eq, decide_eq_true_eq] at upper
    have last : c ≤ 'Z' := le_trans upper.2 (by decide)
    have letter : c.isUpper = true := by
      rw [Char.isUpper]
      exact decide_eq_true ⟨upper.1, last⟩
    rw [Char.isAlphanum, Char.isAlpha, letter, Bool.true_or, Bool.true_or]

/-- The characters of an address. -/
def isAddressChar (c : Char) : Bool :=
  c.isDigit || 'a' ≤ c && c ≤ 'f' || 'A' ≤ c && c ≤ 'F' || c == '.' || c == ':' || c == '/'

theorem isArgumentChar_of_address {c : Char} (address : isAddressChar c = true) :
    isArgumentChar c = true := by
  simp only [isAddressChar, Bool.or_eq_true, beq_iff_eq] at address
  simp only [isArgumentChar, Bool.or_eq_true, beq_iff_eq]
  obtain ((hex | dot) | colon) | slash := address
  · exact .inl (.inl (.inl (.inl (.inl (isAlphanum_of_hex hex)))))
  · exact .inl (.inl (.inl (.inl (.inr dot))))
  · exact .inl (.inl (.inl (.inr colon)))
  · exact .inl (.inl (.inr slash))

theorem address_of_validIpOrCidr {ipAddr : String → Bool} {s : String}
    (valid : validIpOrCidr ipAddr s = true) :
    (trim s).toList ≠ [] ∧ ∀ c ∈ (trim s).toList, isAddressChar c = true := by
  unfold validIpOrCidr at valid
  dsimp only at valid
  split at valid
  · cases valid
  · rename_i long
    split at valid
    · cases valid
    · rename_i chars
      rw [Bool.or_eq_true, not_or] at long
      rw [Bool.not_eq_true', Bool.not_eq_false, List.all_eq_true] at chars
      exact ⟨fun empty => long.1 (by rw [empty]; rfl), chars⟩

theorem isArgument_of_validIpOrCidr {ipAddr : String → Bool} {s : String}
    (valid : validIpOrCidr ipAddr s = true) : IsArgument s where
  nonempty := (address_of_validIpOrCidr valid).1
  chars := fun c mem => isArgumentChar_of_address ((address_of_validIpOrCidr valid).2 c mem)

theorem isArgument_of_validScenario {s : String} (valid : validScenario s = true) :
    IsArgument s := by
  unfold validScenario at valid
  dsimp only at valid
  rw [Bool.and_eq_true, Bool.and_eq_true, Bool.not_eq_true'] at valid
  obtain ⟨⟨some, -⟩, chars⟩ := valid
  refine ⟨?_, ?_⟩
  · intro empty
    have none : trim s = "" := String.toList_inj.mp empty
    rw [none] at some
    cases some
  · intro c mem
    have plain := List.all_eq_true.mp chars c mem
    simp only [Bool.or_eq_true, beq_iff_eq] at plain
    simp only [isArgumentChar, Bool.or_eq_true, beq_iff_eq]
    obtain (((letter | slash) | dash) | low) | dot := plain
    · exact .inl (.inl (.inl (.inl (.inl letter))))
    · exact .inl (.inl (.inr slash))
    · exact .inl (.inr dash)
    · exact .inr low
    · exact .inl (.inl (.inl (.inl (.inr dot))))

variable {s : String}

/-- An argument makes words and lines. -/
theorem IsArgument.flat (argument : IsArgument s) : ∀ c ∈ s.toList, IsFlat c := by
  obtain ⟨before, after, whole, left, right⟩ := trim_split s
  intro c mem
  rw [whole, List.mem_append, List.mem_append] at mem
  obtain (mem | mem) | mem := mem
  · exact isFlat_whitespace (left c mem)
  · exact .inl (classify_argumentChar (argument.chars c mem))
  · exact isFlat_whitespace (right c mem)

/-! ## The programs of the texts -/

/-- `2>&1`. -/
def errorsToOutput : Redirect := ⟨['2'], ['>', '&'], ['1']⟩

theorem run_addHead : run init "cscli decisions add --ip ".toList =
    ⟨(["cscli".toList, "decisions".toList, "add".toList, "--ip".toList].map Token.word).reverse,
      .none, .between⟩ := by
  repeat rw [String.toList_ofList]
  rfl

theorem run_deleteHead : run init "cscli decisions delete --ip ".toList =
    ⟨(["cscli".toList, "decisions".toList, "delete".toList, "--ip".toList].map
      Token.word).reverse, .none, .between⟩ := by
  repeat rw [String.toList_ofList]
  rfl

/-- What `set_simulation` does to the scenario. -/
def simulationVerb (training : Bool) : String := if training then "enable" else "disable"

theorem run_simulationHead (training : Bool) :
    run init ("cscli simulation ".toList ++ ((simulationVerb training).toList ++ " ".toList)) =
      ⟨(["cscli".toList, "simulation".toList, (simulationVerb training).toList].map
        Token.word).reverse, .none, .between⟩ := by
  cases training with
  | true =>
      have verb : (simulationVerb true).toList = "enable".toList := rfl
      rw [verb]
      repeat rw [String.toList_ofList]
      rfl
  | false =>
      have verb : (simulationVerb false).toList = "disable".toList := rfl
      rw [verb]
      repeat rw [String.toList_ofList]
      rfl

theorem run_durationHead : run init "--duration ".toList =
    ⟨(["--duration".toList].map Token.word).reverse, .none, .between⟩ := by
  repeat rw [String.toList_ofList]
  rfl

/-- A duration is one word. -/
theorem run_duration (minutes : Nat) :
    run init ((banDuration minutes).toList ++ [' ']) =
      ⟨[.word (banDuration minutes).toList], .none, .between⟩ := by
  have ordinary : ∀ c ∈ (banDuration minutes).toList, classify c = .ordinary := by
    unfold banDuration
    split
    · have all : ("876000h".toList.all fun c => classify c = .ordinary) = true := by
        rw [String.toList_ofList]
        rfl
      exact fun c mem => of_decide_eq_true (List.all_eq_true.mp all c mem)
    · intro c mem
      rw [String.toList_append, List.mem_append] at mem
      obtain digit | unit := mem
      · have digits : (toString minutes).toList = Nat.toDigits 10 minutes := String.toList_ofList
        rw [digits] at digit
        have isDigit := Nat.isDigit_of_mem_toDigits (by norm_num) (by norm_num) digit
        refine classify_argumentChar ?_
        simp [isArgumentChar, Char.isAlphanum, isDigit]
      · have all : ("m".toList.all fun c => classify c = .ordinary) = true := by
          rw [String.toList_ofList]
          decide
        exact of_decide_eq_true (List.all_eq_true.mp all c unit)
  have nonempty : (banDuration minutes).toList ≠ [] := by
    unfold banDuration
    split
    · decide
    · rw [String.toList_append]
      exact List.append_ne_nil_of_right_ne_nil _ (by decide)
  have read := @run_argument [] _ [] (List.forall_mem_nil _) nonempty ordinary
    (List.forall_mem_nil _)
  rwa [List.nil_append, List.append_nil] at read

/-- The tokens behind the address of an addition, up to the reason and what follows it. -/
theorem tokens_duration (minutes : Nat) {rest : List Char} {ts : List Token}
    (read : tokens rest = some ts) :
    tokens ("--duration ".toList ++ ((banDuration minutes).toList ++ ' ' :: rest)) =
      some (.word "--duration".toList :: .word (banDuration minutes).toList :: ts) :=
  tokens_template run_durationHead (run_duration minutes) read

theorem tokens_manual : tokens "--reason 'NorthKey manual' 2>&1".toList =
    some [.word "--reason".toList, .word "NorthKey manual".toList, .redirect ['2'] ['>', '&'],
      .word ['1']] := by
  repeat rw [String.toList_ofList]
  rfl

def errorsTokens : List Token := [.redirect ['2'] ['>', '&'], .word ['1']]

theorem tokens_errors : tokens "2>&1".toList = some errorsTokens := by
  repeat rw [String.toList_ofList]
  rfl

/-- The reload of the service and the `echo` that end two of the scripts. -/
def reload : Command :=
  ⟨["systemctl".toList, "reload".toList, "crowdsec".toList],
    [⟨['2'], ['>'], "/dev/null".toList⟩], none⟩

def echoDone : Command := ⟨["echo".toList, "done".toList], [], none⟩

def simulationTokens : List Token :=
  [.redirect ['2'] ['>', '&'], .word ['1'], .andIf, .word "systemctl".toList,
    .word "reload".toList, .word "crowdsec".toList, .redirect ['2'] ['>'],
    .word "/dev/null".toList, .semi, .word "echo".toList, .word "done".toList]

theorem tokens_simulation :
    tokens "2>&1 && systemctl reload crowdsec 2>/dev/null; echo done".toList =
      some simulationTokens := by
  unfold simulationTokens
  repeat rw [String.toList_ofList]
  rfl

theorem blank_duration : " --duration ".toList = ' ' :: "--duration ".toList := by
  repeat rw [String.toList_ofList]

theorem blank_manual : " --reason 'NorthKey manual' 2>&1".toList =
    ' ' :: "--reason 'NorthKey manual' 2>&1".toList := by
  repeat rw [String.toList_ofList]

theorem blank_errors : " 2>&1".toList = ' ' :: "2>&1".toList := by
  repeat rw [String.toList_ofList]

theorem blank_simulation :
    " 2>&1 && systemctl reload crowdsec 2>/dev/null; echo done".toList =
      ' ' :: "2>&1 && systemctl reload crowdsec 2>/dev/null; echo done".toList := by
  repeat rw [String.toList_ofList]

theorem toList_append_three (a b c : String) :
    (a ++ b ++ c).toList = a.toList ++ (b.toList ++ c.toList) := by
  rw [String.toList_append, String.toList_append, List.append_assoc]

theorem toList_append_five (a b c d e : String) :
    (a ++ b ++ c ++ d ++ e).toList =
      a.toList ++ (b.toList ++ (c.toList ++ (d.toList ++ e.toList))) := by
  rw [toList_append_three, String.toList_append, String.toList_append, List.append_assoc,
    List.append_assoc]

theorem toList_banCommand (ip : String) (minutes : Nat) :
    (banCommand ip minutes).toList = "cscli decisions add --ip ".toList ++ (ip.toList ++ ' ' ::
      ("--duration ".toList ++ ((banDuration minutes).toList ++ ' ' ::
        "--reason 'NorthKey manual' 2>&1".toList))) := by
  refine (toList_append_five _ ip _ (banDuration minutes) _).trans ?_
  refine congrArg (fun rest => _ ++ (ip.toList ++ rest)) ?_
  exact congrArg₂ (fun head reason => head ++ ((banDuration minutes).toList ++ reason))
    blank_duration blank_manual

theorem toList_unbanCommand (ip : String) :
    (unbanCommand ip).toList =
      "cscli decisions delete --ip ".toList ++ (ip.toList ++ ' ' :: "2>&1".toList) := by
  refine (toList_append_three _ ip _).trans ?_
  exact congrArg (fun rest => _ ++ (ip.toList ++ rest)) blank_errors

theorem toList_simulationCommand (scenario : String) (training : Bool) :
    (simulationCommand scenario training).toList =
      ("cscli simulation ".toList ++ ((simulationVerb training).toList ++ " ".toList)) ++
        (scenario.toList ++ ' ' ::
          "2>&1 && systemctl reload crowdsec 2>/dev/null; echo done".toList) := by
  refine (toList_append_three _ scenario _).trans ?_
  exact congrArg₂ (fun head rest => head ++ (scenario.toList ++ rest))
    (toList_append_three _ (simulationVerb training) _) blank_simulation

/-- The command that is issued with the address of a ban behind it. -/
def banTail (minutes : Nat) : Command :=
  ⟨["--duration".toList, (banDuration minutes).toList, "--reason".toList,
    "NorthKey manual".toList], [errorsToOutput], none⟩

def banTokens (minutes : Nat) : List Token :=
  [.word "--duration".toList, .word (banDuration minutes).toList, .word "--reason".toList,
    .word "NorthKey manual".toList, .redirect ['2'] ['>', '&'], .word ['1']]

theorem tokens_ban (minutes : Nat) :
    tokens ("--duration ".toList ++ ((banDuration minutes).toList ++ ' ' ::
      "--reason 'NorthKey manual' 2>&1".toList)) = some (banTokens minutes) :=
  tokens_duration minutes tokens_manual

/-- The file that the allowlist is written to. -/
def allowlistPath : List Char :=
  "/etc/crowdsec/parsers/s02-enrich/northkey-whitelist.yaml".toList

/-- The command that writes the file. -/
def writeAllowlist (entries : List String) : Command :=
  ⟨["cat".toList], [⟨[], ['>'], allowlistPath⟩], some (allowlistYaml entries).toList⟩

theorem toList_ipLines (entries : List String) :
    (ipLines entries).toList =
      entries.flatMap fun e => "    - \"".toList ++ e.toList ++ "\"\n".toList := by
  induction entries with
  | nil => rfl
  | cons e rest ih =>
      have unfolded : ipLines (e :: rest) = "    - \"" ++ e ++ "\"\n" ++ ipLines rest := by
        rw [ipLines, List.map_cons, String.join_cons]
        rfl
      rw [unfolded, String.toList_append, ih, List.flatMap_cons, String.toList_append,
        String.toList_append]

/-- A character that is neither white space nor of an address stands nowhere in an entry. -/
theorem notMem_of_validIpOrCidr {ipAddr : String → Bool} {e : String}
    (valid : validIpOrCidr ipAddr e = true) {c : Char} (address : isAddressChar c = false)
    (blank : isWhitespace c = false) : c ∉ e.toList := by
  obtain ⟨before, after, whole, left, right⟩ := trim_split e
  intro mem
  rw [whole, List.mem_append, List.mem_append] at mem
  obtain (mem | mem) | mem := mem
  · rw [left c mem] at blank
    cases blank
  · rw [(address_of_validIpOrCidr valid).2 c mem] at address
    cases address
  · rw [right c mem] at blank
    cases blank

theorem notMem_toList_append {c : Char} {a b : String} (left : c ∉ a.toList) (right : c ∉ b.toList) :
    c ∉ (a ++ b).toList := by
  rw [String.toList_append, List.mem_append, not_or]
  exact ⟨left, right⟩

theorem notMem_allowlistYaml {entries : List String} (clean : ∀ e ∈ entries, 'Y' ∉ e.toList) :
    'Y' ∉ (allowlistYaml entries).toList := by
  have first : 'Y' ∉ yamlHead.toList :=
    notMem_toList_append (by rw [String.toList_ofList]; decide)
      (by rw [String.toList_ofList]; decide)
  have last : 'Y' ∉ yamlTail.toList :=
    notMem_toList_append (by rw [String.toList_ofList]; decide)
      (by rw [String.toList_ofList]; decide)
  have line : 'Y' ∉ "    - \"".toList ∧ 'Y' ∉ "\"\n".toList := by
    repeat rw [String.toList_ofList]
    decide
  have entry : 'Y' ∉ (ipLines entries).toList := by
    rw [toList_ipLines, List.mem_flatMap]
    rintro ⟨e, given, mem⟩
    rw [List.mem_append, List.mem_append] at mem
    obtain (mem | mem) | mem := mem
    · exact line.1 mem
    · exact clean e given mem
    · exact line.2 mem
  exact notMem_toList_append (notMem_toList_append first entry) last

theorem getLast?_toList_append {c : Char} {a b : String} (last : b.toList.getLast? = some c) :
    (a ++ b).toList.getLast? = some c := by
  rw [String.toList_append, List.getLast?_append, last, Option.some_or]

theorem getLast?_allowlistYaml (entries : List String) :
    (allowlistYaml entries).toList.getLast? = some '\n' := by
  have range : "    - \"192.168.0.0/16\"\n".toList.getLast? = some '\n' := by
    rw [String.toList_ofList]
    decide
  exact getLast?_toList_append (getLast?_toList_append range)

theorem toList_allowlistScript (entries : List String) :
    (allowlistScript entries).toList =
      "cat > /etc/crowdsec/parsers/s02-enrich/northkey-whitelist.yaml <<'YAML'\n".toList ++
        ((allowlistYaml entries).toList ++
          ("YAML\n".toList ++ "systemctl reload crowdsec 2>/dev/null; echo done".toList)) := by
  have tail : "YAML\nsystemctl reload crowdsec 2>/dev/null; echo done".toList =
      "YAML\n".toList ++ "systemctl reload crowdsec 2>/dev/null; echo done".toList := by
    repeat rw [String.toList_ofList]
    rfl
  refine (toList_append_three _ (allowlistYaml entries) _).trans ?_
  exact congrArg (fun rest => _ ++ ((allowlistYaml entries).toList ++ rest)) tail

theorem run_scriptHead :
    run init "cat > /etc/crowdsec/parsers/s02-enrich/northkey-whitelist.yaml <<'YAML'\n".toList =
      ⟨[.word allowlistPath, .redirect [] ['>'], .word "cat".toList],
        .ready [] "YAML".toList, .here [] []⟩ := by
  unfold allowlistPath
  repeat rw [String.toList_ofList]
  rfl

theorem run_delimiter (out : List Token) (text : List Char) :
    run ⟨out, .ready [] "YAML".toList, .here text []⟩ "YAML\n".toList =
      ⟨.newline :: .here [] text :: out, .none, .between⟩ := by
  repeat rw [String.toList_ofList]
  rfl

theorem tokens_reload : tokens "systemctl reload crowdsec 2>/dev/null; echo done".toList =
    some [.word "systemctl".toList, .word "reload".toList, .word "crowdsec".toList,
      .redirect ['2'] ['>'], .word "/dev/null".toList, .semi, .word "echo".toList,
      .word "done".toList] := by
  repeat rw [String.toList_ofList]
  rfl

theorem isSimple_of_words {c : Command} {w : String} (calls : c.words.head? = some w.toList)
    (other : w.toList ∉ reserved.map String.toList) : c.isSimple = true := by
  rw [Command.isSimple, calls]
  exact decide_eq_true other

theorem isSimple_cscli {c : Command} (calls : c.words.head? = some "cscli".toList) :
    c.isSimple = true := isSimple_of_words calls (by decide +kernel)

theorem isSimple_reload : reload.isSimple = true :=
  isSimple_of_words (w := "systemctl") rfl (by decide +kernel)

theorem isSimple_echoDone : echoDone.isSimple = true :=
  isSimple_of_words (w := "echo") rfl (by decide +kernel)

theorem isSimple_writeAllowlist (entries : List String) :
    (writeAllowlist entries).isSimple = true :=
  isSimple_of_words (w := "cat") rfl (by decide +kernel)

/-- The script is three commands whatever the entries are: the file is written, the service is
reloaded, and `echo` ends it. -/
theorem program_allowlistScript {entries : List String} (clean : ∀ e ∈ entries, 'Y' ∉ e.toList) :
    program (allowlistScript entries).toList =
      some [[writeAllowlist entries], [reload], [echoDone]] := by
  have inside : 'Y' ∈ "YAML".toList := by
    rw [String.toList_ofList]
    decide
  obtain ⟨text, line, -, whole, last, read⟩ := run_here inside (notMem_allowlistYaml clean)
    [.word allowlistPath, .redirect [] ['>'], .word "cat".toList] [] [] [] List.not_mem_nil
  have complete := last (getLast?_allowlistYaml entries)
  rw [complete, List.append_nil, List.append_nil, List.nil_append] at whole
  rw [complete, whole] at read
  have read_ : tokens (allowlistScript entries).toList =
      some ([.word "cat".toList, .redirect [] ['>'], .word allowlistPath,
        .here [] (allowlistYaml entries).toList, .newline, .word "systemctl".toList,
        .word "reload".toList, .word "crowdsec".toList, .redirect ['2'] ['>'],
        .word "/dev/null".toList, .semi, .word "echo".toList, .word "done".toList]) := by
    rw [tokens, toList_allowlistScript, run_append, run_append, run_append, run_scriptHead, read,
      run_delimiter, run_between, close_under tokens_reload]
    rfl
  refine program_eq_some_iff.mpr ⟨?_, ?_⟩
  · rw [lists, read_]
    rfl
  · simp [isSimple_writeAllowlist, isSimple_reload, isSimple_echoDone]

end Sentinel.Servers
