import Sentinel.Api.Handler
import Sentinel.Lib.Codec
import Sentinel.Vpn.CloudInit

/-!
# Generated passwords

`password` of `crates/core/src/generator/mod.rs`: one character of each enabled class, the rest from
all of them together, then a shuffle. What the operating system's random numbers are is a parameter,
`RandomSource`; memory is taken to be large enough.

`CharClass` says what the classes are for, and `password_meets` that every outcome meets the
specification.
-/

namespace Sentinel.Vault.Generator

open Wire

structure PasswordSpec where
  length : Nat
  lower : Bool
  upper : Bool
  digits : Bool
  symbols : Bool
  excludeAmbiguous : Bool
  deriving DecidableEq, Repr

/-- `OsRng`: the outcome of each `gen_range` and of the shuffle. -/
structure RandomSource where
  genRange : (draw n : Nat) → Nat
  genRange_lt : ∀ draw n, 0 < n → genRange draw n < n
  shuffle : List Char → List Char
  shuffle_perm : ∀ chars, (shuffle chars).Perm chars

def LOWER : String := "abcdefghijkmnpqrstuvwxyz"
def LOWER_AMBIG : String := "l o"
def UPPER : String := "ABCDEFGHJKLMNPQRSTUVWXYZ"
def DIGITS : String := "23456789"
def DIGITS_AMBIG : String := "0 1"
def SYMBOLS : String := "!@#$%^&*()-_=+[]\x7b\x7d;:,.?"

/-- `str::split_whitespace`. -/
def splitWhitespace (s : String) : List (List Char) :=
  (s.toList.splitOnP Api.isWhitespace).filter (· ≠ [])

/-- The characters that `push_class` pushes. -/
def classChars (excludeAmbiguous : Bool) (base ambiguous : String) : List Char :=
  if excludeAmbiguous then base.toList
  else base.toList ++ (splitWhitespace ambiguous).filterMap List.head?

/-- `classes`. -/
def classes (spec : PasswordSpec) : List (List Char) :=
  let push (enabled : Bool) (base ambiguous : String) : List (List Char) :=
    if enabled then [classChars spec.excludeAmbiguous base ambiguous] else []
  push spec.lower LOWER LOWER_AMBIG ++ push spec.upper UPPER "I O" ++
    push spec.digits DIGITS DIGITS_AMBIG ++ push spec.symbols SYMBOLS ""

section Password

variable (rng : RandomSource)

/-- `chars[rng.gen_range(0..chars.len())]`; an empty range panics. -/
def pick (draw : Nat) (chars : List Char) : Checked Vpn.CoreError Char :=
  if chars.length = 0 then .trap
  else match chars[rng.genRange draw chars.length]? with
    | some c => .ok c
    | none => .trap

/-- One character of each class. Every draw pushes one, so their number is the next draw's. -/
def pickEach : List (List Char) → List Char → Checked Vpn.CoreError (List Char)
  | [], out => .ok out
  | cls :: rest, out => do
      let c ← pick rng out.length cls
      pickEach rest (out ++ [c])

/-- The loop that fills the rest, for the number of characters that are missing. -/
def fill (union : List Char) : Nat → List Char → Checked Vpn.CoreError (List Char)
  | 0, out => .ok out
  | missing + 1, out => do
      let c ← pick rng out.length union
      fill union missing (out ++ [c])

def password (spec : PasswordSpec) : Checked Vpn.CoreError String :=
  let classes := classes spec
  if classes.isEmpty then .err (.invalid "no character classes enabled")
  else if spec.length < classes.length then
    .err (.invalid ("length " ++ toString spec.length ++ " too short for " ++
      toString classes.length ++ " required classes"))
  else do
    let out ← pickEach rng classes []
    let out ← fill rng classes.flatten (spec.length - out.length) out
    pure (String.ofList (rng.shuffle out))

end Password

/-! ## Classes -/

inductive CharClass where
  | lower | upper | digits | symbols
  deriving DecidableEq, Repr

namespace CharClass

def all : List CharClass := [lower, upper, digits, symbols]

def Enabled (spec : PasswordSpec) : CharClass → Bool
  | lower => spec.lower
  | upper => spec.upper
  | digits => spec.digits
  | symbols => spec.symbols

/-- The characters that a class is for. -/
def Contains (c : Char) : CharClass → Bool
  | lower => c.isLower
  | upper => c.isUpper
  | digits => c.isDigit
  | symbols => SYMBOLS.toList.contains c

/-- The characters that the source takes for it. -/
def chars (excludeAmbiguous : Bool) : CharClass → List Char
  | lower => classChars excludeAmbiguous LOWER LOWER_AMBIG
  | upper => classChars excludeAmbiguous UPPER "I O"
  | digits => classChars excludeAmbiguous DIGITS DIGITS_AMBIG
  | symbols => classChars excludeAmbiguous SYMBOLS ""

/-- They are some, are what the class is for, and none is ambiguous if that is asked. -/
theorem chars_ok (excludeAmbiguous : Bool) (cls : CharClass) :
    cls.chars excludeAmbiguous ≠ [] ∧ ∀ c ∈ cls.chars excludeAmbiguous, cls.Contains c = true ∧
      (excludeAmbiguous = true → c ∉ ['l', 'o', 'I', 'O', '0', '1']) := by
  have table : ((cls.chars excludeAmbiguous).all fun c => cls.Contains c &&
      (!excludeAmbiguous || decide (c ∉ ['l', 'o', 'I', 'O', '0', '1']))) = true := by
    cases excludeAmbiguous <;> cases cls <;> decide +kernel
  refine ⟨?_, fun c mem => ?_⟩
  · cases excludeAmbiguous <;> cases cls <;> decide +kernel
  · obtain ⟨contains, plain⟩ := Bool.and_eq_true_iff.mp (List.all_eq_true.mp table c mem)
    refine ⟨contains, fun excludes => ?_⟩
    rw [excludes] at plain
    exact of_decide_eq_true plain

end CharClass

theorem classes_eq (spec : PasswordSpec) : classes spec =
    (CharClass.all.filter (·.Enabled spec)).map (CharClass.chars spec.excludeAmbiguous) := by
  obtain ⟨length, lower, upper, digits, symbols, excludeAmbiguous⟩ := spec
  cases lower <;> cases upper <;> cases digits <;> cases symbols <;> rfl

section Password

variable {rng : RandomSource}

/-- A character of a class is picked. -/
theorem pick_ok (draw : Nat) {chars : List Char} (some_ : chars ≠ []) :
    ∃ c ∈ chars, pick rng draw chars = .ok c := by
  have positive := List.length_pos_of_ne_nil some_
  have inside := rng.genRange_lt draw _ positive
  refine ⟨chars[rng.genRange draw chars.length], List.getElem_mem inside, ?_⟩
  rw [pick, if_neg positive.ne', List.getElem?_eq_getElem inside]

variable (rng) in
/-- Every class gets one character, and no other character is pushed. -/
theorem pickEach_ok {cs : List (List Char)} (some_ : ∀ cls ∈ cs, cls ≠ []) (out : List Char) :
    ∃ picked, pickEach rng cs out = .ok (out ++ picked) ∧ picked.length = cs.length ∧
      (∀ c ∈ picked, ∃ cls ∈ cs, c ∈ cls) ∧ ∀ cls ∈ cs, ∃ c ∈ picked, c ∈ cls := by
  induction cs generalizing out with
  | nil => exact ⟨[], by rw [List.append_nil]; rfl, rfl, by simp, by simp⟩
  | cons cls rest ih =>
      obtain ⟨here, later⟩ := List.forall_mem_cons.mp some_
      obtain ⟨c, mem, first⟩ : ∃ c ∈ cls, pick rng out.length cls = .ok c :=
        pick_ok out.length here
      obtain ⟨picked, more, length, inside, each⟩ := ih later (out ++ [c])
      refine ⟨c :: picked, ?_, by rw [List.length_cons, List.length_cons, length], ?_, ?_⟩
      · rw [pickEach, first, Checked.ok_bind, more, List.append_assoc, List.singleton_append]
      · refine List.forall_mem_cons.mpr ⟨⟨cls, List.mem_cons_self, mem⟩, fun d there => ?_⟩
        obtain ⟨own, member, own_⟩ := inside d there
        exact ⟨own, List.mem_cons_of_mem _ member, own_⟩
      · refine List.forall_mem_cons.mpr ⟨⟨c, List.mem_cons_self, mem⟩, fun own member => ?_⟩
        obtain ⟨d, there, own_⟩ := each own member
        exact ⟨d, List.mem_cons_of_mem _ there, own_⟩

variable (rng) in
/-- The missing characters are filled from the union. -/
theorem fill_ok {union : List Char} (some_ : union ≠ []) (missing : Nat) (out : List Char) :
    ∃ filled, fill rng union missing out = .ok (out ++ filled) ∧ filled.length = missing ∧
      ∀ c ∈ filled, c ∈ union := by
  induction missing generalizing out with
  | zero => exact ⟨[], by rw [List.append_nil]; rfl, rfl, by simp⟩
  | succ missing ih =>
      obtain ⟨c, mem, first⟩ : ∃ c ∈ union, pick rng out.length union = .ok c :=
        pick_ok out.length some_
      obtain ⟨filled, more, length, inside⟩ := ih (out ++ [c])
      refine ⟨c :: filled, ?_, by rw [List.length_cons, length],
        List.forall_mem_cons.mpr ⟨mem, inside⟩⟩
      rw [fill, first, Checked.ok_bind, more, List.append_assoc, List.singleton_append]

/-- What a password of a specification is. -/
structure Meets (spec : PasswordSpec) (password : String) : Prop where
  length : password.length = spec.length
  enabled : ∀ c ∈ password.toList, ∃ cls : CharClass, cls.Enabled spec = true ∧ cls.Contains c = true
  each : ∀ cls : CharClass, cls.Enabled spec = true → ∃ c ∈ password.toList, cls.Contains c = true
  unambiguous : spec.excludeAmbiguous = true →
    ∀ c ∈ password.toList, c ∉ ['l', 'o', 'I', 'O', '0', '1']

/-- The number of enabled classes. -/
def enabledClasses (spec : PasswordSpec) : Nat := (CharClass.all.filter (·.Enabled spec)).length

theorem CharClass.mem_all (cls : CharClass) : cls ∈ all := by
  cases cls <;> decide

theorem classes_eq_nil (spec : PasswordSpec) :
    classes spec = [] ↔ ∀ cls : CharClass, cls.Enabled spec = false := by
  rw [classes_eq, List.map_eq_nil_iff, List.filter_eq_nil_iff]
  constructor
  · intro none_ cls
    exact Bool.eq_false_iff.mpr (none_ cls cls.mem_all)
  · intro none_ cls _
    exact Bool.eq_false_iff.mp (none_ cls)

theorem length_classes (spec : PasswordSpec) : (classes spec).length = enabledClasses spec := by
  rw [classes_eq, List.length_map, enabledClasses]

/-- The classes of the source are the enabled ones. -/
theorem mem_classes {spec : PasswordSpec} {cs : List Char} : cs ∈ classes spec ↔
    ∃ cls : CharClass, cls.Enabled spec = true ∧ cls.chars spec.excludeAmbiguous = cs := by
  rw [classes_eq, List.mem_map]
  refine exists_congr fun cls => and_congr_left fun _ => ?_
  rw [List.mem_filter, and_iff_right cls.mem_all]

/-- With enough room for the classes there is a password, and it meets the specification. -/
theorem password_ok (rng : RandomSource) {spec : PasswordSpec} (some_ : classes spec ≠ [])
    (room : (classes spec).length ≤ spec.length) :
    ∃ p, password rng spec = .ok p ∧ Meets spec p := by
  have own : ∀ cs ∈ classes spec, cs ≠ [] := by
    intro cs mem
    obtain ⟨cls, -, rfl⟩ := mem_classes.mp mem
    exact (cls.chars_ok _).1
  obtain ⟨picked, first, length, inside, each⟩ := pickEach_ok rng own []
  have union : (classes spec).flatten ≠ [] := by
    obtain ⟨cs, mem⟩ := List.exists_mem_of_ne_nil _ some_
    obtain ⟨c, there⟩ := List.exists_mem_of_ne_nil _ (own cs mem)
    exact List.ne_nil_of_mem (List.mem_flatten.mpr ⟨cs, mem, there⟩)
  obtain ⟨filled, rest, missing, other⟩ :=
    fill_ok rng union (spec.length - picked.length) picked
  have made : password rng spec = .ok (String.ofList (rng.shuffle (picked ++ filled))) := by
    rw [password, if_neg (by rw [List.isEmpty_iff]; exact some_), if_neg (Nat.not_lt.mpr room),
      first, Checked.ok_bind, List.nil_append, rest, Checked.ok_bind]
    rfl
  have perm := rng.shuffle_perm (picked ++ filled)
  -- every character comes from an enabled class
  have from_ : ∀ c ∈ picked ++ filled, ∃ cs ∈ classes spec, c ∈ cs := by
    intro c mem
    obtain here | there := List.mem_append.mp mem
    · exact inside c here
    · exact List.mem_flatten.mp (other c there)
  refine ⟨_, made, ?_, ?_, ?_, ?_⟩
  · rw [String.length_ofList, perm.length_eq, List.length_append, length, missing, length]
    omega
  · intro c mem
    rw [String.toList_ofList, perm.mem_iff] at mem
    obtain ⟨cs, member, there⟩ := from_ c mem
    obtain ⟨cls, enabled, rfl⟩ := mem_classes.mp member
    exact ⟨cls, enabled, ((cls.chars_ok _).2 c there).1⟩
  · intro cls enabled
    obtain ⟨c, mem, there⟩ := each _ (mem_classes.mpr ⟨cls, enabled, rfl⟩)
    refine ⟨c, ?_, ((cls.chars_ok _).2 c there).1⟩
    rw [String.toList_ofList, perm.mem_iff]
    exact List.mem_append_left _ mem
  · intro excludes c mem
    rw [String.toList_ofList, perm.mem_iff] at mem
    obtain ⟨cs, member, there⟩ := from_ c mem
    obtain ⟨cls, -, rfl⟩ := mem_classes.mp member
    exact ((cls.chars_ok _).2 c there).2 excludes

/-- The first index each time, and the characters backwards. -/
def firstIndex : RandomSource where
  genRange _ _ := 0
  genRange_lt _ _ positive := positive
  shuffle := List.reverse
  shuffle_perm := List.reverse_perm

end Password

end Sentinel.Vault.Generator
