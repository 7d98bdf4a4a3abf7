import Sentinel.Lib.Shell
import Sentinel.Api.Text
import Sentinel.Servers.BanPool

/-!
# Commands over SSH

`exec` of `ssh.rs` and the control commands of `crowdsec.rs`: a command is validated, its text is
run on the server by a shell, and what the channel brings decides what is reported. The connection
stands and the time limit is not reached. How bytes that are not UTF-8 are shown is a parameter
(`String::from_utf8_lossy`).

`exec` stops at the end of file. A server may send the exit status after it, and then the status is
lost and the default stands.
-/

namespace Sentinel.Servers

open Api

/-! ## The channel -/

/-- `russh::ChannelMsg`. -/
inductive ChannelMsg where
  | data (b : Bytes)
  | extendedData (b : Bytes) (ext : Nat)
  | exitStatus (status : UInt32)
  | eof
  | close
  /-- window adjustments, signals and requests -/
  | other
  deriving DecidableEq, Repr

/-- What `exec` gathers: output, errors and the code. -/
structure Gathered where
  stdout : Bytes
  stderr : Bytes
  code : Int32
  deriving DecidableEq, Repr

/-- The loop of `exec`. -/
def gatherLoop : Gathered → List ChannelMsg → Gathered
  | g, [] => g
  | g, .data b :: rest => gatherLoop { g with stdout := g.stdout ++ b } rest
  | g, .extendedData b _ :: rest => gatherLoop { g with stderr := g.stderr ++ b } rest
  | g, .exitStatus status :: rest => gatherLoop { g with code := status.toInt32 } rest
  | g, .eof :: _ => g
  | g, .close :: _ => g
  | g, .other :: rest => gatherLoop g rest

/-- `ssh::ExecOut`. -/
structure ExecOut where
  stdout : String
  stderr : String
  code : Int32
  deriving DecidableEq, Repr

section Exec

variable (fromUtf8Lossy : Bytes → String)

def execOut (msgs : List ChannelMsg) : ExecOut :=
  let g := gatherLoop ⟨[], [], -1⟩ msgs
  ⟨fromUtf8Lossy g.stdout, fromUtf8Lossy g.stderr, g.code⟩

/-- `exec`, on what the channel brings. -/
def exec (host : String) (msgs : List ChannelMsg) : Except String ExecOut :=
  if (Api.trim host).isEmpty then .error "No server address." else .ok (execOut fromUtf8Lossy msgs)

end Exec

/-- All the data of a run. -/
def dataOf (msgs : List ChannelMsg) : Bytes :=
  msgs.flatMap fun m => match m with
    | .data b => b
    | _ => []

def extendedOf (msgs : List ChannelMsg) : Bytes :=
  msgs.flatMap fun m => match m with
    | .extendedData b _ => b
    | _ => []

/-- No message of the list ends the loop or brings a status. -/
def Quiet (l : List ChannelMsg) : Prop := ∀ m ∈ l, m ≠ .close ∧ ∀ status, m ≠ .exitStatus status

/-- No data comes after an end of file. -/
def Ended (l : List ChannelMsg) : Prop :=
  ∀ before after, l = before ++ ChannelMsg.eof :: after →
    ∀ m ∈ after, (∀ b, m ≠ .data b) ∧ ∀ b ext, m ≠ .extendedData b ext

/-- The messages of a command that ends with this status, in any order that the protocol allows:
one exit status, at most one end of file with no data behind it, and the channel closes. -/
structure Conforming (msgs : List ChannelMsg) (status : UInt32) : Prop where
  shape : ∃ before after,
    msgs = before ++ ChannelMsg.exitStatus status :: after ++ [ChannelMsg.close] ∧
    Quiet (before ++ after) ∧ (before ++ after).count .eof ≤ 1
  ended : Ended msgs

/-- The exit status comes before the end of file. -/
def StatusFirst (msgs : List ChannelMsg) : Prop :=
  ∃ status, .exitStatus status ∈ msgs.takeWhile (· ≠ .eof)

section Gather

variable {l rest : List ChannelMsg}

theorem dataOf_append (l rest : List ChannelMsg) : dataOf (l ++ rest) = dataOf l ++ dataOf rest :=
  List.flatMap_append

theorem extendedOf_append (l rest : List ChannelMsg) :
    extendedOf (l ++ rest) = extendedOf l ++ extendedOf rest :=
  List.flatMap_append

theorem none_of_ended (none : ∀ m ∈ l, (∀ b, m ≠ .data b) ∧ ∀ b ext, m ≠ .extendedData b ext) :
    dataOf l = [] ∧ extendedOf l = [] := by
  constructor
  · rw [dataOf, List.flatMap_eq_nil_iff]
    intro m mem
    cases m with
    | data b => exact absurd rfl ((none _ mem).1 b)
    | _ => rfl
  · rw [extendedOf, List.flatMap_eq_nil_iff]
    intro m mem
    cases m with
    | extendedData b ext => exact absurd rfl ((none _ mem).2 b ext)
    | _ => rfl

theorem Ended.tail {m : ChannelMsg} (ended : Ended (m :: l)) : Ended l := by
  intro before after shape
  exact ended (m :: before) after (by rw [shape]; rfl)

/-- Up to a message that ends it, the loop gathers the data. -/
theorem gatherLoop_quiet (quiet : Quiet l) (open_ : .eof ∉ l) (g : Gathered)
    (rest : List ChannelMsg) :
    gatherLoop g (l ++ rest) =
      gatherLoop ⟨g.stdout ++ dataOf l, g.stderr ++ extendedOf l, g.code⟩ rest := by
  induction l generalizing g with
  | nil => rw [dataOf, extendedOf, List.flatMap_nil, List.flatMap_nil, List.append_nil,
      List.append_nil, List.nil_append]
  | cons m l ih =>
      obtain ⟨first, others⟩ := List.forall_mem_cons.mp quiet
      obtain ⟨notEof, later⟩ := not_or.mp (mt List.mem_cons.mpr open_)
      have next := ih others later
      cases m with
      | data b =>
          refine (next { g with stdout := g.stdout ++ b }).trans ?_
          rw [List.append_assoc]
          rfl
      | extendedData b ext =>
          refine (next { g with stderr := g.stderr ++ b }).trans ?_
          rw [List.append_assoc]
          rfl
      | exitStatus status => exact absurd rfl (first.2 status)
      | eof => exact absurd rfl notEof
      | close => exact absurd rfl first.1
      | other => exact next g

/-- A list that ends the loop, or stands before the close, gives all its data and no code. -/
theorem gatherLoop_ended (quiet : Quiet l) (ended : Ended l)
    (stops : .eof ∈ l ∨ ∃ r, rest = .close :: r) (g : Gathered) :
    gatherLoop g (l ++ rest) = ⟨g.stdout ++ dataOf l, g.stderr ++ extendedOf l, g.code⟩ := by
  by_cases final : .eof ∈ l
  · obtain ⟨before, after, rfl, notEof⟩ := List.eq_append_cons_of_mem final
    have quietBefore : Quiet before := fun m mem => quiet m (List.mem_append_left _ mem)
    obtain ⟨noData, noErrors⟩ := none_of_ended (ended before after rfl)
    have data : dataOf (before ++ .eof :: after) = dataOf before := by
      rw [dataOf_append, ← List.singleton_append, dataOf_append, noData]
      exact List.append_nil _
    have errors : extendedOf (before ++ .eof :: after) = extendedOf before := by
      rw [extendedOf_append, ← List.singleton_append, extendedOf_append, noErrors]
      exact List.append_nil _
    rw [List.append_assoc, gatherLoop_quiet quietBefore notEof, data, errors]
    rfl
  · obtain ⟨r, rfl⟩ := stops.resolve_left final
    exact gatherLoop_quiet quiet final g _

variable {msgs : List ChannelMsg} {status : UInt32}

theorem takeWhile_eof (free : .eof ∉ l) (rest : List ChannelMsg) :
    (l ++ .eof :: rest).takeWhile (· ≠ .eof) = l := by
  have pass : ∀ m ∈ l, decide (m ≠ .eof) = true := by
    intro m there
    exact decide_eq_true fun same => free (same ▸ there)
  rw [List.takeWhile_append_of_pos pass, List.takeWhile_cons_of_neg (by simp), List.append_nil]

/-- With the exit status before the end of file, `exec` has all data and the status. -/
theorem gatherLoop_statusFirst (conforming : Conforming msgs status) (first : StatusFirst msgs) :
    gatherLoop ⟨[], [], -1⟩ msgs = ⟨dataOf msgs, extendedOf msgs, status.toInt32⟩ := by
  obtain ⟨⟨before, after, rfl, quiet, -⟩, ended⟩ := conforming
  have quietBefore : Quiet before := fun m mem => quiet m (List.mem_append_left _ mem)
  have quietAfter : Quiet after := fun m mem => quiet m (List.mem_append_right _ mem)
  have endedAfter : Ended after := by
    intro b a shape
    have whole : before ++ ChannelMsg.exitStatus status :: after ++ [ChannelMsg.close] =
        (before ++ ChannelMsg.exitStatus status :: b) ++
          ChannelMsg.eof :: (a ++ [ChannelMsg.close]) := by
      rw [shape]
      simp
    intro m mem
    exact ended _ _ whole m (List.mem_append_left _ mem)
  have notEof : .eof ∉ before := by
    intro mem
    obtain ⟨s, found⟩ := first
    obtain ⟨b, a, rfl, free⟩ := List.eq_append_cons_of_mem mem
    rw [List.append_assoc, List.append_assoc, List.cons_append, takeWhile_eof free] at found
    exact (quietBefore _ (List.mem_append_left _ found)).2 s rfl
  have closes : .eof ∈ after ∨ ∃ r, [ChannelMsg.close] = .close :: r := .inr ⟨[], rfl⟩
  have finished := gatherLoop_ended quietAfter endedAfter closes
    ⟨dataOf before, extendedOf before, status.toInt32⟩
  rw [List.append_assoc, gatherLoop_quiet quietBefore notEof, List.cons_append, gatherLoop,
    List.nil_append, List.nil_append]
  refine finished.trans ?_
  rw [dataOf_append, extendedOf_append, ← List.singleton_append, dataOf_append, extendedOf_append,
    dataOf_append, extendedOf_append]
  simp [dataOf, extendedOf]

/-- With the end of file first, the status is lost. -/
theorem gatherLoop_eofFirst (conforming : Conforming msgs status) (late : ¬StatusFirst msgs) :
    gatherLoop ⟨[], [], -1⟩ msgs = ⟨dataOf msgs, extendedOf msgs, -1⟩ := by
  obtain ⟨⟨before, after, rfl, quiet, -⟩, ended⟩ := conforming
  have quietBefore : Quiet before := fun m mem => quiet m (List.mem_append_left _ mem)
  have final : .eof ∈ before := by
    by_contra free
    refine late ⟨status, ?_⟩
    have pass : ∀ m ∈ before, decide (m ≠ .eof) = true := by
      intro m there
      exact decide_eq_true fun same => free (same ▸ there)
    rw [List.append_assoc, List.takeWhile_append_of_pos pass, List.cons_append,
      List.takeWhile_cons_of_pos (by simp)]
    exact List.mem_append_right _ List.mem_cons_self
  obtain ⟨b, a, rfl, free⟩ := List.eq_append_cons_of_mem final
  have whole : b ++ ChannelMsg.eof :: a ++ ChannelMsg.exitStatus status :: after ++
      [ChannelMsg.close] =
        b ++ ChannelMsg.eof :: (a ++ ChannelMsg.exitStatus status :: after ++
          [ChannelMsg.close]) := by
    simp
  have quietB : Quiet b := fun m mem => quietBefore m (List.mem_append_left _ mem)
  obtain ⟨noData, noErrors⟩ := none_of_ended (ended _ _ whole)
  have data : dataOf (b ++ ChannelMsg.eof :: (a ++ ChannelMsg.exitStatus status :: after ++
      [ChannelMsg.close])) = dataOf b := by
    rw [dataOf_append, ← List.singleton_append, dataOf_append, noData]
    exact List.append_nil _
  have errors : extendedOf (b ++ ChannelMsg.eof :: (a ++ ChannelMsg.exitStatus status :: after ++
      [ChannelMsg.close])) = extendedOf b := by
    rw [extendedOf_append, ← List.singleton_append, extendedOf_append, noErrors]
    exact List.append_nil _
  rw [whole, gatherLoop_quiet quietB free, data, errors]
  rfl

end Gather

end Sentinel.Servers
