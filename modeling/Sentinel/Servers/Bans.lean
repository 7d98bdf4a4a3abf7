import Mathlib
import Sentinel.Lib.Atomic
import Sentinel.Api.Handler

/-!
# The fleet ban pool

The sharing of CrowdSec bans in `crowdsec.rs`: a pass lists the decisions of every server
over SSH, takes the union with the longest remaining duration per address, and adds to each
server what it is missing. The pass is a program whose statements are the commands it runs
on the servers; the servers, their clock and what reaches them are the shared state.

`cscli` reports the remaining time of a decision as a Go duration such as `3h58m54s`.
Durations are whole seconds here, and `parse_duration_mins` computes with exact numbers;
the floating-point values of the source are exact for them. Whether a text is an IP address
(`IpAddr::from_str`) is a parameter.
-/

namespace Sentinel.Servers

open Atomic

/-! ## Durations -/

/-- `str::parse::<f64>` on digits and points. -/
def parseNumber (num : List Char) : Option ℚ :=
  match num.dropWhile (· != '.') with
  | [] => if num.isEmpty then none else some (Nat.ofDigitChars 10 num 0 : ℚ)
  | _ :: frac =>
      let whole := num.takeWhile (· != '.')
      if frac.contains '.' || whole.isEmpty && frac.isEmpty then none
      else some ((Nat.ofDigitChars 10 (whole ++ frac) 0 : ℚ) / 10 ^ frac.length)

/-- The seconds of one unit. -/
def unitSeconds : Char → Option ℚ
  | 'h' => some 3600
  | 'm' => some 60
  | 's' => some 1
  | _ => none

/-- The loop of `parse_duration_mins`: digits gather in `num` until a unit. -/
def totalSeconds : List Char → List Char → ℚ → Option ℚ
  | [], _, total => some total
  | c :: rest, num, total =>
      if c.isDigit || c == '.' then totalSeconds rest (num ++ [c]) total
      else
        match parseNumber num, unitSeconds c with
        | some v, some unit => totalSeconds rest [] (total + v * unit)
        | _, _ => none

/-- `parse_duration_mins`: minutes, at least 5, and whether they count as permanent. -/
def parseDurationMins (text : String) : Option (Nat × Bool) :=
  let s := (Api.trim text).toList
  if s.isEmpty || s.head? == some '-' then none
  else
    match totalSeconds s [] 0 with
    | none => none
    | some total =>
        if total ≤ 0 then none
        else
          let mins := min ⌈total / 60⌉₊ (2 ^ 32 - 1)
          -- anything in the hundred-year range is `PERM_DURATION` or another "forever"
          some (max mins 5, decide (100000 * 60 ≤ mins))

/-- `time.Duration.String` of Go, for whole seconds. -/
def goDuration (seconds : Nat) : String :=
  let h := seconds / 3600
  let m := seconds % 3600 / 60
  String.ofList <|
    (if 0 < h then Nat.toDigits 10 h ++ ['h'] else []) ++
    (if 0 < h ∨ 0 < m then Nat.toDigits 10 m ++ ['m'] else []) ++
    Nat.toDigits 10 (seconds % 60) ++ ['s']

/-! ## What the servers hold and what is asked of them -/

/-- A decision as `parse_decisions` reads it. -/
structure Decision where
  sourceIp : String
  action : String
  duration : String
  origin : String
  deriving DecidableEq, Repr

/-- An entry of `ServerBans`: an address, the minutes that remain, permanent or not. -/
structure SharedBan where
  ip : String
  mins : Nat
  perm : Bool
  deriving DecidableEq, Repr

/-- A server of the fleet. -/
structure Member where
  provider : String
  id : String
  host : String
  label : String
  deriving DecidableEq, Repr

def Member.key (m : Member) : String := m.provider ++ ":" ++ m.id

/-- A decision in the database of a server. -/
structure Ban where
  ip : String
  origin : String
  action : String
  /-- in seconds -/
  expires : Nat
  deriving DecidableEq, Repr

/-- The fleet, with what its network does next: which hosts cannot be reached, and which
additions a host takes. -/
structure Fleet where
  now : Nat
  bans : String → List Ban
  fault : String → Option String
  takes : String → SharedBan → Bool

/-- `--duration {mins}m`, or `PERM_DURATION`, the text `876000h`. -/
def SharedBan.seconds (b : SharedBan) : Nat := if b.perm then 876000 * 3600 else b.mins * 60

/-- The commands of a pass. The additions of one `exec` run one after the other; its result
comes after the last. -/
inductive Stmt where
  | list (m : Member)
  | add (m : Member) (b : SharedBan)
  | finish (m : Member)
  deriving DecidableEq, Repr

def Stmt.Result : Stmt → Type
  | .list _ => Except String (List Decision)
  | .add _ _ => Unit
  | .finish _ => Except String Unit

namespace Fleet

/-- `cscli decisions list`: the decisions that have not expired. -/
def decisions (f : Fleet) (host : String) : List Decision :=
  ((f.bans host).filter fun b => decide (f.now < b.expires)).map fun b =>
    { sourceIp := b.ip, action := b.action, duration := goDuration (b.expires - f.now)
      origin := b.origin }

/-- `cscli decisions add`. -/
def insert (f : Fleet) (host : String) (b : SharedBan) : Fleet :=
  { f with
    bans := Function.update f.bans host (f.bans host ++
      [{ ip := b.ip, origin := "cscli", action := "ban", expires := f.now + b.seconds }]) }

end Fleet

def Stmt.exec : (q : Stmt) → Fleet → q.Result × Fleet
  | .list m, f =>
      (match f.fault m.host with
        | none => .ok (f.decisions m.host)
        | some e => .error e, f)
  | .add m b, f => ((), if f.takes m.host b then f.insert m.host b else f)
  | .finish m, f =>
      (match f.fault m.host with
        | none => .ok ()
        | some e => .error e, f)

/-- What happens between commands: time passes, and the network changes. -/
inductive Change where
  | tick (seconds : Nat)
  | network (fault : String → Option String) (takes : String → SharedBan → Bool)

def Change.apply : Change → Fleet → Fleet
  | .tick seconds, f => { f with now := f.now + seconds }
  | .network fault takes, f => { f with fault, takes }

/-! ## The pass -/

section Pass

variable (ipAddr : String → Bool)

/-- `str::parse::<u8>`. -/
def parseU8 (text : List Char) : Option Nat :=
  let digits := if text.head? = some '+' then text.drop 1 else text
  if digits.isEmpty || !digits.all Char.isDigit then none
  else
    let n := Nat.ofDigitChars 10 digits 0
    if n < 256 then some n else none

/-- `valid_ip_or_cidr`. -/
def validIpOrCidr (text : String) : Bool :=
  let s := (Api.trim text).toList
  let hex := fun c : Char => c.isDigit || 'a' ≤ c && c ≤ 'f' || 'A' ≤ c && c ≤ 'F'
  if s.isEmpty || 43 < (Api.utf8 (Api.trim text)).length then false
  else if !s.all fun c => hex c || c == '.' || c == ':' || c == '/' then false
  else
    match s.dropWhile (· != '/') with
    | _ :: bits =>
        ipAddr (String.ofList (s.takeWhile (· != '/'))) && (parseU8 bits).any (· ≤ 128)
    | [] => ipAddr (Api.trim text)

/-- The bans that a pass takes from a listing. -/
def bansOf (ds : List Decision) : List SharedBan :=
  ((ds.filter fun d => d.origin != "CAPI" && d.action == "ban").filter fun d =>
    validIpOrCidr ipAddr d.sourceIp).filterMap fun d =>
      (parseDurationMins d.duration).map fun x => ⟨d.sourceIp, x.1, x.2⟩

/-- One entry of the union: the longest duration, and permanent if one is. -/
def raise : List SharedBan → SharedBan → List SharedBan
  | [], b => [⟨b.ip, max 0 b.mins, false || b.perm⟩]
  | u :: rest, b =>
      if u.ip = b.ip then ⟨u.ip, max u.mins b.mins, u.perm || b.perm⟩ :: rest
      else u :: raise rest b

def unionBans (perServer : List (String × List SharedBan)) : List SharedBan :=
  (perServer.flatMap Prod.snd).foldl raise []

/-- `plan_fleet_additions`. The addresses of the union are distinct, so that the order of
the tuples is the order of the addresses. -/
def planFleetAdditions (perServer : List (String × List SharedBan)) :
    List (String × List SharedBan) :=
  perServer.map fun server =>
    (server.1, (((unionBans perServer).filter fun u =>
      !(server.2.any fun b => b.ip == u.ip)).insertionSort fun a b => a.ip ≤ b.ip).take 100)

structure FleetSyncOut where
  servers : Nat
  propagated : Nat
  log : String
  deriving DecidableEq, Repr

/-- The first loop of `fleet_sync_given`. -/
def gather : List Member → List (String × List SharedBan) → String →
    Prog Stmt Stmt.Result (List (String × List SharedBan) × String)
  | [], perServer, log => .done (perServer, log)
  | m :: rest, perServer, log =>
      .stmt (.list m) fun
        | .ok ds => gather rest (perServer ++ [(m.key, bansOf ipAddr ds)]) log
        | .error e => gather rest perServer (log ++ m.label ++ ": unreachable (" ++ e ++ ")\n")

/-- One `exec` with a line per addition. -/
def addAll (m : Member) : List SharedBan → Prog Stmt Stmt.Result (Except String Unit)
  | [] => .stmt (.finish m) .done
  | b :: rest => .stmt (.add m b) fun _ => addAll m rest

/-- The second loop. A later entry of the plan with the same key replaces an earlier one. -/
def distribute (plan : List (String × List SharedBan)) : List Member → Nat → String →
    Prog Stmt Stmt.Result (Nat × String)
  | [], propagated, log => .done (propagated, log)
  | m :: rest, propagated, log =>
      match plan.reverse.lookup m.key with
      | none => distribute plan rest propagated log
      | some [] => distribute plan rest propagated log
      | some missing =>
          (addAll m missing).bind fun
            | .ok _ => distribute plan rest (propagated + missing.length)
                (log ++ m.label ++ ": added " ++ toString missing.length ++ " shared bans\n")
            | .error e => distribute plan rest propagated
                (log ++ m.label ++ ": push failed (" ++ e ++ ")\n")

/-- `fleet_sync_given`. -/
def fleetSyncGiven (fleet : List Member) : Prog Stmt Stmt.Result FleetSyncOut :=
  (gather ipAddr fleet [] "").bind fun read =>
    (distribute (planFleetAdditions read.1) fleet 0 read.2).bind fun pushed =>
      .done { servers := read.1.length, propagated := pushed.1, log := pushed.2 }

end Pass

end Sentinel.Servers
