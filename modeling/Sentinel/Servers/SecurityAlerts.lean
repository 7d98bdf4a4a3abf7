import Sentinel.Lib.Snapshot
import Sentinel.Servers.Config

/-!
# Alerts about new CrowdSec bans

The last part of `watchdog_tick` in `servers.rs`: with security alerts on, every protected
server that can be reached is asked for its decisions, and the ids that were not in its last
answer are announced. `CROWDSEC_SEEN` keeps one set of ids for each server, replaced by every
answer, and a `cscli` that fails is asked in a way that prints `[]`.

`serde_json::from_str` is a parameter, of which only the reading of `[]` is known. A
decision keeps its id in the announcement, where the source passes on the other two fields.
-/

namespace Sentinel.Servers

/-! ## Decisions -/

/-- `serde_json::Value`; a number is an integer or a float. -/
inductive Value where
  | null
  | bool (b : Bool)
  | int (n : ℤ)
  | float (text : String)
  | string (s : String)
  | array (values : List Value)
  | object (fields : List (String × Value))

namespace Value

def get : Value → String → Option Value
  | object fields, key => fields.lookup key
  | _, _ => none

def asStr : Value → Option String
  | string s => some s
  | _ => none

def asI64 : Value → Option ℤ
  | int n => if -2 ^ 63 ≤ n ∧ n < 2 ^ 63 then some n else none
  | _ => none

def asArray : Value → Option (List Value)
  | array values => some values
  | _ => none

end Value

/-- `serde_json::from_str`, `none` for an error. -/
structure SerdeJson where
  fromStr : String → Option Value
  fromStr_empty : fromStr "[]" = some (.array [])

/-- What `active_bans` returns of a decision. -/
structure ActiveBan where
  id : ℤ
  sourceIp : String
  scenario : String
  deriving DecidableEq, Repr

/-- The loop of `parse_decisions` over the decisions of one alert, where `src` is the value
of the alert's source. -/
def parseDecision (src : String) (d : Value) : ActiveBan where
  id := ((d.get "id").bind Value.asI64).getD 0
  sourceIp := ((d.get "value").bind Value.asStr).getD src
  scenario := ((d.get "scenario").bind Value.asStr).getD ""

def parseAlert (a : Value) : List ActiveBan :=
  let src := (((a.get "source").bind fun s => s.get "value").bind Value.asStr).getD ""
  (((a.get "decisions").bind Value.asArray).getD []).map (parseDecision src)

/-- `parse_decisions`, the fields that `active_bans` reads. -/
def parseDecisions (json : SerdeJson) (text : String) : List ActiveBan :=
  match json.fromStr (Api.trim text) with
  | none => []
  | some v =>
      match v.asArray with
      | none => []
      | some alerts => alerts.flatMap parseAlert

/-- How `cscli decisions list -o json` ends. -/
inductive Cscli where
  | prints (text : String)
  | fails
  deriving DecidableEq, Repr

/-- The output of `cscli decisions list -o json 2>/dev/null || echo '[]'`. -/
def Cscli.stdout : Cscli → String
  | prints text => text
  | fails => "[]\n"

/-- `active_bans`, of what comes back over SSH. -/
def activeBans (json : SerdeJson) (exec : Except String Cscli) : Except String (List ActiveBan) :=
  match exec with
  | .ok cscli => .ok (parseDecisions json cscli.stdout)
  | .error e => .error e

/-! ## The tick -/

/-- `CROWDSEC_SEEN`. -/
abbrev CrowdsecSeen := AList fun _ : String => List ℤ

/-- `crowdsec_seen_new`. -/
def crowdsecSeenNew (seen : CrowdsecSeen) (key : String) (current : List ActiveBan) :
    List ActiveBan × CrowdsecSeen :=
  let ids := current.map ActiveBan.id
  let fresh :=
    match seen.lookup key with
    | none => []
    | some last => current.filter fun b => decide (b.id ∉ last)
  (fresh, seen.insert key ids)

/-- The two providers of `watchdog_tick`. -/
inductive FleetProvider where
  | linode | hetzner
  deriving DecidableEq, Repr

def FleetProvider.name : FleetProvider → String
  | linode => "linode"
  | hetzner => "hetzner"

/-- A server of a listing, with what the tick finds: whether CrowdSec protects it, and what
comes back of the command. -/
structure FleetServer where
  id : String
  label : String
  ipv4 : Option String
  isProtected : Bool
  exec : Except String Cscli

/-- The `servers:alert` of kind `security`. -/
structure SecurityAlert where
  key : String
  label : String
  ban : ActiveBan
  deriving DecidableEq, Repr

def SecurityAlert.message (a : SecurityAlert) : String :=
  a.label ++ ": blocked " ++ a.ban.sourceIp ++ " (" ++ a.ban.scenario ++ ")"

/-- The body of the loop. -/
def securityVisit (json : SerdeJson) (seen : CrowdsecSeen) (provider : FleetProvider)
    (info : FleetServer) : List SecurityAlert × CrowdsecSeen :=
  if !info.isProtected then ([], seen)
  else
    match info.ipv4 with
    | none => ([], seen)
    | some _ =>
        match activeBans json info.exec with
        | .error _ => ([], seen)
        | .ok bans =>
            let key := netdataKey provider.name info.id
            let (fresh, seen) := crowdsecSeenNew seen key bans
            (fresh.map fun b => { key := key, label := info.label, ban := b }, seen)

/-- What a tick reads: the setting, and the listings that succeeded. -/
structure SecurityTick where
  securityAlerts : Bool
  fleets : List (FleetProvider × List FleetServer)

/-- The servers that the two loops visit. -/
def SecurityTick.visits (t : SecurityTick) : List (FleetProvider × FleetServer) :=
  if t.securityAlerts then t.fleets.flatMap fun (provider, list) => list.map (provider, ·) else []

def securityVisits (json : SerdeJson) : CrowdsecSeen → List (FleetProvider × FleetServer) →
    List SecurityAlert × CrowdsecSeen
  | seen, [] => ([], seen)
  | seen, (provider, info) :: rest =>
      let (alerts, seen) := securityVisit json seen provider info
      let (more, seen) := securityVisits json seen rest
      (alerts ++ more, seen)

/-- The security alerts of the poller, from its start. -/
def securityRun (json : SerdeJson) : CrowdsecSeen → List SecurityTick → List SecurityAlert
  | _, [] => []
  | seen, t :: ts =>
      let (alerts, seen) := securityVisits json seen t.visits
      alerts ++ securityRun json seen ts

/-! ## The answers of one server -/

/-- An answer: whether it is a listing, and the ids it is read as. -/
structure Reading where
  listed : Bool
  ids : List ℤ
  deriving DecidableEq, Repr

/-- A listing is the output of a `cscli` that succeeded, and it is JSON. -/
def Cscli.listed (json : SerdeJson) : Cscli → Bool
  | prints text => (json.fromStr (Api.trim text)).isSome
  | fails => false

def Cscli.reading (json : SerdeJson) (c : Cscli) : Reading where
  listed := c.listed json
  ids := (parseDecisions json c.stdout).map ActiveBan.id

/-- The answer of a server that is asked and can be reached. -/
def FleetServer.reading (json : SerdeJson) (info : FleetServer) : Option Reading :=
  if info.isProtected ∧ info.ipv4.isSome then
    match info.exec with
    | .ok c => some (c.reading json)
    | .error _ => none
  else none

/-- The answers of the server `id` of the provider, among these visits. -/
def visitAnswers (json : SerdeJson) (provider : FleetProvider) (id : String)
    (visits : List (FleetProvider × FleetServer)) : List Reading :=
  visits.filterMap fun v => if v.1 = provider ∧ v.2.id = id then v.2.reading json else none

/-- Its answers over a run. -/
def answers (json : SerdeJson) (provider : FleetProvider) (id : String) (ts : List SecurityTick) :
    List Reading :=
  visitAnswers json provider id (ts.flatMap SecurityTick.visits)

/-- The ids of that server's announcements. -/
def announced (provider : FleetProvider) (id : String) (alerts : List SecurityAlert) : List ℤ :=
  (alerts.filter fun a => decide (a.key = netdataKey provider.name id)).map fun a => a.ban.id

theorem netdataKey_inj {p p' : FleetProvider} {id id' : String} :
    netdataKey p.name id = netdataKey p'.name id' ↔ p = p' ∧ id = id' := by
  constructor
  · intro same
    have chars := congrArg String.toList same
    cases p <;> cases p' <;>
      simp [netdataKey, FleetProvider.name, String.toList_inj] at chars
    all_goals exact ⟨rfl, chars⟩
  · rintro ⟨rfl, rfl⟩
    rfl

@[simp] theorem announced_append (provider : FleetProvider) (id : String)
    (alerts more : List SecurityAlert) : announced provider id (alerts ++ more) =
      announced provider id alerts ++ announced provider id more := by
  simp [announced]

/-- An answer that is no listing is read as empty. -/
theorem Cscli.ids_of_not_listed {json : SerdeJson} {c : Cscli} (failed : c.listed json = false) :
    (c.reading json).ids = [] := by
  cases c with
  | prints text =>
      have none_ : json.fromStr (Api.trim text) = none := by
        simpa [Cscli.listed] using failed
      simp [Cscli.reading, Cscli.stdout, parseDecisions, none_]
  | fails =>
      have empty : Api.trim "[]\n" = "[]" := by decide
      simp [Cscli.reading, Cscli.stdout, parseDecisions, empty, json.fromStr_empty, Value.asArray]

theorem answers_not_listed {json : SerdeJson} {provider : FleetProvider} {id : String}
    {ts : List SecurityTick} {r : Reading} (mem : r ∈ answers json provider id ts)
    (failed : r.listed = false) : r.ids = [] := by
  rw [answers, visitAnswers, List.mem_filterMap] at mem
  obtain ⟨v, -, reads⟩ := mem
  split at reads
  · rw [FleetServer.reading] at reads
    split at reads
    · split at reads
      · cases reads
        exact Cscli.ids_of_not_listed failed
      · cases reads
    · cases reads
  · cases reads

/-! ## What a run announces -/

/-- What is left of a visit where no answer comes. -/
theorem securityVisit_of_none {json : SerdeJson} {info : FleetServer}
    (silent : info.reading json = none) (seen : CrowdsecSeen) (provider : FleetProvider) :
    securityVisit json seen provider info = ([], seen) := by
  unfold securityVisit activeBans
  unfold FleetServer.reading at silent
  cases protects : info.isProtected with
  | false => rfl
  | true =>
      cases ip : info.ipv4 with
      | none => rfl
      | some host =>
          cases ran : info.exec with
          | error e => rfl
          | ok c => simp [protects, ip, ran] at silent

/-- An answered visit announces what the answer has over the last one, and the answer becomes
the last. -/
theorem securityVisit_of_some {json : SerdeJson} {info : FleetServer} {r : Reading}
    (answered : info.reading json = some r) (seen : CrowdsecSeen) (provider : FleetProvider) :
    ∃ bans : List ActiveBan, bans.map ActiveBan.id = r.ids ∧
      securityVisit json seen provider info =
        ((crowdsecSeenNew seen (netdataKey provider.name info.id) bans).1.map fun b =>
            { key := netdataKey provider.name info.id, label := info.label, ban := b },
          seen.insert (netdataKey provider.name info.id) r.ids) := by
  unfold securityVisit activeBans
  unfold FleetServer.reading at answered
  cases protects : info.isProtected with
  | false => simp [protects] at answered
  | true =>
      cases ip : info.ipv4 with
      | none => simp [ip] at answered
      | some host =>
          cases ran : info.exec with
          | error e => simp [ran] at answered
          | ok c =>
              have read : c.reading json = r := by
                simpa [protects, ip, ran] using answered
              subst read
              exact ⟨parseDecisions json c.stdout, rfl, rfl⟩

/-- The ids of `crowdsec_seen_new` are the arrivals of one more answer. -/
theorem map_id_crowdsecSeenNew (seen : CrowdsecSeen) (key : String) (current : List ActiveBan) :
    (crowdsecSeenNew seen key current).1.map ActiveBan.id =
      Snapshot.arrivals (seen.lookup key) [current.map ActiveBan.id] := by
  cases last : seen.lookup key with
  | none => simp [crowdsecSeenNew, last]
  | some ids =>
      simp [crowdsecSeenNew, last, Snapshot.arrivals_some, List.filter_map, Function.comp_def]

section Run

variable (json : SerdeJson) (provider : FleetProvider) (id : String)

/-- The last answer that is kept after these answers. -/
def lastIds (seen : Option (List ℤ)) (rs : List Reading) : Option (List ℤ) :=
  (rs.getLast?.map Reading.ids).or seen

theorem arrivals_append (seen : Option (List ℤ)) (rs rs' : List Reading) :
    Snapshot.arrivals seen ((rs ++ rs').map Reading.ids) =
      Snapshot.arrivals seen (rs.map Reading.ids) ++
        Snapshot.arrivals (lastIds seen rs) (rs'.map Reading.ids) := by
  induction rs generalizing seen with
  | nil => simp [lastIds]
  | cons r rs ih =>
      have last : lastIds seen (r :: rs) = lastIds (some r.ids) rs := by
        cases rs <;> simp [lastIds, List.getLast?_cons]
      cases seen with
      | none => simpa [last] using ih (some r.ids)
      | some ids => simpa [last, Snapshot.arrivals_some] using ih (some r.ids)

theorem lastIds_append (seen : Option (List ℤ)) (rs rs' : List Reading) :
    lastIds seen (rs ++ rs') = lastIds (lastIds seen rs) rs' := by
  rw [lastIds, List.getLast?_append, Option.map_or, Option.or_assoc]
  rfl

theorem visitAnswers_append (visits more : List (FleetProvider × FleetServer)) :
    visitAnswers json provider id (visits ++ more) =
      visitAnswers json provider id visits ++ visitAnswers json provider id more :=
  List.filterMap_append ..

/-- A visit, for one server. -/
theorem securityVisit_spec (seen : CrowdsecSeen) (v : FleetProvider × FleetServer) :
    announced provider id (securityVisit json seen v.1 v.2).1 =
        Snapshot.arrivals (seen.lookup (netdataKey provider.name id))
          ((visitAnswers json provider id [v]).map Reading.ids) ∧
      (securityVisit json seen v.1 v.2).2.lookup (netdataKey provider.name id) =
        lastIds (seen.lookup (netdataKey provider.name id))
          (visitAnswers json provider id [v]) := by
  obtain ⟨p, info⟩ := v
  cases answer : info.reading json with
  | none =>
      rw [securityVisit_of_none answer]
      simp [visitAnswers, answer, announced, lastIds]
  | some r =>
      obtain ⟨bans, ids, visit⟩ := securityVisit_of_some answer seen p
      rw [visit]
      by_cases own : p = provider ∧ info.id = id
      · obtain ⟨rfl, rfl⟩ := own
        have news := map_id_crowdsecSeenNew seen (netdataKey p.name info.id) bans
        rw [ids] at news
        simpa [visitAnswers, answer, announced, lastIds, List.filter_map, Function.comp_def]
          using news
      · have other : netdataKey p.name info.id ≠ netdataKey provider.name id :=
          fun same => own (netdataKey_inj.mp same)
        simp [visitAnswers, own, announced, lastIds, List.filter_map, Function.comp_def, other,
          AList.lookup_insert_ne other.symm]

theorem securityVisits_spec (seen : CrowdsecSeen) (visits : List (FleetProvider × FleetServer)) :
    announced provider id (securityVisits json seen visits).1 =
        Snapshot.arrivals (seen.lookup (netdataKey provider.name id))
          ((visitAnswers json provider id visits).map Reading.ids) ∧
      (securityVisits json seen visits).2.lookup (netdataKey provider.name id) =
        lastIds (seen.lookup (netdataKey provider.name id))
          (visitAnswers json provider id visits) := by
  induction visits generalizing seen with
  | nil => simp [securityVisits, visitAnswers, announced, lastIds]
  | cons v rest ih =>
      have parts : visitAnswers json provider id (v :: rest) =
          visitAnswers json provider id [v] ++ visitAnswers json provider id rest :=
        visitAnswers_append json provider id [v] rest
      obtain ⟨news, kept⟩ := securityVisit_spec json provider id seen v
      obtain ⟨more, last⟩ := ih (securityVisit json seen v.1 v.2).2
      rw [kept] at more last
      refine ⟨?_, ?_⟩
      · rw [parts, arrivals_append, ← news, ← more, ← announced_append]
        rfl
      · rw [parts, lastIds_append]
        exact last

/-- The announcements for a server are the arrivals of its answers. -/
theorem announced_securityRun (seen : CrowdsecSeen) (ts : List SecurityTick) :
    announced provider id (securityRun json seen ts) =
      Snapshot.arrivals (seen.lookup (netdataKey provider.name id))
        ((answers json provider id ts).map Reading.ids) := by
  induction ts generalizing seen with
  | nil => simp [securityRun, answers, visitAnswers, announced]
  | cons t ts ih =>
      have parts : answers json provider id (t :: ts) =
          visitAnswers json provider id t.visits ++ answers json provider id ts := by
        rw [answers, List.flatMap_cons, visitAnswers_append]
        rfl
      obtain ⟨news, kept⟩ := securityVisits_spec json provider id seen t.visits
      rw [parts, arrivals_append, ← news, ← kept, ← ih, ← announced_append]
      rfl

end Run

/-! ## At most once -/

/-- Every decision of the server is announced at most once, and those of its first listing
never. -/
def AnnouncedOnce (json : SerdeJson) (provider : FleetProvider) (id : String)
    (ts : List SecurityTick) : Prop :=
  ∀ i : ℤ, (announced provider id (securityRun json ∅ ts)).count i ≤ 1 ∧
    ∀ first ∈ (answers json provider id ts).find? Reading.listed,
      i ∈ first.ids → i ∉ announced provider id (securityRun json ∅ ts)

/-- What the answers of a server have to be for that: it is listed at its first answer, or
the first listing is empty; an id that is missing from an answer after it was read is not read
again; and an id that the first answer does not have comes once in the first that has it. -/
structure Steady (rs : List Reading) : Prop where
  seeded : ∀ first ∈ rs.find? Reading.listed, ∀ r ∈ rs.head?, r.listed = true ∨ first.ids = []
  stays : ∀ i, Snapshot.NeverReturns i (rs.map Reading.ids)
  single : ∀ r ∈ rs.head?, ∀ i ∉ r.ids, Snapshot.ArrivesOnce i (rs.map Reading.ids)

/-- Announced once exactly if the answers are steady. -/
theorem announcedOnce_iff (json : SerdeJson) (provider : FleetProvider) (id : String)
    (ts : List SecurityTick) :
    AnnouncedOnce json provider id ts ↔ Steady (answers json provider id ts) := by
  have unlisted : ∀ r ∈ answers json provider id ts, r.listed = false → r.ids = [] :=
    fun r mem => answers_not_listed mem
  rw [AnnouncedOnce, announced_securityRun, AList.lookup_empty]
  generalize answers json provider id ts = rs at unlisted
  cases rs with
  | nil =>
      simp only [List.map_nil, Snapshot.arrivals_nil, List.count_nil, List.find?_nil]
      exact ⟨fun _ => ⟨by simp, fun _ => .nil, by simp⟩, fun _ i => ⟨Nat.zero_le 1, by simp⟩⟩
  | cons r rs =>
      have seeds : ∀ i ∈ r.ids, (r :: rs).find? Reading.listed = some r := by
        intro i mem
        refine List.find?_cons_of_pos ?_
        by_contra failed
        rw [unlisted r List.mem_cons_self (by simpa using failed)] at mem
        cases mem
      rw [List.map_cons]
      constructor
      · intro once
        refine ⟨?_, ?_, ?_⟩
        · rintro first listed _ ⟨⟩
          by_contra neither
          rw [not_or, Bool.not_eq_true] at neither
          obtain ⟨failed, nonempty⟩ := neither
          obtain ⟨i, mem⟩ := List.exists_mem_of_ne_nil _ nonempty
          have new : i ∉ r.ids := by
            simp [unlisted r List.mem_cons_self failed]
          have later : first ∈ rs := by
            rw [List.find?_cons_of_neg (by simp [failed])] at listed
            exact List.mem_of_find?_eq_some listed
          have silent := (once i).2 first listed mem
          rw [Snapshot.arrivals_none, Snapshot.not_mem_arrivals_of_not_mem new] at silent
          exact silent first.ids (List.mem_map_of_mem later) mem
        · intro i
          by_cases mem : i ∈ r.ids
          · exact (Snapshot.not_mem_arrivals_iff mem).mp ((once i).2 r (seeds i mem) mem)
          · exact ((Snapshot.count_arrivals_le_one_iff mem).mp (once i).1).1
        · rintro _ ⟨⟩ i new
          exact ((Snapshot.count_arrivals_le_one_iff new).mp (once i).1).2
      · rintro ⟨seeded, stays, single⟩ i
        by_cases mem : i ∈ r.ids
        · have silent := (Snapshot.not_mem_arrivals_iff mem).mpr (stays i)
          refine ⟨?_, fun _ _ _ => silent⟩
          rw [List.count_eq_zero_of_not_mem silent]
          exact Nat.zero_le 1
        · refine ⟨(Snapshot.count_arrivals_le_one_iff mem).mpr ⟨stays i, single r rfl i mem⟩, ?_⟩
          intro first listed there
          obtain now | empty := seeded first listed r rfl
          · rw [List.find?_cons_of_pos now] at listed
            cases listed
            exact absurd there mem
          · rw [empty] at there
            cases there

/-! ## A ban announced twice -/

/-- A decoder of the outputs below. -/
def sampleJson : SerdeJson where
  fromStr text :=
    if text = "[]" then some (.array [])
    else if text = "[\x7b\"decisions\":[\x7b\"id\":1,\"value\":\"203.0.113.7\"\x7d]\x7d]" then
      some (.array [.object [("decisions",
        .array [.object [("id", .int 1), ("value", .string "203.0.113.7")]])]])
    else none
  fromStr_empty := rfl

/-- The output with the one decision. -/
def oneDecision : String :=
  "[\x7b\"decisions\":[\x7b\"id\":1,\"value\":\"203.0.113.7\"\x7d]\x7d]\n"

/-- A tick that finds one server, whose `cscli` ends so. -/
def sampleTick (c : Cscli) : SecurityTick where
  securityAlerts := true
  fleets := [(.linode, [{ id := "7", label := "web", ipv4 := some "192.0.2.1", isProtected := true
                          exec := .ok c }])]

/-- One failing `cscli` between two listings with the same ban: it is announced, though it was
there when the server was first listed. -/
theorem failing_cscli_announces :
    ¬ AnnouncedOnce sampleJson .linode "7"
      [sampleTick (.prints oneDecision), sampleTick .fails, sampleTick (.prints oneDecision)] := by
  intro once
  have never := (once 1).2 ⟨true, [1]⟩ (by decide +kernel) (by decide)
  revert never
  decide +kernel

end Sentinel.Servers
