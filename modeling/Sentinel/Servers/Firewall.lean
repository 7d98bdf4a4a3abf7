import Sentinel.Vault.Matching
import Sentinel.Api.Handler

/-!
# Opening a port of a Hetzner firewall

`servers_firewall_allow_port` of `servers.rs` with the `/firewalls` calls of
`cloud/hetzner.rs`. Hetzner replaces the whole rule set of a firewall at once, so the command
reads the rules and sends them back with one more; a server without a firewall gets a new one.

What Hetzner makes of the port and the networks in a rule is `Semantics`. A server with no
firewall takes all inbound traffic, any other what a rule of one of its firewalls lists.
-/

namespace Sentinel.Servers

/-- `FirewallRule`. -/
structure FirewallRule where
  direction : String
  protocol : String
  port : Option String
  sourceIps : List String
  destinationIps : List String
  description : Option String
  deriving DecidableEq, Repr

/-- What a firewall is applied to: a server, or the servers that a label selects. -/
inductive AppliedTo where
  | server (id : Nat)
  | labelSelector (servers : List Nat)
  deriving DecidableEq, Repr

/-- A firewall at Hetzner. -/
structure CloudFirewall where
  id : Nat
  name : String
  rules : List FirewallRule
  appliedTo : List AppliedTo
  deriving DecidableEq, Repr

/-- `Firewall` of the client. -/
structure Firewall where
  id : Nat
  name : String
  rules : List FirewallRule
  appliedServerIds : List Nat
  deriving DecidableEq, Repr

def AppliedTo.serverId : AppliedTo → Option Nat
  | server id => some id
  | labelSelector _ => none

def AppliedTo.covers (server : Nat) : AppliedTo → Bool
  | .server id => id == server
  | labelSelector servers => servers.contains server

def CloudFirewall.covers (f : CloudFirewall) (server : Nat) : Bool :=
  f.appliedTo.any (AppliedTo.covers server)

/-- An entry of `parse_firewalls`: of what a firewall is applied to it keeps the servers. -/
def CloudFirewall.listed (f : CloudFirewall) : Firewall where
  id := f.id
  name := f.name
  rules := f.rules
  appliedServerIds := f.appliedTo.filterMap AppliedTo.serverId

/-- The firewalls of an account, in the order of the listing. -/
structure Account where
  firewalls : List CloudFirewall
  nodup : (firewalls.map CloudFirewall.id).Nodup

namespace Account

/-- The servers' firewalls. -/
def attached (acct : Account) (server : Nat) : List CloudFirewall :=
  acct.firewalls.filter fun f => f.covers server

/-- `GET /firewalls?per_page=50`. -/
def page (acct : Account) : List Firewall := (acct.firewalls.take 50).map CloudFirewall.listed

/-- `POST /firewalls/{id}/actions/set_rules`. -/
def setRules (acct : Account) (id : Nat) (rules : List FirewallRule) : Account where
  firewalls := acct.firewalls.map fun f => if f.id = id then { f with rules := rules } else f
  nodup := by
    have same : (acct.firewalls.map fun f => if f.id = id then { f with rules := rules } else f).map
        CloudFirewall.id = acct.firewalls.map CloudFirewall.id := by
      rw [List.map_map]
      refine List.map_congr_left fun f _ => ?_
      by_cases hit : f.id = id <;> simp [hit]
    rw [same]
    exact acct.nodup

/-- An id that no firewall has. -/
def newId (acct : Account) : Nat := (acct.firewalls.map CloudFirewall.id).sum + 1

/-- `POST /firewalls`, applied to a server. -/
def create (acct : Account) (name : String) (rules : List FirewallRule) (server : Nat) :
    Account where
  firewalls := acct.firewalls ++ [⟨acct.newId, name, rules, [.server server]⟩]
  nodup := by
    rw [List.map_append, List.nodup_append]
    refine ⟨acct.nodup, List.nodup_singleton _, ?_⟩
    intro id mem new there same
    have fresh : new = acct.newId := List.mem_singleton.mp there
    have le := List.le_sum_of_mem mem
    rw [same, fresh, newId] at le
    omega

end Account

/-! ## The command -/

/-- How a changing call ends: a failed one may have taken effect. -/
inductive Outcome where
  | ok
  | error (e : String) (done : Bool)
  deriving DecidableEq, Repr

/-- What the keychain and the network do for one command. -/
structure Calls where
  token : Bool
  list : Option String
  change : Outcome
  deriving DecidableEq, Repr

def Outcome.result : Outcome → Except String Unit
  | ok => .ok ()
  | error e _ => .error e

def Outcome.done : Outcome → Bool
  | ok => true
  | error _ done => done

/-- `str::parse::<u64>`. -/
def parseU64 (text : String) : Option Nat :=
  let digits := if text.toList.head? = some '+' then text.toList.drop 1 else text.toList
  if digits.isEmpty || !digits.all Char.isDigit then none
  else
    let n := Nat.ofDigitChars 10 digits 0
    if n < 2 ^ 64 then some n else none

/-- `hetzner_firewall_for`, the firewall it finds. -/
def hetznerFirewallFor (calls : Calls) (acct : Account) (server : Nat) :
    Except String (Option Firewall) :=
  if !calls.token then .error "No Hetzner token is set."
  else
    match calls.list with
    | some e => .error e
    | none => .ok (acct.page.find? fun f => f.appliedServerIds.contains server)

/-- Whether the source is every address. -/
def anySource (source : String) : Bool :=
  decide (Vault.asciiLower (Api.trim source) = "any") || decide (Api.trim source = "")

def sourceNetworks (source : String) : List String :=
  if anySource source then ["0.0.0.0/0", "::/0"] else [Api.trim source]

def newRule (port : UInt16) (source : String) : FirewallRule where
  direction := "in"
  protocol := "tcp"
  port := some (toString port.toNat)
  sourceIps := sourceNetworks source
  destinationIps := []
  description := some ("NorthKey: port " ++ toString port.toNat)

/-- Already admitted from these exact sources? -/
def already (f : Firewall) (port : UInt16) (source : String) : Bool :=
  f.rules.any fun r =>
    decide (r.direction = "in") && decide (r.protocol = "tcp") &&
      decide (r.port = some (toString port.toNat)) &&
        (sourceNetworks source).all fun ip => r.sourceIps.contains ip

/-- `servers_firewall_allow_port`. -/
def serversFirewallAllowPort (calls : Calls) (acct : Account) (provider id : String)
    (port : UInt16) (source : String) : Except String Unit × Account :=
  if provider ≠ "hetzner" then
    (.error "Firewall management is available for Hetzner servers.", acct)
  else
    match parseU64 id with
    | none => (.error "bad server id", acct)
    | some server =>
        match hetznerFirewallFor calls acct server with
        | .error e => (.error e, acct)
        | .ok (some f) =>
            if already f port source then (.ok (), acct)
            else
              let acct' := acct.setRules f.id (f.rules ++ [newRule port source])
              (calls.change.result, if calls.change.done then acct' else acct)
        | .ok none =>
            let acct' := acct.create ("northkey-" ++ toString port.toNat) [newRule port source]
              server
            (calls.change.result, if calls.change.done then acct' else acct)

/-! ## What Hetzner admits -/

inductive Address where
  | v4 (bits : BitVec 32)
  | v6 (bits : BitVec 128)
  deriving DecidableEq, Repr

/-- An inbound connection; only some protocols have ports. -/
structure Connection where
  protocol : String
  port : Option Nat
  source : Address
  deriving DecidableEq, Repr

/-- How Hetzner reads the port and the networks of a rule. -/
structure Semantics where
  portAdmits : String → Nat → Bool
  network : String → Address → Bool
  port_single : ∀ port : UInt16, portAdmits (toString port.toNat) port.toNat = true
  network_v4 : ∀ bits, network "0.0.0.0/0" (.v4 bits) = true
  network_v6 : ∀ bits, network "::/0" (.v6 bits) = true

section Admission

variable (S : Semantics)

def FirewallRule.admits (r : FirewallRule) (c : Connection) : Bool :=
  decide (r.direction = "in") && decide (r.protocol = c.protocol) &&
    (match r.port, c.port with
      | none, _ => true
      | some text, some port => S.portAdmits text port
      | some _, none => false) &&
    r.sourceIps.any fun ip => S.network ip c.source

def CloudFirewall.admits (f : CloudFirewall) (c : Connection) : Bool :=
  f.rules.any fun r => r.admits S c

/-- A server with no firewall takes all inbound traffic. -/
def Account.admits (acct : Account) (server : Nat) (c : Connection) : Bool :=
  (acct.attached server).isEmpty || (acct.attached server).any fun f => f.admits S c

/-- The connections the command is asked to admit. -/
def requested (port : UInt16) (source : String) (c : Connection) : Bool :=
  decide (c.protocol = "tcp") && decide (c.port = some port.toNat) &&
    (anySource source || S.network (Api.trim source) c.source)

/-- What was admitted still is, and so is what was asked for. -/
def OnlyOpens (server : Nat) (port : UInt16) (source : String) (before after : Account) : Prop :=
  (∀ c, before.admits S server c → after.admits S server c) ∧
    ∀ c, requested S port source c → after.admits S server c

/-! ## The rules of one firewall -/

variable {S} {server : Nat} {port : UInt16} {source : String} {c : Connection}

/-- One address of the networks suffices. -/
theorem sourceNetworks_admit (asked : requested S port source c = true) :
    ∃ ip ∈ sourceNetworks source, S.network ip c.source = true := by
  simp only [requested, Bool.and_eq_true, Bool.or_eq_true] at asked
  obtain ⟨-, from_⟩ := asked
  by_cases any : anySource source = true
  · rw [sourceNetworks, if_pos any]
    cases c.source with
    | v4 bits => exact ⟨"0.0.0.0/0", by simp, S.network_v4 bits⟩
    | v6 bits => exact ⟨"::/0", by simp, S.network_v6 bits⟩
  · rw [sourceNetworks, if_neg any]
    exact ⟨_, List.mem_singleton_self _, from_.resolve_left any⟩

/-- An inbound TCP rule for the port with these networks admits what is asked for. -/
theorem admits_of_requested {r : FirewallRule} (inbound : r.direction = "in")
    (tcp : r.protocol = "tcp") (single : r.port = some (toString port.toNat))
    (networks : ∀ ip ∈ sourceNetworks source, ip ∈ r.sourceIps)
    (asked : requested S port source c = true) : r.admits S c = true := by
  obtain ⟨ip, mem, covers⟩ := sourceNetworks_admit asked
  simp only [requested, Bool.and_eq_true, decide_eq_true_eq] at asked
  obtain ⟨⟨protocol, dest⟩, -⟩ := asked
  simp only [FirewallRule.admits, inbound, tcp, protocol, single, dest, S.port_single,
    decide_true, Bool.true_and]
  exact List.any_eq_true.mpr ⟨ip, networks ip mem, covers⟩

theorem newRule_admits (asked : requested S port source c = true) :
    (newRule port source).admits S c = true := by
  have networks : ∀ ip ∈ sourceNetworks source, ip ∈ (newRule port source).sourceIps := by
    simp only [newRule]
    exact fun _ mem => mem
  exact admits_of_requested (by simp only [newRule]) (by simp only [newRule])
    (by simp only [newRule]) networks asked

theorem admits_of_already {f : CloudFirewall} (there : already f.listed port source = true)
    (asked : requested S port source c = true) : f.admits S c = true := by
  obtain ⟨r, mem, same⟩ := List.any_eq_true.mp there
  simp only [Bool.and_eq_true, decide_eq_true_eq, List.all_eq_true, List.contains_iff_mem] at same
  obtain ⟨⟨⟨inbound, tcp⟩, single⟩, networks⟩ := same
  exact List.any_eq_true.mpr ⟨r, mem, admits_of_requested inbound tcp single networks asked⟩

/-- Without a firewall everything is admitted. -/
theorem admits_of_attached_nil {acct : Account} (none_ : acct.attached server = []) :
    acct.admits S server c = true := by
  simp [Account.admits, none_]

theorem admits_iff_of_attached {acct : Account} {f : CloudFirewall}
    (mem : f ∈ acct.attached server) :
    acct.admits S server c = true ↔ ∃ f ∈ acct.attached server, f.admits S c = true := by
  have nonempty : (acct.attached server).isEmpty = false := by
    rw [List.isEmpty_eq_false_iff]
    exact List.ne_nil_of_mem mem
  simp [Account.admits, nonempty]

theorem mem_attached {acct : Account} {f : CloudFirewall} :
    f ∈ acct.attached server ↔ f ∈ acct.firewalls ∧ f.covers server = true :=
  List.mem_filter

/-! ## The changes of an account -/

/-- The firewall that the command finds is one of the account, and it is applied to the
server. -/
theorem exists_of_hetznerFirewallFor {calls : Calls} {acct : Account} {f : Firewall}
    (found : hetznerFirewallFor calls acct server = .ok (some f)) :
    ∃ g ∈ acct.attached server, f = g.listed := by
  unfold hetznerFirewallFor at found
  split at found
  · cases found
  · split at found
    · cases found
    · injection found with found
      have applied := List.find?_some found
      obtain ⟨g, mem, rfl⟩ := List.mem_map.mp (List.mem_of_find?_eq_some found)
      refine ⟨g, mem_attached.mpr ⟨List.mem_of_mem_take mem, ?_⟩, rfl⟩
      rw [List.contains_iff_mem, CloudFirewall.listed, List.mem_filterMap] at applied
      obtain ⟨a, there, id⟩ := applied
      refine List.any_eq_true.mpr ⟨a, there, ?_⟩
      cases a with
      | server id' =>
          cases id
          exact beq_self_eq_true _
      | labelSelector servers => cases id

/-- Rules are only added, to the one firewall with the id. -/
theorem onlyOpens_setRules {acct : Account} {f : CloudFirewall} (mem : f ∈ acct.attached server) :
    OnlyOpens S server port source acct
      (acct.setRules f.id (f.rules ++ [newRule port source])) := by
  have target : { f with rules := f.rules ++ [newRule port source] } ∈
      (acct.setRules f.id (f.rules ++ [newRule port source])).attached server := by
    obtain ⟨there, covers⟩ := mem_attached.mp mem
    refine mem_attached.mpr ⟨List.mem_map.mpr ⟨f, there, ?_⟩, covers⟩
    simp
  refine ⟨fun c before => ?_, fun c asked => ?_⟩
  · obtain ⟨g, memG, admits⟩ := (admits_iff_of_attached mem).mp before
    rw [admits_iff_of_attached target]
    by_cases same : g.id = f.id
    · obtain ⟨thereG, -⟩ := mem_attached.mp memG
      obtain ⟨there, -⟩ := mem_attached.mp mem
      have eq : g = f := List.inj_on_of_nodup_map acct.nodup thereG there same
      subst eq
      refine ⟨_, target, ?_⟩
      rw [CloudFirewall.admits, List.any_append]
      exact Bool.or_eq_true_iff.mpr (.inl admits)
    · obtain ⟨thereG, coversG⟩ := mem_attached.mp memG
      refine ⟨g, mem_attached.mpr ⟨List.mem_map.mpr ⟨g, thereG, if_neg same⟩, coversG⟩, admits⟩
  · rw [admits_iff_of_attached target]
    refine ⟨_, target, ?_⟩
    rw [CloudFirewall.admits, List.any_append]
    refine Bool.or_eq_true_iff.mpr (.inr ?_)
    simpa using newRule_admits asked

theorem onlyOpens_of_already {acct : Account} {f : CloudFirewall}
    (mem : f ∈ acct.attached server) (there : already f.listed port source = true) :
    OnlyOpens S server port source acct acct :=
  ⟨fun _ before => before, fun _ asked =>
    (admits_iff_of_attached mem).mpr ⟨f, mem, admits_of_already there asked⟩⟩

theorem attached_create (acct : Account) (name : String) (rules : List FirewallRule) :
    (acct.create name rules server).attached server =
      acct.attached server ++ [⟨acct.newId, name, rules, [.server server]⟩] := by
  simp [Account.attached, Account.create, List.filter_append, CloudFirewall.covers,
    AppliedTo.covers]

/-- A new firewall next to others only adds to what they admit; the first firewall of a server
closes everything but its rule. -/
theorem onlyOpens_create {acct : Account} {name : String} :
    OnlyOpens S server port source acct (acct.create name [newRule port source] server) ↔
      acct.attached server ≠ [] := by
  have target : (⟨acct.newId, name, [newRule port source], [.server server]⟩ : CloudFirewall) ∈
      (acct.create name [newRule port source] server).attached server := by
    rw [attached_create]
    exact List.mem_append_right _ (List.mem_singleton_self _)
  constructor
  · intro opens none_
    have udp := opens.1 ⟨"udp", none, .v4 0⟩ (admits_of_attached_nil none_)
    rw [admits_iff_of_attached target, attached_create, none_] at udp
    obtain ⟨f, mem, admits⟩ := udp
    rw [List.nil_append, List.mem_singleton] at mem
    subst mem
    simp [CloudFirewall.admits, FirewallRule.admits, newRule] at admits
  · intro some_
    obtain ⟨f, mem⟩ := List.exists_mem_of_ne_nil _ some_
    refine ⟨fun c before => ?_, fun c asked => ?_⟩
    · obtain ⟨g, memG, admits⟩ := (admits_iff_of_attached mem).mp before
      rw [admits_iff_of_attached target, attached_create]
      exact ⟨g, List.mem_append_left _ memG, admits⟩
    · rw [admits_iff_of_attached target]
      refine ⟨_, target, ?_⟩
      simpa [CloudFirewall.admits] using newRule_admits asked

end Admission

/-! ## When opening a port closes nothing -/

theorem Outcome.done_of_ok {o : Outcome} (ok : o.result = .ok ()) : o.done = true := by
  cases o with
  | ok => rfl
  | error e done => cases ok

/-- A successful call only opens exactly if a firewall of the account covers the server. -/
theorem allowPort_onlyOpens_iff (S : Semantics) (calls : Calls) (acct : Account)
    (provider id : String) (port : UInt16) (source : String) (server : Nat)
    (parsed : parseU64 id = some server)
    (ok : (serversFirewallAllowPort calls acct provider id port source).1 = .ok ()) :
    OnlyOpens S server port source acct
        (serversFirewallAllowPort calls acct provider id port source).2 ↔
      acct.attached server ≠ [] := by
  unfold serversFirewallAllowPort at ok ⊢
  split at ok
  · cases ok
  · rename_i hetzner
    rw [if_neg hetzner]
    simp only [parsed] at ok ⊢
    cases found : hetznerFirewallFor calls acct server with
    | error e =>
        simp only [found] at ok
        cases ok
    | ok attached =>
        cases attached with
        | none =>
            simp only [found] at ok ⊢
            rw [if_pos (Outcome.done_of_ok ok)]
            exact onlyOpens_create
        | some f =>
            obtain ⟨g, mem, rfl⟩ := exists_of_hetznerFirewallFor found
            have covered : acct.attached server ≠ [] := List.ne_nil_of_mem mem
            simp only [found] at ok ⊢
            by_cases there : already g.listed port source = true
            · rw [if_pos there]
              exact iff_of_true (onlyOpens_of_already mem there) covered
            · rw [if_neg there] at ok ⊢
              rw [if_pos (Outcome.done_of_ok ok)]
              exact iff_of_true (onlyOpens_setRules mem) covered

/-- Single ports, and the two networks of every address. -/
def plainSemantics : Semantics where
  portAdmits text port := decide (text = toString port)
  network text
    | .v4 _ => decide (text = "0.0.0.0/0")
    | .v6 _ => decide (text = "::/0")
  port_single _ := decide_eq_true rfl
  network_v4 _ := rfl
  network_v6 _ := rfl

def working : Calls where
  token := true
  list := none
  change := .ok

/-- An account whose one firewall lets SSH through to the server 42. -/
def sshOnly : Account where
  firewalls := [⟨1, "ssh", [⟨"in", "tcp", some "22", ["0.0.0.0/0", "::/0"], [], none⟩],
    [.server 42]⟩]
  nodup := List.nodup_singleton 1

theorem allowPort_onlyOpens_sshOnly : OnlyOpens plainSemantics 42 19999 "any" sshOnly
    (serversFirewallAllowPort working sshOnly "hetzner" "42" 19999 "any").2 :=
  (allowPort_onlyOpens_iff plainSemantics working sshOnly "hetzner" "42" 19999 "any" 42 rfl rfl).mpr
    (by decide)

def noFirewalls : Account where
  firewalls := []
  nodup := List.nodup_nil

/-- The first firewall of a server closes SSH. -/
theorem firstFirewall_closes_ssh :
    (serversFirewallAllowPort working noFirewalls "hetzner" "42" 19999 "any").1 = .ok () ∧
      ¬ OnlyOpens plainSemantics 42 19999 "any" noFirewalls
        (serversFirewallAllowPort working noFirewalls "hetzner" "42" 19999 "any").2 := by
  refine ⟨rfl, fun opens => ?_⟩
  have ssh := opens.1 ⟨"tcp", some 22, .v4 0⟩ rfl
  revert ssh
  decide +kernel

end Sentinel.Servers
