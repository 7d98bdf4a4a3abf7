import Mathlib
import Sentinel.Vpn.Chain

/-!
# Packets through a chain

What the addresses that `multihop_run` hands out do to a packet of the client. A node is read
off its parameters and its public address: `wg0` has the address of the template, its peer
may send from the address it was given, and a node with a next hop has a `wg1` with the address
of the link. A node takes a packet from `wg0` if its source is in the `AllowedIPs` of the peer
and is not an address of the node itself; it sends the packet out by `wg1`, or to the internet
if there is none, with the address of that interface as the source (`masquerade`).
-/

namespace Sentinel.Vpn

open Atomic

/-! ## Addresses -/

/-- An IPv4 network in prefix notation. -/
structure Cidr where
  addr : Nat
  bits : Nat
  deriving DecidableEq, Repr

def parseDecimal (bound : Nat) (cs : List Char) : Option Nat :=
  if cs.isEmpty || !cs.all Char.isDigit then none
  else if Nat.ofDigitChars 10 cs 0 < bound then some (Nat.ofDigitChars 10 cs 0) else none

/-- The number of a dotted address. -/
def parseIpv4 (text : String) : Option Nat :=
  match (text.toList.splitOn '.').map (parseDecimal 256) with
  | [some a, some b, some c, some d] => some (((a * 256 + b) * 256 + c) * 256 + d)
  | _ => none

def parseCidr (text : String) : Option Cidr :=
  match text.toList.splitOn '/' with
  | [addr, bits] =>
      match parseIpv4 (String.ofList addr), parseDecimal 33 bits with
      | some addr, some bits => some ⟨addr, bits⟩
      | _, _ => none
  | _ => none

/-- The first bits of the two addresses are the same. -/
def Cidr.contains (c : Cidr) (ip : Nat) : Bool :=
  ip / 2 ^ (32 - c.bits) == c.addr / 2 ^ (32 - c.bits)

/-! ## Nodes -/

/-- The interfaces of a node. A text that is not an address is no address. -/
structure RouterNode where
  /-- the address of `wg0` -/
  wg0 : Option Cidr
  /-- the `AllowedIPs` of the peer on `wg0` -/
  allowed : Option Cidr
  /-- the address of `wg1`, on a node that has one -/
  wg1 : Option (Option Cidr)
  /-- the address of the public interface -/
  publicIp : Option Nat
  deriving DecidableEq, Repr

namespace RouterNode

/-- The addresses of the node itself. -/
def own (n : RouterNode) : List Nat :=
  n.wg0.toList.map Cidr.addr ++ n.wg1.toList.flatMap (fun a => a.toList.map Cidr.addr) ++
    n.publicIp.toList

/-- A packet from the peer on `wg0` is taken: WireGuard drops a source outside of the
`AllowedIPs`, and the host drops a source that is its own. -/
def accepts (n : RouterNode) (src : Nat) : Bool :=
  n.allowed.any (·.contains src) && !n.own.contains src

end RouterNode

/-- The packet goes from node to node: one with a next hop sends it on from its `wg1`, and the
exit from its public interface. -/
def leaves : List RouterNode → Nat → Bool
  | [], _ => false
  | n :: rest, src => n.accepts src &&
      match n.wg1 with
      | some addr => addr.any fun a => leaves rest a.addr
      | none => rest.isEmpty

/-- The node that cloud-init makes of these parameters on a machine with this address. -/
def CloudInitParams.node (p : CloudInitParams) (ip : String) : RouterNode where
  wg0 := parseCidr "10.66.0.1/24"
  allowed := parseCidr (p.clientIp ++ "/32")
  wg1 := p.nextHop.map fun next => parseCidr next.wg1Address
  publicIp := parseIpv4 ip

def Hop.node (h : Hop) : RouterNode := h.params.node h.ip

/-- A packet of the client goes through the whole chain and leaves at the exit. -/
def Routes (conf : ClientConf) (hops : List Hop) : Prop :=
  ∃ client, parseCidr conf.clientAddress = some client ∧
    leaves (hops.map Hop.node) client.addr = true

/-! ## Chains -/

/-- The interfaces of hop `i` of a chain. -/
theorem Numbered.node {hops : List Hop} (numbered : Numbered hops) {i : Nat} {h : Hop}
    (mem : hops[i]? = some h) :
    h.node =
      { wg0 := parseCidr "10.66.0.1/24"
        allowed := parseCidr (if i = 0 then "10.66.0.2/32" else "10.67.0.2/32")
        wg1 := if i + 1 < hops.length then some (parseCidr "10.67.0.2/32") else none
        publicIp := parseIpv4 h.ip } := by
  have peer : h.params.clientIp ++ "/32" = if i = 0 then "10.66.0.2/32" else "10.67.0.2/32" := by
    rw [numbered.peer i h mem, ChainPlan.upstreamIp]
    split <;> decide
  have link := congrArg (Option.map parseCidr) (numbered.link i h mem)
  rw [Option.map_map, apply_ite (Option.map parseCidr)] at link
  unfold Hop.node CloudInitParams.node
  rw [peer]
  exact congrArg (RouterNode.mk _ _ · _) link

/-- A chain routes exactly when it has no hop between entry and exit, and no public address
is one of the addresses inside. -/
theorem routes_iff {conf : ClientConf} {entry next : Hop} {rest : List Hop}
    (numbered : Numbered (entry :: next :: rest))
    (client : conf.clientAddress = "10.66.0.2/32") :
    Routes conf (entry :: next :: rest) ↔ rest = [] ∧
      parseIpv4 entry.ip ≠ parseIpv4 "10.66.0.2" ∧ parseIpv4 next.ip ≠ parseIpv4 "10.67.0.2" := by
  have a : parseCidr "10.66.0.2/32" = some ⟨172097538, 32⟩ := by decide
  have b : parseCidr "10.67.0.2/32" = some ⟨172163074, 32⟩ := by decide
  have c : parseCidr "10.66.0.1/24" = some ⟨172097537, 24⟩ := by decide
  have a' : parseIpv4 "10.66.0.2" = some 172097538 := by decide
  have b' : parseIpv4 "10.67.0.2" = some 172163074 := by decide
  have first : entry.node = ⟨some ⟨172097537, 24⟩, some ⟨172097538, 32⟩,
      some (some ⟨172163074, 32⟩), parseIpv4 entry.ip⟩ := by
    rw [numbered.node (i := 0) rfl, if_pos rfl, if_pos (by simp), a, b, c]
  have enters : entry.node.accepts 172097538 = decide (parseIpv4 entry.ip ≠ some 172097538) := by
    rw [first]
    cases parseIpv4 entry.ip <;> simp [RouterNode.accepts, RouterNode.own, Cidr.contains, eq_comm]
  have step : Routes conf (entry :: next :: rest) ↔ parseIpv4 entry.ip ≠ some 172097538 ∧
      leaves ((next :: rest).map Hop.node) 172163074 = true := by
    rw [Routes, client, a]
    simp only [Option.some.injEq, exists_eq_left', List.map_cons, leaves, enters]
    rw [first]
    simp
  have second := numbered.node (i := 1) rfl
  rw [step, a', b']
  cases rest with
  | nil =>
      have last : next.node = ⟨some ⟨172097537, 24⟩, some ⟨172163074, 32⟩, none,
          parseIpv4 next.ip⟩ := by
        rw [second, if_neg (by decide), if_neg (by simp), b, c]
      have exits : next.node.accepts 172163074 = decide (parseIpv4 next.ip ≠ some 172163074) := by
        rw [last]
        cases parseIpv4 next.ip <;>
          simp [RouterNode.accepts, RouterNode.own, Cidr.contains, eq_comm]
      rw [List.map_singleton, leaves, exits, last]
      simp
  | cons third rest =>
      -- the packet comes from the address that this node has on its own `wg1`
      have middle : next.node = ⟨some ⟨172097537, 24⟩, some ⟨172163074, 32⟩,
          some (some ⟨172163074, 32⟩), parseIpv4 next.ip⟩ := by
        rw [second, if_neg (by decide), if_pos (by simp), b, c]
      have dropped : next.node.accepts 172163074 = false := by
        rw [middle]
        simp [RouterNode.accepts, RouterNode.own]
      rw [List.map_cons, leaves, dropped]
      simp

/-- In every run of `multihop_run` that ends well the chain it built routes exactly when it
has two hops, and the provider gave the entry and the exit no address of the tunnels. -/
theorem multihopRun_routes_iff (engine : Minijinja) (lawful : engine.Lawful) (deps : ConnectDeps)
    (maxHops : Nat) (regions : List String) (instanceType : Option String) (t : Trace)
    (run : Prog.Runs (multihopRun engine deps maxHops regions instanceType) t (.ok ())) :
    ∃ (hops : List Hop) (conf : ClientConf), hops.length = regions.length ∧
      creates t = (List.reverse hops).map (fun h => (h.spec, .ok h.inst)) ∧
      (∀ h ∈ hops, Configures h.spec.userData h.params ∧ Addressed t h.inst h.ip) ∧
      tunnels t = [conf] ∧
      (Routes conf hops ↔ regions.length = 2 ∧
        (∀ h : Hop, hops[0]? = some h → parseIpv4 h.ip ≠ parseIpv4 "10.66.0.2") ∧
        ∀ h : Hop, hops[1]? = some h → parseIpv4 h.ip ≠ parseIpv4 "10.67.0.2") := by
  have enough : 2 ≤ regions.length := by
    by_contra short
    rw [multihopRun, if_pos (by omega)] at run
    cases run
  have out := Prog.ensures_iff.mp
    (multihopRun_ensures lawful deps maxHops regions instanceType) t (.ok ()) run
  obtain ⟨active, ⟨hops, serverKp, wg1Kp, conf, entry, length, made, consistent, -, head, tunnel,
    -, -, numbered, client⟩, -, -⟩ := out
  refine ⟨hops, conf, length, made, fun h mem => ?_, tunnel, ?_⟩
  · obtain ⟨i, found⟩ := List.mem_iff_getElem?.mp mem
    exact ⟨(consistent.node i h found).1, (consistent.node i h found).2.2⟩
  · rw [← length] at enough ⊢
    cases hops with
    | nil => cases enough
    | cons entry rest =>
        cases rest with
        | nil => simp at enough
        | cons next rest =>
            rw [routes_iff numbered client]
            simp

theorem multihopRun_routes_twoHops :
    ∃ (hops : List Hop) (conf : ClientConf), hops.length = 2 ∧
      creates (chainCalls twoHops "203.0.113.1" "203.0.113.2" "us-east → eu-central") =
        (List.reverse hops).map (fun h => (h.spec, .ok h.inst)) ∧
      (Routes conf hops ↔ ["us-east", "eu-central"].length = 2 ∧
        (∀ h : Hop, hops[0]? = some h → parseIpv4 h.ip ≠ parseIpv4 "10.66.0.2") ∧
        ∀ h : Hop, hops[1]? = some h → parseIpv4 h.ip ≠ parseIpv4 "10.67.0.2") := by
  obtain ⟨hops, conf, length, made, -, -, routes⟩ := multihopRun_routes_iff fillEngine
    fillEngine_lawful ⟨10, 0⟩ 3 ["us-east", "eu-central"] none _ twoHops_run
  exact ⟨hops, conf, length, made, routes⟩

def threeHops : List Hop :=
  [sampleHop 0 "us-east" "10.66.0.2" "203.0.113.1" (some "203.0.113.2"),
    sampleHop 1 "eu-west" "10.67.0.2" "203.0.113.2" (some "203.0.113.3"),
    sampleHop 2 "eu-central" "10.67.0.2" "203.0.113.3" none]

/-- A run with three regions ends well, and no packet gets past the hop in the middle. -/
theorem threeHops_not_routed :
    Prog.Runs (multihopRun fillEngine ⟨10, 0⟩ 3 ["us-east", "eu-west", "eu-central"] none)
      (chainCalls threeHops "203.0.113.1" "203.0.113.3" "us-east → eu-central") (.ok ()) ∧
    creates (chainCalls threeHops "203.0.113.1" "203.0.113.3" "us-east → eu-central") =
      threeHops.reverse.map (fun h => (h.spec, .ok h.inst)) ∧
    (∀ h ∈ threeHops, renderBase64 fillEngine h.params = .ok h.spec.userData) ∧
    tunnels (chainCalls threeHops "203.0.113.1" "203.0.113.3" "us-east → eu-central") =
      [sampleConf "203.0.113.1"] ∧
    ¬ Routes (sampleConf "203.0.113.1") threeHops := by
  refine ⟨?_, rfl, ?_, rfl, ?_⟩
  · iterate 41 refine .cons ?_
    exact .nil _
  · intro h mem
    simp only [threeHops, List.mem_cons, List.not_mem_nil, or_false] at mem
    obtain rfl | rfl | rfl := mem <;> rfl
  · rintro ⟨client, address, routed⟩
    have same : client = ⟨172097538, 32⟩ := by
      have parsed : parseCidr (sampleConf "203.0.113.1").clientAddress =
          some ⟨172097538, 32⟩ := by decide
      rw [parsed] at address
      exact (Option.some.inj address).symm
    rw [same] at routed
    have blocked : leaves (threeHops.map Hop.node) 172097538 = false := by decide +kernel
    rw [blocked] at routed
    cases routed

end Sentinel.Vpn
