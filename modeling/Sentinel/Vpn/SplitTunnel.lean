import Sentinel.Lib.Conf
import Sentinel.Api.Text
import Sentinel.Vpn.Node

/-!
# Split tunnels

`decide_allowed_ips` of `crates/core/src/vpn/session.rs` and the configuration that
`render_client_conf` writes for its routes, read back line by line; a `#` is read as it stands,
where `wg-quick` cuts off a comment. The routes come from a settings file, and `looks_like_cidr`
looks at the part behind the first slash and for a point or a colon before it: a line break or a
comma before the slash passes.

The file reads as the tunnel it was written for exactly when no route that is kept has either in it
(`clientConf_iff`).
-/

namespace Sentinel.Vpn

/-- `str::parse::<u32>`. -/
def parseU32 (s : List Char) : Option Nat :=
  let digits := match s with
    | '+' :: rest => rest
    | _ => s
  (Api.parseDigits digits).filter fun n => decide (n < 2 ^ 32)

def looksLikeCidr (s : String) : Bool :=
  match Conf.splitOnce '/' (Api.trim s).toList with
  | none => false
  | some (addr, mask) =>
      if addr.isEmpty then false
      else
        match parseU32 mask with
        | none => false
        | some bits =>
            if bits ≤ 128 then decide ('.' ∈ addr) || decide (':' ∈ addr) else false

/-- `wg::full_tunnel`. -/
def fullTunnel : List String := ["0.0.0.0/0", "::/0"]

def decideAllowedIps (tunnelMode : Option String) (splitRoutes : List String) : List String :=
  if tunnelMode = some "split" then
    let cidrs := (splitRoutes.map Api.trim).filter looksLikeCidr
    if cidrs ≠ [] then cidrs else fullTunnel
  else fullTunnel

/-! ## The file -/

/-- No field but the routes has a line break. -/
structure ClientConf.Plain (c : ClientConf) : Prop where
  clientPrivateKey : '\n' ∉ c.clientPrivateKey.toList
  clientAddress : '\n' ∉ c.clientAddress.toList
  dns : '\n' ∉ c.dns.toList
  serverPublicKey : '\n' ∉ c.serverPublicKey.toList
  serverEndpoint : '\n' ∉ c.serverEndpoint.toList

/-- The sections the file is meant to have, with this text for the routes. -/
def ClientConf.sections (c : ClientConf) (allowed : String) : List Conf.Section :=
  [{ name := "Interface"
     pairs := [("PrivateKey", c.clientPrivateKey), ("Address", c.clientAddress)] ++
       (if (Api.trim c.dns).isEmpty then [] else [("DNS", c.dns)]) ++ [("MTU", "1280")] },
   { name := "Peer"
     pairs := [("PublicKey", c.serverPublicKey), ("Endpoint", c.serverEndpoint),
       ("AllowedIPs", allowed), ("PersistentKeepalive", toString c.keepalive)] }]

/-- The routes of the text: the pieces between commas, without the white space around them. -/
def routesOf (allowed : String) : List String :=
  (allowed.toList.splitOn ',').map fun piece => Api.trim (String.ofList piece)

/-- The file reads as the sections it is meant to have, and its routes as the given ones. -/
def ClientConf.ReadsBack (c : ClientConf) : Prop :=
  ∃ allowed, Conf.parse (renderClientConf c) = some (c.sections allowed) ∧
    routesOf allowed = c.allowedIps

/-! ## Reading it back -/

section ReadBack

variable (c : ClientConf)

/-- The lines of the file. -/
def clientLines : List (List Char) :=
  ["[Interface]".toList, "PrivateKey = ".toList ++ c.clientPrivateKey.toList,
    "Address = ".toList ++ c.clientAddress.toList] ++
  (if (Api.trim c.dns).isEmpty then [] else ["DNS = ".toList ++ c.dns.toList]) ++
  ["MTU = 1280".toList, [], "[Peer]".toList, "PublicKey = ".toList ++ c.serverPublicKey.toList,
    "Endpoint = ".toList ++ c.serverEndpoint.toList,
    "AllowedIPs = ".toList ++ (", ".intercalate c.allowedIps).toList,
    "PersistentKeepalive = ".toList ++ (toString c.keepalive).toList]

/-- The texts of the template that end a line, by lines. -/
theorem template_lines :
    "[Interface]\nPrivateKey = ".toList = "[Interface]".toList ++ '\n' :: "PrivateKey = ".toList ∧
    "\nAddress = ".toList = '\n' :: "Address = ".toList ∧
    "\n".toList = ['\n'] ∧
    "MTU = 1280\n\n[Peer]\nPublicKey = ".toList =
      "MTU = 1280".toList ++ '\n' :: '\n' :: ("[Peer]".toList ++ '\n' :: "PublicKey = ".toList) ∧
    "\nEndpoint = ".toList = '\n' :: "Endpoint = ".toList ∧
    "\nAllowedIPs = ".toList = '\n' :: "AllowedIPs = ".toList ∧
    "\nPersistentKeepalive = ".toList = '\n' :: "PersistentKeepalive = ".toList := by
  repeat rw [String.toList_ofList]
  exact ⟨rfl, rfl, rfl, rfl, rfl, rfl, rfl⟩

theorem renderClientConf_toList :
    (renderClientConf c).toList = Lines.unlines '\n' (clientLines c) := by
  obtain ⟨priv, addr, eol, mtu, endpoint, allowed, keepalive⟩ := template_lines
  unfold renderClientConf clientLines
  dsimp only
  by_cases omitted : (Api.trim c.dns).isEmpty = true
  · rw [if_pos omitted, if_pos omitted]
    simp only [String.toList_append, priv, addr, eol, mtu, endpoint, allowed, keepalive,
      String.toList_empty, Lines.unlines, List.flatMap_cons, List.flatMap_nil, List.cons_append,
      List.nil_append, List.append_nil, List.append_assoc]
  · rw [if_neg omitted, if_neg omitted]
    simp only [String.toList_append, priv, addr, eol, mtu, endpoint, allowed, keepalive,
      Lines.unlines, List.flatMap_cons, List.flatMap_nil, List.cons_append, List.nil_append,
      List.append_nil, List.append_assoc]

theorem clientLines_read :
    Conf.parseLines (clientLines c ++ [[]]) =
      some ([], c.sections (", ".intercalate c.allowedIps)) := by
  rw [clientLines, ClientConf.sections]
  generalize ", ".intercalate c.allowedIps = allowed
  generalize toString c.keepalive = keepalive
  by_cases omitted : (Api.trim c.dns).isEmpty = true
  · rw [if_pos omitted, if_pos omitted]
    simp [Conf.parseLines, Conf.parseLine, Conf.cut]
  · rw [if_neg omitted, if_neg omitted]
    simp [Conf.parseLines, Conf.parseLine, Conf.cut]

theorem newline_notMem_toString (n : Nat) : '\n' ∉ (toString n).toList := by
  intro inside
  have digits : (toString n).toList = Nat.toDigits 10 n := String.toList_ofList
  rw [digits] at inside
  exact absurd (Nat.isDigit_of_mem_toDigits (by norm_num) (by norm_num) inside) (by decide)

theorem newline_notMem_join {routes : List String} (clean : ∀ route ∈ routes, '\n' ∉ route.toList) :
    '\n' ∉ (", ".intercalate routes).toList := by
  induction routes with
  | nil => exact List.not_mem_nil
  | cons route rest ih =>
      obtain ⟨first, others⟩ := List.forall_mem_cons.mp clean
      cases rest with
      | nil => rwa [String.intercalate_singleton]
      | cons next rest =>
          have sep : '\n' ∉ ", ".toList := by decide
          rw [String.intercalate_cons_cons, String.toList_append, String.toList_append,
            List.mem_append, List.mem_append]
          rintro ((inside | inside) | inside)
          · exact first inside
          · exact sep inside
          · exact ih others inside

/-- A blank before a text does not change its routes. -/
theorem map_trim_splitOn_cons (l : List Char) :
    ((' ' :: l).splitOn ',').map (fun piece => Api.trim (String.ofList piece)) =
      (l.splitOn ',').map fun piece => Api.trim (String.ofList piece) := by
  have blank : Api.isWhitespace ' ' = true := by decide
  obtain ⟨piece, pieces, split⟩ := List.exists_cons_of_ne_nil (List.splitOn_ne_nil ',' l)
  have shifted : (' ' :: l).splitOn ',' = (' ' :: piece) :: pieces := by
    rw [List.splitOn_eq_splitOnP, List.splitOnP_cons_eq_if_modifyHead, if_neg (by decide),
      ← List.splitOn_eq_splitOnP, split, List.modifyHead_cons]
  rw [shifted, split, List.map_cons, List.map_cons]
  refine congrArg (· :: _) ?_
  rw [Api.trim, Api.trim, Api.trimMatches, Api.trimMatches, String.toList_ofList,
    String.toList_ofList]
  exact congrArg String.ofList (Lines.strip_cons blank piece)

/-- Routes without commas are read back, trimmed. -/
theorem routesOf_join {routes : List String} (nonempty : routes ≠ [])
    (clean : ∀ route ∈ routes, ',' ∉ route.toList) :
    routesOf (", ".intercalate routes) = routes.map Api.trim := by
  induction routes with
  | nil => exact absurd rfl nonempty
  | cons route rest ih =>
      obtain ⟨first, others⟩ := List.forall_mem_cons.mp clean
      cases rest with
      | nil =>
          have plain : ∀ x ∈ route.toList, (x == ',') = false := by
            intro x mem
            exact beq_false_of_ne fun same => first (same ▸ mem)
          rw [String.intercalate_singleton, routesOf, List.splitOn_eq_splitOnP,
            List.splitOnP_eq_singleton plain, List.map_singleton, List.map_singleton,
            String.ofList_toList]
      | cons next rest =>
          have joined : (", ".intercalate (route :: next :: rest)).toList =
              route.toList ++ ',' :: ' ' :: (", ".intercalate (next :: rest)).toList := by
            rw [String.intercalate_cons_cons, String.toList_append, String.toList_append,
              List.append_assoc]
            rfl
          have later := ih (List.cons_ne_nil next rest) others
          rw [routesOf, joined, Lines.splitOn_append_cons first, List.map_cons,
            map_trim_splitOn_cons, String.ofList_toList]
          exact congrArg (Api.trim route :: ·) later

variable {c}

theorem clientLines_clean (plain : c.Plain)
    (routes : ∀ route ∈ c.allowedIps, '\n' ∉ route.toList) :
    ∀ l ∈ clientLines c, '\n' ∉ l := by
  obtain ⟨priv, addr, dns, pub, endpoint⟩ := plain
  have allowed := newline_notMem_join routes
  have keepalive := newline_notMem_toString c.keepalive
  generalize joined : ", ".intercalate c.allowedIps = text at allowed
  generalize shown : toString c.keepalive = digits at keepalive
  have dnsLine : ∀ l ∈ (if (Api.trim c.dns).isEmpty then []
      else ["DNS = ".toList ++ c.dns.toList]), '\n' ∉ l := by
    split
    · exact List.forall_mem_nil _
    · simpa using dns
  rw [clientLines, joined, shown, List.forall_mem_append, List.forall_mem_append]
  refine ⟨⟨?_, dnsLine⟩, ?_⟩
  · simp [priv, addr]
  · simpa using ⟨pub, endpoint, allowed, keepalive⟩

/-- The routes are read back when they are trimmed and none has a line break or a comma in it. -/
theorem readsBack_of_clean (plain : c.Plain) (nonempty : c.allowedIps ≠ [])
    (trimmed : ∀ route ∈ c.allowedIps, Api.trim route = route)
    (clean : ∀ route ∈ c.allowedIps, '\n' ∉ route.toList ∧ ',' ∉ route.toList) :
    c.ReadsBack := by
  have text : renderClientConf c = String.ofList (Lines.unlines '\n' (clientLines c)) := by
    rw [← renderClientConf_toList, String.ofList_toList]
  refine ⟨", ".intercalate c.allowedIps, ?_, ?_⟩
  · rw [text]
    exact Conf.parse_unlines (clientLines_clean plain fun route mem => (clean route mem).1)
      (clientLines_read c)
  · rw [routesOf_join nonempty fun route mem => (clean route mem).2]
    exact (List.map_congr_left trimmed).trans (List.map_id _)

/-- What is read back has neither in it. -/
theorem clean_of_readsBack (reads : c.ReadsBack) :
    ∀ route ∈ c.allowedIps, '\n' ∉ route.toList ∧ ',' ∉ route.toList := by
  obtain ⟨allowed, read, routes⟩ := reads
  have clean := Conf.parse_clean read
  have value : '\n' ∉ allowed.toList := by
    refine clean _ (List.mem_cons_of_mem _ List.mem_cons_self) ("AllowedIPs", allowed) ?_
    exact List.mem_cons_of_mem _ (List.mem_cons_of_mem _ List.mem_cons_self)
  intro route mem
  rw [← routes, routesOf, List.mem_map] at mem
  obtain ⟨piece, inside, rfl⟩ := mem
  rw [Api.trim, Api.trimMatches, String.toList_ofList, String.toList_ofList]
  constructor
  · intro newline
    exact value (Lines.mem_of_mem_splitOn inside (Lines.mem_of_mem_strip newline))
  · intro comma
    exact Lines.not_mem_of_mem_splitOn inside (Lines.mem_of_mem_strip comma)

end ReadBack

/-! ## Every mode and every list of routes -/

theorem looksLikeCidr_trim (s : String) : looksLikeCidr (Api.trim s) = looksLikeCidr s := by
  rw [looksLikeCidr, looksLikeCidr, Api.trim_trim]

theorem decideAllowedIps_ne_nil (tunnelMode : Option String) (splitRoutes : List String) :
    decideAllowedIps tunnelMode splitRoutes ≠ [] := by
  rw [decideAllowedIps]
  split
  · dsimp only
    split
    · assumption
    · exact List.cons_ne_nil _ _
  · exact List.cons_ne_nil _ _

/-- What is decided is the routes that are kept, or the full tunnel. -/
theorem mem_decideAllowedIps {tunnelMode : Option String} {splitRoutes : List String}
    {allowed : String} (mem : allowed ∈ decideAllowedIps tunnelMode splitRoutes) :
    allowed ∈ fullTunnel ∨ tunnelMode = some "split" ∧
      ∃ route ∈ splitRoutes, looksLikeCidr route = true ∧ Api.trim route = allowed := by
  rw [decideAllowedIps] at mem
  split at mem
  · rename_i split
    dsimp only at mem
    split at mem
    · rw [List.mem_filter, List.mem_map] at mem
      obtain ⟨⟨route, given, rfl⟩, kept⟩ := mem
      rw [looksLikeCidr_trim] at kept
      exact .inr ⟨split, route, given, kept, rfl⟩
    · exact .inl mem
  · exact .inl mem

/-- A route that is kept is among what is decided. -/
theorem mem_of_kept {splitRoutes : List String} {route : String} (given : route ∈ splitRoutes)
    (kept : looksLikeCidr route = true) :
    Api.trim route ∈ decideAllowedIps (some "split") splitRoutes := by
  have found : Api.trim route ∈ (splitRoutes.map Api.trim).filter looksLikeCidr := by
    rw [List.mem_filter, looksLikeCidr_trim]
    exact ⟨List.mem_map_of_mem given, kept⟩
  rw [decideAllowedIps, if_pos rfl]
  dsimp only
  rwa [if_pos (List.ne_nil_of_mem found)]

/-- The file of a tunnel reads as that tunnel for every client exactly when no route that is kept
has a line break or a comma in it. There is always a route. -/
theorem clientConf_iff (tunnelMode : Option String) (splitRoutes : List String) :
    (decideAllowedIps tunnelMode splitRoutes ≠ [] ∧
      ∀ c : ClientConf, c.Plain → c.allowedIps = decideAllowedIps tunnelMode splitRoutes →
        c.ReadsBack) ↔
    (tunnelMode = some "split" → ∀ route ∈ splitRoutes, looksLikeCidr route = true →
      '\n' ∉ (Api.trim route).toList ∧ ',' ∉ (Api.trim route).toList) := by
  constructor
  · rintro ⟨-, reads⟩ rfl route given kept
    let c : ClientConf :=
      { clientPrivateKey := "", clientAddress := "", dns := "", serverPublicKey := ""
        serverEndpoint := "", allowedIps := decideAllowedIps (some "split") splitRoutes
        keepalive := 0 }
    have empty : '\n' ∉ "".toList := by decide
    have back := reads c ⟨empty, empty, empty, empty, empty⟩ rfl
    exact clean_of_readsBack back _ (mem_of_kept given kept)
  · intro clean
    refine ⟨decideAllowedIps_ne_nil _ _, ?_⟩
    intro c plain routes
    have full : ∀ route ∈ fullTunnel,
        Api.trim route = route ∧ '\n' ∉ route.toList ∧ ',' ∉ route.toList := by decide +kernel
    have each : ∀ route ∈ c.allowedIps,
        Api.trim route = route ∧ '\n' ∉ route.toList ∧ ',' ∉ route.toList := by
      intro allowed mem
      rw [routes] at mem
      obtain inFull | ⟨split, route, given, kept, rfl⟩ := mem_decideAllowedIps mem
      · exact full allowed inFull
      · exact ⟨Api.trim_trim route, clean split route given kept⟩
    exact readsBack_of_clean plain (routes ▸ decideAllowedIps_ne_nil _ _)
      (fun route mem => (each route mem).1) (fun route mem => (each route mem).2)

/-- A route with a section of its own: the hook stands in the file, under a second `[Interface]`. -/
theorem route_injects :
    let routes := decideAllowedIps (some "split") ["1.\n[Interface]\nPostUp = reboot #/8"]
    let c : ClientConf :=
      { clientPrivateKey := "K", clientAddress := "10.66.0.2/32", dns := "1.1.1.1"
        serverPublicKey := "P", serverEndpoint := "203.0.113.7:51820", allowedIps := routes
        keepalive := 25 }
    c.Plain ∧ ¬c.ReadsBack ∧
      (Conf.parse (renderClientConf c)).map (fun sections => sections.map (·.name)) =
        some ["Interface", "Peer", "Interface"] ∧
      ((Conf.parse (renderClientConf c)).bind (·[2]?)).map
          (fun s : Conf.Section => s.pairs.head?) = some (some ("PostUp", "reboot #/8")) := by
  intro routes c
  have kept : routes = ["1.\n[Interface]\nPostUp = reboot #/8"] := by decide +kernel
  clear_value routes
  subst kept
  have plain : c.Plain := by
    refine ⟨?_, ?_, ?_, ?_, ?_⟩ <;> decide
  refine ⟨plain, fun reads => ?_, ?_⟩
  · have clean := clean_of_readsBack reads _ List.mem_cons_self
    exact clean.1 (by decide)
  · rw [Conf.parse, renderClientConf_toList]
    decide +kernel

end Sentinel.Vpn
