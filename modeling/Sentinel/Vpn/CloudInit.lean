import Sentinel.Lib.Base64

/-!
# The cloud-init document of a node

`crates/core/src/provision/cloudinit.rs`. A node is configured by one rendered template:
`wg0.conf` holds the node's private key and its upstream peer, and a node with a next hop
also gets `wg1.conf` with the key and the endpoint of that hop.

The template engine is third-party code: `Minijinja` is what the source calls, and
`Minijinja.Lawful` says that a template it renders comes out as written, with the values in
place. `Configures` reads a node's user data back; `configures_renderBase64` is what the
provisioning code relies on.
-/

namespace Sentinel.Vpn

/-- `error::CoreError`. -/
inductive CoreError where
  | decrypt
  | format (what detail : String)
  | invalidRecoveryKey
  | unauthorized (what : String)
  | notFound (what : String)
  | state (what : String)
  | provision (stage detail : String)
  | invalid (detail : String)
  | io (detail : String)
  | serde (detail : String)
  | storage (detail : String)
  | network (detail : String)
  deriving DecidableEq, Repr

/-- `Display for CoreError`. -/
def CoreError.display : CoreError → String
  | .decrypt => "decryption failed (wrong key or corrupted data)"
  | .format what detail => "malformed " ++ what ++ ": " ++ detail
  | .invalidRecoveryKey => "invalid recovery key"
  | .unauthorized what => "key unwrap was not authorized: " ++ what
  | .notFound what => "not found: " ++ what
  | .state what => "invalid state: " ++ what
  | .provision stage detail => "provisioning failed at " ++ stage ++ ": " ++ detail
  | .invalid detail => "invalid input: " ++ detail
  | .io detail => "io error: " ++ detail
  | .serde detail => "serialization error: " ++ detail
  | .storage detail => "storage error: " ++ detail
  | .network detail => "network error: " ++ detail

/-- `NextHop`: the downstream link of a chained node. -/
structure NextHop where
  wg1Privkey : String
  wg1Address : String
  peerPubkey : String
  peerEndpoint : String
  deriving DecidableEq, Repr

structure CloudInitParams where
  serverPrivkey : String
  clientPubkey : String
  clientIp : String
  listenPort : Nat
  callbackToken : String
  callbackHmacKey : String
  deadmanSecs : Nat
  nextHop : Option NextHop
  deriving DecidableEq, Repr

/-- `CloudInitParams::single`. -/
def CloudInitParams.single (serverPrivkey clientPubkey clientIp : String) (listenPort : Nat)
    (callbackToken callbackHmacKey : String) (deadmanSecs : Nat) : CloudInitParams :=
  { serverPrivkey, clientPubkey, clientIp, listenPort, callbackToken, callbackHmacKey,
    deadmanSecs, nextHop := none }

/-! ## The template -/

/-- The variables of the template. -/
inductive Var where
  | serverPrivkey | clientPubkey | clientIp | listenPort | callbackToken | callbackHmacKey
  | deadmanSecs | nextHop | egressIf | nhPrivkey | nhAddress | nhPeerPubkey | nhPeerEndpoint
  deriving DecidableEq, Repr

/-- Text, or the place of a value. -/
inductive Fragment where
  | text (s : String)
  | value (v : Var)

/-- Part of a template: always there, or only when a variable is true. -/
inductive Piece where
  | always (body : List Fragment)
  | whenTrue (v : Var) (body : List Fragment)

def lines (ls : List String) : String := "\n".intercalate ls

def templateHead : List Fragment := [
  .text (lines [
    "#cloud-config",
    "package_update: true",
    "packages:",
    "  - wireguard-tools",
    "  - nftables",
    "",
    "write_files:",
    "  - path: /etc/wireguard/wg0.conf",
    "    permissions: '0600'",
    "    content: |",
    ""])]

/-- The content of `/etc/wireguard/wg0.conf`. -/
def wg0Conf : List Fragment := [
  .text (lines [
    "      [Interface]",
    "      PrivateKey = "]),
  .value .serverPrivkey,
  .text (lines [
    "",
    "      Address = 10.66.0.1/24",
    "      ListenPort = "]),
  .value .listenPort,
  .text (lines [
    "",
    "      SaveConfig = false",
    "",
    "      [Peer]",
    "      PublicKey = "]),
  .value .clientPubkey,
  .text (lines [
    "",
    "      AllowedIPs = "]),
  .value .clientIp,
  .text (lines [
    "/32",
    ""])]

def wg1Head : List Fragment := [
  .text (lines [
    "",
    "  - path: /etc/wireguard/wg1.conf",
    "    permissions: '0600'",
    "    content: |",
    ""])]

/-- The content of `/etc/wireguard/wg1.conf`, for a node with a next hop. -/
def wg1Conf : List Fragment := [
  .text (lines [
    "      [Interface]",
    "      PrivateKey = "]),
  .value .nhPrivkey,
  .text (lines [
    "",
    "      Address = "]),
  .value .nhAddress,
  .text (lines [
    "",
    "",
    "      [Peer]",
    "      PublicKey = "]),
  .value .nhPeerPubkey,
  .text (lines [
    "",
    "      Endpoint = "]),
  .value .nhPeerEndpoint,
  .text (lines [
    "",
    "      AllowedIPs = 0.0.0.0/0, ::/0",
    "      PersistentKeepalive = 25",
    ""])]

def templateServices : List Piece := [
  .always [
    .text (lines [
      "",
      "  - path: /etc/nftables.conf",
      "    permissions: '0644'",
      "    content: |",
      "      #!/usr/sbin/nft -f",
      "      flush ruleset",
      "      table inet filter \x7b",
      "        chain input \x7b",
      "          type filter hook input priority 0; policy drop;",
      "          ct state established,related accept",
      "          iif \"lo\" accept",
      "          udp dport "]),
    .value .listenPort,
    .text (lines [
      " accept",
      "          tcp dport 443 accept",
      "          # MUST be `iifname` (name match at runtime), NOT `iif` (interface INDEX resolved at",
      "          # load time). cloud-init loads this ruleset BEFORE wg-quick brings wg0 up, so `iif",
      "          # \"wg0\"` errors \"Interface does not exist\" and — because `nft -f` is atomic — rejects",
      "          # the WHOLE file, including the NAT table below. With no masquerade the client's",
      "          # packets egress with a private source and never get a reply: the tunnel handshakes",
      "          # (so it looks \"connected\") but no real traffic flows.",
      "          iifname \"wg0\" accept",
      "        \x7d",
      "        chain forward \x7b type filter hook forward priority 0; policy accept; \x7d",
      "        chain output \x7b type filter hook output priority 0; policy accept; \x7d",
      "      \x7d",
      "      table ip nat \x7b",
      "        chain postrouting \x7b",
      "          type nat hook postrouting priority 100; policy accept;",
      "          # Masquerade everything leaving via any interface EXCEPT the client tunnel — so return",
      "          # traffic is NAT'd back regardless of what the provider names the public NIC (eth0, ens3,",
      "          # enp0s3, …). A hardcoded interface name would silently break NAT (client gets upload but",
      "          # zero download) on any host that doesn't use it. For a multi-hop node the egress is wg1,",
      "          # which this also covers. `"]),
    .value .egressIf,
    .text (lines [
      "` is kept in the render context but no longer",
      "          # pinned here on purpose.",
      "          oifname != \"wg0\" masquerade",
      "        \x7d",
      "      \x7d",
      "",
      "  - path: /opt/sentinel/callback.py",
      "    permissions: '0755'",
      "    content: |",
      "      #!/usr/bin/env python3",
      "      # Serve the WG public key, authenticated by HMAC over (pubkey || ip) keyed by the",
      "      # hex-decoded callback key. Authenticity is the HMAC, not the transport (D11, T6):",
      "      # the pubkey is public and a tampered value fails the client's constant-time compare.",
      "      # Guarded by the one-time bearer token so random scanners get nothing.",
      "      import http.server, hmac, hashlib, json, urllib.request",
      "      TOKEN = \""]),
    .value .callbackToken,
    .text (lines [
      "\"",
      "      KEY = bytes.fromhex(\""]),
    .value .callbackHmacKey,
    .text (lines [
      "\")",
      "      def pub():",
      "          with open(\"/etc/wireguard/pub\") as f:",
      "              return f.read().strip()",
      "      def myip():",
      "          try:",
      "              return urllib.request.urlopen(\"https://api.ipify.org\", timeout=10).read().decode().strip()",
      "          except Exception:",
      "              return \"\"",
      "      class H(http.server.BaseHTTPRequestHandler):",
      "          def do_GET(self):",
      "              if self.headers.get(\"Authorization\", \"\") != \"Bearer \" + TOKEN:",
      "                  self.send_response(403); self.end_headers(); return",
      "              p = pub(); i = myip()",
      "              mac = hmac.new(KEY, (p + i).encode(), hashlib.sha256).hexdigest()",
      "              body = json.dumps(\x7b\"pubkey\": p, \"ip\": i, \"mac\": mac\x7d).encode()",
      "              self.send_response(200)",
      "              self.send_header(\"Content-Type\", \"application/json\")",
      "              self.send_header(\"Content-Length\", str(len(body)))",
      "              self.end_headers()",
      "              self.wfile.write(body)",
      "          def log_message(self, *a):",
      "              return",
      "      http.server.HTTPServer((\"0.0.0.0\", 443), H).serve_forever()",
      "",
      "  - path: /etc/systemd/system/sentinel-callback.service",
      "    content: |",
      "      [Unit]",
      "      Description=SENTINEL pubkey callback",
      "      After=network-online.target wg-quick@wg0.service",
      "      [Service]",
      "      ExecStart=/usr/bin/python3 /opt/sentinel/callback.py",
      "      Restart=on-failure",
      "      [Install]",
      "      WantedBy=multi-user.target",
      ""])],
  .whenTrue .deadmanSecs [
    .text (lines [
      "",
      "  - path: /etc/systemd/system/sentinel-deadman.service",
      "    content: |",
      "      [Unit]",
      "      Description=SENTINEL dead-man switch",
      "      [Service]",
      "      Type=oneshot",
      "      ExecStart=/bin/bash -c 'hs=$(wg show wg0 latest-handshakes | awk \"\x7bprint \\$2\x7d\"); now=$(date +%s); if [ -z \"$hs\" ] || [ $((now - hs)) -gt "]),
    .value .deadmanSecs,
    .text (lines [
      " ]; then shutdown -h now; fi'",
      "",
      "  - path: /etc/systemd/system/sentinel-deadman.timer",
      "    content: |",
      "      [Unit]",
      "      Description=Run the SENTINEL dead-man switch",
      "      [Timer]",
      "      OnBootSec=60",
      "      OnUnitActiveSec=60",
      "      [Install]",
      "      WantedBy=timers.target",
      ""])],
  .always [
    .text (lines [
      "",
      "",
      "runcmd:",
      "  - systemctl disable ssh || true",
      "  - systemctl stop ssh || true",
      "  - systemctl mask ssh.service || true",
      "  - umask 077; echo '"]),
    .value .serverPrivkey,
    .text (lines [
      "' | wg pubkey > /etc/wireguard/pub || true",
      "  - sysctl -w net.ipv4.ip_forward=1",
      "  - echo 'net.ipv4.ip_forward=1' > /etc/sysctl.d/99-sentinel.conf",
      "  - nft -f /etc/nftables.conf",
      "  # MSS clamp is BEST-EFFORT and applied AFTER the ruleset loads, so that if this node's nftables",
      "  # build rejects the expression it can't fail `nft -f` and take masquerade down with it (which",
      "  # would break all return traffic). The client also sets MTU=1420, which handles throughput on its",
      "  # own; this is belt-and-suspenders for oversized-packet stalls.",
      "  - nft add rule inet filter forward tcp flags syn tcp option maxseg size set rt mtu || true",
      "  - systemctl enable wg-quick@wg0",
      "  - systemctl start wg-quick@wg0",
      ""])],
  .whenTrue .nextHop [
    .text (lines [
      "",
      "  - systemctl enable wg-quick@wg1",
      "  - systemctl start wg-quick@wg1",
      ""])],
  .always [
    .text (lines [
      "",
      "  - systemctl daemon-reload",
      "  - systemctl enable --now sentinel-callback.service",
      ""])],
  .whenTrue .deadmanSecs [
    .text (lines [
      "",
      "  - systemctl enable --now sentinel-deadman.timer",
      ""])]]

/-- `TEMPLATE`, less the newline at its end, which the engine drops. -/
def TEMPLATE : List Piece :=
  [Piece.always templateHead, Piece.always wg0Conf, Piece.whenTrue .nextHop wg1Head,
    Piece.whenTrue .nextHop wg1Conf] ++ templateServices

/-! ## Rendering -/

/-- The value of a variable: its text and whether an `if` takes it as true. -/
structure Value where
  text : String
  isTrue : Bool

def Value.ofString (s : String) : Value := ⟨s, s ≠ ""⟩
def Value.ofNat (n : Nat) : Value := ⟨toString n, n ≠ 0⟩
def Value.ofBool (b : Bool) : Value := ⟨toString b, b⟩

abbrev Context := Var → Value

/-- The template as written, with the values in place. -/
def Fragment.fill (ctx : Context) : Fragment → String
  | .text s => s
  | .value v => (ctx v).text

def fillBody (ctx : Context) : List Fragment → String
  | [] => ""
  | f :: rest => f.fill ctx ++ fillBody ctx rest

def Piece.fill (ctx : Context) : Piece → String
  | .always body => fillBody ctx body
  | .whenTrue v body => if (ctx v).isTrue then fillBody ctx body else ""

def fill (ctx : Context) : List Piece → String
  | [] => ""
  | p :: rest => p.fill ctx ++ fill ctx rest

/-- What `render` uses of the template engine. -/
structure Minijinja where
  addTemplate : List Piece → Except String Unit
  render : List Piece → Context → Except String String

/-- What the engine renders is the template with the values in place. -/
def Minijinja.Lawful (engine : Minijinja) : Prop :=
  ∀ template ctx text, engine.render template ctx = .ok text → text = fill ctx template

/-- The engine that accepts every template and renders it. -/
def fillEngine : Minijinja where
  addTemplate _ := .ok ()
  render template ctx := .ok (fill ctx template)

theorem fillEngine_lawful : fillEngine.Lawful := by
  intro template ctx text h
  exact (Except.ok.inj h).symm

/-- The `context!` of `render`. -/
def CloudInitParams.context (p : CloudInitParams) : Context
  | .serverPrivkey => .ofString p.serverPrivkey
  | .clientPubkey => .ofString p.clientPubkey
  | .clientIp => .ofString p.clientIp
  | .listenPort => .ofNat p.listenPort
  | .callbackToken => .ofString p.callbackToken
  | .callbackHmacKey => .ofString p.callbackHmacKey
  | .deadmanSecs => .ofNat p.deadmanSecs
  | .nextHop => .ofBool p.nextHop.isSome
  | .egressIf => .ofString (if p.nextHop.isSome then "wg1" else "eth0")
  | .nhPrivkey => .ofString ((p.nextHop.map NextHop.wg1Privkey).getD "")
  | .nhAddress => .ofString ((p.nextHop.map NextHop.wg1Address).getD "")
  | .nhPeerPubkey => .ofString ((p.nextHop.map NextHop.peerPubkey).getD "")
  | .nhPeerEndpoint => .ofString ((p.nextHop.map NextHop.peerEndpoint).getD "")

def render (engine : Minijinja) (p : CloudInitParams) : Except CoreError String := do
  (engine.addTemplate TEMPLATE).mapError fun e => .provision "template" e
  (engine.render TEMPLATE p.context).mapError fun e => .provision "render" e

def utf8 (s : String) : List UInt8 := s.toUTF8.data.toList

def renderBase64 (engine : Minijinja) (p : CloudInitParams) : Except CoreError String := do
  let text ← render engine p
  return Base64.encode (utf8 text)

/-! ## What a node is told -/

/-- `part` stands somewhere in `text`. -/
def Contains (text part : String) : Prop := ∃ before after, text = before ++ part ++ after

/-- The user data decodes to a document with the `wg0.conf` of these parameters and, when
there is a next hop, their `wg1.conf`. -/
def Configures (userData : String) (p : CloudInitParams) : Prop :=
  ∃ text, Base64.decode userData = some (utf8 text) ∧ Contains text (fillBody p.context wg0Conf) ∧
    (p.nextHop.isSome → Contains text (fillBody p.context wg1Conf))

theorem contains_fill (ctx : Context) {template : List Piece} {p : Piece} (h : p ∈ template) :
    Contains (fill ctx template) (p.fill ctx) := by
  induction template with
  | nil => cases h
  | cons q rest ih =>
      rcases List.mem_cons.mp h with rfl | h
      · exact ⟨"", fill ctx rest, by rw [fill, String.empty_append]⟩
      · obtain ⟨before, after, eq⟩ := ih h
        refine ⟨q.fill ctx ++ before, after, ?_⟩
        rw [fill, eq, String.append_assoc, String.append_assoc, String.append_assoc]

theorem configures_renderBase64 {engine : Minijinja} (lawful : engine.Lawful)
    {p : CloudInitParams} {userData : String} (h : renderBase64 engine p = .ok userData) :
    Configures userData p := by
  cases added : engine.addTemplate TEMPLATE with
  | error e => simp [renderBase64, render, added, bind, Except.bind, Except.mapError] at h
  | ok _ =>
      cases rendered : engine.render TEMPLATE p.context with
      | error e => simp [renderBase64, render, added, rendered, bind, Except.bind,
          Except.mapError] at h
      | ok text =>
          simp only [renderBase64, render, added, rendered, bind, Except.bind, Except.mapError,
            pure, Except.pure, Except.ok.injEq] at h
          have filled := lawful _ _ _ rendered
          refine ⟨text, by rw [← h, Base64.decode_encode], ?_, fun next => ?_⟩
          · rw [filled]
            exact contains_fill p.context (p := .always wg0Conf) (by simp [TEMPLATE])
          · have shown : (Piece.whenTrue .nextHop wg1Conf).fill p.context =
                fillBody p.context wg1Conf := by
              rw [Piece.fill, if_pos (by simpa [CloudInitParams.context, Value.ofBool] using next)]
            rw [filled, ← shown]
            exact contains_fill p.context (by simp [TEMPLATE])

end Sentinel.Vpn
