import Sentinel.Lib.Table
import Sentinel.Lib.Atomic
import Sentinel.Api.Schema
import Sentinel.Api.Stmt
import Sentinel.Api.Handler
import Sentinel.Api.Auth
import Sentinel.Api.Security
import Sentinel.Api.Routes
import Sentinel.Api.Interleaving
import Sentinel.Api.Requests
import Sentinel.Api.SecondFactor
import Sentinel.Api.Sessions
import Sentinel.Api.Revocation
import Sentinel.Api.Scope
import Sentinel.Api.Isolation
import Sentinel.Api.VaultCas
import Sentinel.Api.Refresh
import Sentinel.Api.UnlockRelay
import Sentinel.Api.Transfers
import Sentinel.Api.Lockout
import Sentinel.Api.Escrow
import Sentinel.Lib.Lww
import Sentinel.Lib.Base64
import Sentinel.Vault.Envelope
import Sentinel.Vault.Document
import Sentinel.Vault.Store
import Sentinel.Vault.Merge
import Sentinel.Vault.Deletion
import Sentinel.Vault.Convergence
import Sentinel.Vault.Totp
import Sentinel.Lib.Trace
import Sentinel.Vpn.CloudInit
import Sentinel.Vpn.Node
import Sentinel.Vpn.Session
import Sentinel.Vpn.Multihop
import Sentinel.Vpn.Chain
import Sentinel.Vpn.Routing
import Sentinel.Vpn.AlwaysOn
import Sentinel.Vpn.MoneySafety
import Sentinel.Lib.Fault
import Sentinel.Lib.Outline
import Sentinel.Lib.OrderedMap
import Sentinel.Desktop.Wrapper
import Sentinel.Desktop.Machine
import Sentinel.Desktop.AppLock
import Sentinel.Desktop.Effects
import Sentinel.Desktop.Items
import Sentinel.Desktop.Adopt
import Sentinel.Desktop.Recorded
import Sentinel.Desktop.KeySafety
import Sentinel.Vault.Matching
import Sentinel.Desktop.NativeHost
import Sentinel.Desktop.HostEffects
import Sentinel.Desktop.Runs
import Sentinel.Desktop.Gates
import Sentinel.Servers.Config
import Sentinel.Servers.Bans
import Sentinel.Servers.BanPool
import Sentinel.Settings.Local
import Sentinel.Settings.SelfHeal
import Sentinel.Vault.Statements
import Sentinel.Vault.Stability
import Sentinel.Vault.Atomicity
import Sentinel.Api.Unification
import Sentinel.Api.Enrollment
import Sentinel.Api.Quota
import Sentinel.Api.Monitor
import Sentinel.Api.Bans
import Sentinel.Api.RateLimiter
import Sentinel.Desktop.Authenticator
import Sentinel.Servers.FleetPlan
import Sentinel.Servers.Watchdog
import Sentinel.Servers.Alerts
import Sentinel.Lib.Snapshot
import Sentinel.Servers.SecurityAlerts
import Sentinel.Servers.Firewall
import Sentinel.Lib.Labels
import Sentinel.Vault.SameSite
import Sentinel.Extension.Matching
import Sentinel.Desktop.PasskeyScope
import Sentinel.Lib.Codec
import Sentinel.Vault.Bundle
import Sentinel.Phone.Bundle
import Sentinel.Vault.FileBlob
import Sentinel.Phone.FileBlob
import Sentinel.Lib.Path
import Sentinel.Desktop.Transfer
import Sentinel.Lib.Ranking
import Sentinel.Vault.Ranking
import Sentinel.Lib.Framing
import Sentinel.Desktop.Serve
import Sentinel.Desktop.Isolation
import Sentinel.Lib.Sealing
import Sentinel.Lib.Serial
import Sentinel.Vault.ItemJson
import Sentinel.Phone.VaultModels
import Sentinel.Vault.Sealed
import Sentinel.Phone.VaultCrypto
import Sentinel.Desktop.WrappedKey
import Sentinel.Phone.Portable
import Sentinel.Phone.Headers
import Sentinel.Lib.Bits
import Sentinel.Vault.RecoveryCode
import Sentinel.Vault.TotpMachine
import Sentinel.Phone.Rfc6238
import Sentinel.Lib.Utf8
import Sentinel.Vpn.Callback
import Sentinel.Pairing.Channel
import Sentinel.Lib.Orbit
import Sentinel.Servers.Listing
import Sentinel.Servers.Metrics
import Sentinel.Vault.Generator
import Sentinel.Vault.Base32
import Sentinel.Lib.Lines
import Sentinel.Lib.Conf
import Sentinel.Lib.Shell
import Sentinel.Api.Text
import Sentinel.Servers.Remote
import Sentinel.Servers.Control
import Sentinel.Servers.Reports
import Sentinel.Vpn.SplitTunnel
import Sentinel.Lib.Cbor
import Sentinel.Vault.WebAuthn
import Sentinel.Servers.Allowlist
import Sentinel.Desktop.Import
