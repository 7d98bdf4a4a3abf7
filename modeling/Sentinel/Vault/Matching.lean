import Sentinel.Vault.Envelope

/-!
# Which saved addresses match a page

`origin_matches` of `crates/core/src/vault/session.rs`, the check before a field of an item
is released to a page. The parser of addresses is third-party code and a parameter.
-/

namespace Sentinel.Vault

/-- What `url::Url` says of an address; the port is absent where it is the scheme's own. -/
structure ParsedUrl where
  scheme : String
  host : Option String
  port : Option Nat
  deriving DecidableEq, Repr

/-- `str::to_ascii_lowercase`. -/
def asciiLower (s : String) : String := String.ofList (s.toList.map Char.toLower)

structure Origin where
  scheme : String
  host : String
  port : Option Nat
  deriving DecidableEq, Repr

/-- `Origin::parse`. -/
def Origin.parse (parseUrl : String → Option ParsedUrl) (s : String) : Option Origin := do
  let url ← parseUrl s
  let host ← url.host
  pure { scheme := url.scheme, host := asciiLower host, port := url.port }

/-- `TWO_LABEL_SUFFIXES`. -/
def twoLabelSuffixes : List String :=
  ["co.uk", "org.uk", "gov.uk", "ac.uk", "co.jp", "or.jp", "ne.jp", "com.au", "net.au", "org.au",
    "co.nz", "com.br", "com.mx", "co.in", "co.za", "com.sg"]

/-- `registrable_domain`: the last two labels, or three under a suffix of two. -/
def registrableDomain (host : String) : String :=
  match (host.toList.splitOn '.').reverse with
  | last :: second :: third :: _ =>
      let last2 := String.ofList (second ++ '.' :: last)
      if last2 ∈ twoLabelSuffixes then String.ofList (third ++ '.' :: last2.toList) else last2
  | _ => host

/-- `origin_matches`. -/
def originMatches (parseUrl : String → Option ParsedUrl) (urls : List UrlMatch)
    (pageOrigin : String) : Bool :=
  match Origin.parse parseUrl pageOrigin with
  | none => false
  | some page => urls.any fun u =>
      match Origin.parse parseUrl u.url with
      | none => false
      | some saved =>
          -- an https-saved credential never fills on a plain-http page
          if saved.scheme = "https" ∧ page.scheme = "http" then false
          else if saved.port ≠ page.port then false
          else match u.mode with
            | .host => decide (saved.host = page.host)
            | .domain => decide (registrableDomain saved.host = registrableDomain page.host)

end Sentinel.Vault
