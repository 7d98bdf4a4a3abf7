import Sentinel.Vault.SameSite

/-!
# The extension's own matching

`matching.ts` of the browser extension, which decides again what `origin_matches` decides on
the desktop. Both read addresses by the URL standard; where an address has no host, the
desktop's parser reports none and the browser's the empty text.
-/

namespace Sentinel.Extension

open Vault (UrlMatch asciiLower)

/-- A parsed address of the URL standard; the host name is empty where there is no host. A
host is written in ASCII, one of the special schemes has a host, and only a host has a
port. -/
structure WhatwgUrl where
  scheme : String
  hostname : String
  port : Option Nat
  scheme_plain : ':' ∉ scheme.toList
  hostname_ascii : ∀ c ∈ hostname.toList, c.toNat < 128
  special_host : scheme = "https" → hostname ≠ ""
  port_host : hostname = "" → port = none

/-- `url::Url`: an absent host is none. -/
def WhatwgUrl.parsed (u : WhatwgUrl) : Vault.ParsedUrl where
  scheme := u.scheme
  host := if u.hostname = "" then none else some u.hostname
  port := u.port

/-- `URL.protocol`. -/
def WhatwgUrl.protocol (u : WhatwgUrl) : String := u.scheme ++ ":"

/-- `URL.port`. -/
def WhatwgUrl.portText (u : WhatwgUrl) : String := (u.port.map Nat.repr).getD ""

/-- `String.prototype.toLowerCase`, of which only the ASCII letters matter. -/
structure LowerCase where
  toLowerCase : String → String
  ascii : ∀ s, (∀ c ∈ s.toList, c.toNat < 128) → toLowerCase s = asciiLower s

/-- `null` is the scheme's default port. -/
structure Origin where
  scheme : String
  host : String
  port : Option String
  deriving DecidableEq, Repr

section Matching

variable (js : LowerCase) (parse : String → Option WhatwgUrl)

/-- `parseOrigin`. -/
def parseOrigin (input : String) : Option Origin :=
  match parse input with
  | none => none
  | some u =>
      some {
        scheme := String.ofList (u.protocol.toList.erase ':')
        host := js.toLowerCase u.hostname
        port := if u.portText = "" then none else some u.portText }

/-- `labels.slice(-n).join(".")`. -/
def joinLast (n : Nat) (labels : List (List Char)) : String :=
  String.ofList (['.'].intercalate (labels.drop (labels.length - n)))

/-- `registrableDomain`. -/
def registrableDomain (host : String) : String :=
  let labels := host.toList.splitOn '.'
  if labels.length ≤ 2 then host
  else
    let last2 := joinLast 2 labels
    if last2 ∈ Vault.twoLabelSuffixes ∧ 3 ≤ labels.length then joinLast 3 labels else last2

/-- `urlMatches`. -/
def urlMatches (saved : UrlMatch) (pageOrigin : String) : Bool :=
  match parseOrigin js parse saved.url, parseOrigin js parse pageOrigin with
  | some s, some p =>
      if s.scheme = "https" ∧ p.scheme = "http" then false
      else if s.port ≠ p.port then false
      else
        match saved.mode with
        | .host => decide (s.host = p.host)
        | .domain => decide (registrableDomain s.host = registrableDomain p.host)
  | _, _ => false

def sameSite (a b : String) : Bool :=
  match parseOrigin js parse a, parseOrigin js parse b with
  | some oa, some ob => decide (registrableDomain oa.host = registrableDomain ob.host)
  | _, _ => false

/-- `originMatches`. -/
def originMatches (urls : List UrlMatch) (pageOrigin : String) (topOrigin : Option String) : Bool :=
  match topOrigin with
  | some top =>
      if top ≠ "" ∧ sameSite js parse pageOrigin top = false then false
      else urls.any fun u => urlMatches js parse u pageOrigin
  | none => urls.any fun u => urlMatches js parse u pageOrigin

end Matching

/-! ## The two implementations -/

theorem joinLast_append (front last : List (List Char)) :
    joinLast last.length (front ++ last) = String.ofList (['.'].intercalate last) := by
  rw [joinLast, List.length_append, Nat.add_sub_cancel, List.drop_left]

/-- The two registrable domains are one function. -/
theorem registrableDomain_eq (host : String) :
    registrableDomain host = Vault.registrableDomain host := by
  by_cases short : (Vault.labels host).length ≤ 2
  · rw [Vault.registrableDomain_of_short short]
    exact if_pos short
  · obtain ⟨front, third, second, last, parts⟩ :=
      Vault.exists_last_three (Nat.lt_of_not_le short)
    have three : joinLast 3 (front ++ [third, second, last]) =
        String.ofList (['.'].intercalate [third, second, last]) :=
      joinLast_append front [third, second, last]
    have two : joinLast 2 (front ++ [third, second, last]) =
        String.ofList (['.'].intercalate [second, last]) := by
      rw [show front ++ [third, second, last] = front ++ [third] ++ [second, last] by simp]
      exact joinLast_append (front ++ [third]) [second, last]
    rw [Vault.registrableDomain_eq parts]
    have long : ¬ (front ++ [third, second, last]).length ≤ 2 := by
      simp
    unfold registrableDomain
    rw [show host.toList.splitOn '.' = front ++ [third, second, last] from parts]
    simp only [if_neg long, two, three]
    by_cases listed : String.ofList (['.'].intercalate [second, last]) ∈ Vault.twoLabelSuffixes
    · rw [if_pos ⟨listed, Nat.lt_of_not_le long⟩, if_pos listed]
    · rw [if_neg fun both => listed both.1, if_neg listed]

theorem asciiLower_eq_empty {s : String} : asciiLower s = "" ↔ s = "" := by
  rw [asciiLower, ← String.toList_inj, String.toList_ofList, ← String.toList_inj]
  simp

section Agreement

variable {js : LowerCase} {parse : String → Option WhatwgUrl}

/-- The desktop's parser. -/
def desktopParse (parse : String → Option WhatwgUrl) (s : String) : Option Vault.ParsedUrl :=
  (parse s).map WhatwgUrl.parsed

/-- An address without a host. -/
def Hostless (parse : String → Option WhatwgUrl) (s : String) : Prop :=
  ∃ u, parse s = some u ∧ u.hostname = ""

theorem parseOrigin_of_some {s : String} {u : WhatwgUrl} (parsed : parse s = some u) :
    parseOrigin js parse s =
      some { scheme := u.scheme, host := asciiLower u.hostname, port := u.port.map Nat.repr } := by
  have scheme : String.ofList (u.protocol.toList.erase ':') = u.scheme := by
    rw [WhatwgUrl.protocol, String.toList_append, List.erase_append_right _ u.scheme_plain]
    simp
  have port : (if u.portText = "" then none else some u.portText) = u.port.map Nat.repr := by
    cases named : u.port with
    | none => simp [WhatwgUrl.portText, named]
    | some n =>
        simp [WhatwgUrl.portText, named, Nat.repr_ne_empty]
  simp only [parseOrigin, parsed, scheme, port, js.ascii _ u.hostname_ascii]

theorem desktop_parse_of_some {s : String} {u : WhatwgUrl} (parsed : parse s = some u) :
    Vault.Origin.parse (desktopParse parse) s =
      if u.hostname = "" then none
      else some { scheme := u.scheme, host := asciiLower u.hostname, port := u.port } := by
  by_cases hostless : u.hostname = "" <;>
    simp [Vault.Origin.parse, desktopParse, parsed, WhatwgUrl.parsed, hostless]

theorem desktop_parse_of_none {s : String} (failed : parse s = none) :
    Vault.Origin.parse (desktopParse parse) s = none := by
  simp [Vault.Origin.parse, desktopParse, failed]

/-- An address with a host against one without: their registrable domains differ. -/
theorem registrableDomain_ne {a b : String} (hosted : a ≠ "") (hostless : b = "") :
    Vault.registrableDomain (asciiLower a) ≠ Vault.registrableDomain (asciiLower b) := by
  intro same
  rw [hostless] at same
  exact hosted (asciiLower_eq_empty.mp
    (Vault.eq_empty_of_registrableDomain (same.trans (by decide))))

/-- What the extension decides of two parsed addresses. -/
theorem urlMatches_of_some {saved : UrlMatch} {pageOrigin : String} {s p : WhatwgUrl}
    (savedParsed : parse saved.url = some s) (pageParsed : parse pageOrigin = some p) :
    urlMatches js parse saved pageOrigin = true ↔
      ¬ (s.scheme = "https" ∧ p.scheme = "http") ∧ s.port = p.port ∧
        Vault.HostsMatch saved.mode (asciiLower s.hostname) (asciiLower p.hostname) := by
  have ports : s.port.map Nat.repr = p.port.map Nat.repr ↔ s.port = p.port :=
    (Option.map_injective fun _ _ => Nat.repr_injective).eq_iff
  unfold urlMatches
  rw [parseOrigin_of_some savedParsed, parseOrigin_of_some pageParsed]
  simp only [registrableDomain_eq, ne_eq, ports]
  by_cases downgrade : s.scheme = "https" ∧ p.scheme = "http"
  · simp [downgrade]
  · by_cases same : s.port = p.port
    · cases saved.mode <;> simp [downgrade, same]
    · simp [same]

/-- What the desktop decides of them. -/
theorem desktop_of_some {saved : UrlMatch} {pageOrigin : String} {s p : WhatwgUrl}
    (savedParsed : parse saved.url = some s) (pageParsed : parse pageOrigin = some p) :
    Vault.originMatches (desktopParse parse) [saved] pageOrigin = true ↔
      (s.hostname ≠ "" ∧ p.hostname ≠ "") ∧
        ¬ (s.scheme = "https" ∧ p.scheme = "http") ∧ s.port = p.port ∧
        Vault.HostsMatch saved.mode (asciiLower s.hostname) (asciiLower p.hostname) := by
  rw [Vault.originMatches_iff, Vault.Guaranteed]
  simp only [List.mem_singleton, exists_eq_left, desktop_parse_of_some savedParsed,
    desktop_parse_of_some pageParsed]
  by_cases hosted : s.hostname = ""
  · simp [hosted]
  · by_cases pageHosted : p.hostname = ""
    · simp [pageHosted]
    · simp [hosted, pageHosted, Vault.Downgrade]

/-- One saved address: the extension also matches two addresses without a host. -/
theorem urlMatches_iff {saved : UrlMatch} {pageOrigin : String} :
    urlMatches js parse saved pageOrigin = true ↔
      Vault.originMatches (desktopParse parse) [saved] pageOrigin = true ∨
        Hostless parse saved.url ∧ Hostless parse pageOrigin := by
  cases savedParsed : parse saved.url with
  | none =>
      have refused : Vault.originMatches (desktopParse parse) [saved] pageOrigin ≠ true := by
        intro matches_
        obtain ⟨u, mem, s, p, parsed, -⟩ := Vault.originMatches_iff.mp matches_
        rw [List.mem_singleton.mp mem, desktop_parse_of_none savedParsed] at parsed
        cases parsed
      simp [urlMatches, parseOrigin, savedParsed, Hostless, refused]
  | some s =>
      cases pageParsed : parse pageOrigin with
      | none =>
          have refused : Vault.originMatches (desktopParse parse) [saved] pageOrigin ≠ true := by
            intro matches_
            obtain ⟨u, mem, s, p, -, parsed, -⟩ := Vault.originMatches_iff.mp matches_
            rw [desktop_parse_of_none pageParsed] at parsed
            cases parsed
          simp [urlMatches, parseOrigin, savedParsed, pageParsed, Hostless, refused]
      | some p =>
          rw [urlMatches_of_some savedParsed pageParsed, desktop_of_some savedParsed pageParsed]
          have savedHostless : Hostless parse saved.url ↔ s.hostname = "" := by
            simp [Hostless, savedParsed]
          have pageHostless : Hostless parse pageOrigin ↔ p.hostname = "" := by
            simp [Hostless, pageParsed]
          rw [savedHostless, pageHostless]
          by_cases hostless : s.hostname = ""
          · by_cases pageHost : p.hostname = ""
            · -- no `https` and no port on either side
              have scheme : s.scheme ≠ "https" := fun https => s.special_host https hostless
              have ports : s.port = p.port := by
                rw [s.port_host hostless, p.port_host pageHost]
              have hosts : Vault.HostsMatch saved.mode (asciiLower s.hostname)
                  (asciiLower p.hostname) := by
                rw [hostless, pageHost]
                exact Vault.HostsMatch.refl ..
              exact iff_of_true ⟨fun downgrade => scheme downgrade.1, ports, hosts⟩
                (.inr ⟨hostless, pageHost⟩)
            · have hosts : ¬ Vault.HostsMatch saved.mode (asciiLower s.hostname)
                  (asciiLower p.hostname) := fun same =>
                registrableDomain_ne pageHost hostless same.domain.symm
              refine iff_of_false (fun allowed => hosts allowed.2.2) ?_
              rintro (both | neither)
              · exact both.1.1 hostless
              · exact pageHost neither.2
          · by_cases pageHost : p.hostname = ""
            · have hosts : ¬ Vault.HostsMatch saved.mode (asciiLower s.hostname)
                  (asciiLower p.hostname) := fun same =>
                registrableDomain_ne hostless pageHost same.domain
              refine iff_of_false (fun allowed => hosts allowed.2.2) ?_
              rintro (both | neither)
              · exact both.1.2 pageHost
              · exact hostless neither.1
            · constructor
              · intro allowed
                exact .inl ⟨⟨hostless, pageHost⟩, allowed⟩
              · rintro (both | neither)
                · exact both.2
                · exact absurd neither.1 hostless

/-- The desktop judges the addresses one by one. -/
theorem desktop_any {urls : List UrlMatch} {pageOrigin : String} :
    Vault.originMatches (desktopParse parse) urls pageOrigin = true ↔
      ∃ u ∈ urls, Vault.originMatches (desktopParse parse) [u] pageOrigin = true := by
  simp only [Vault.originMatches_iff, Vault.Guaranteed, List.mem_singleton, exists_eq_left]

end Agreement

/-- The extension and the desktop agree unless neither the page nor one of the addresses has a
host. -/
theorem originMatches_eq_iff (js : LowerCase) (parse : String → Option WhatwgUrl)
    (urls : List UrlMatch) (pageOrigin : String) :
    originMatches js parse urls pageOrigin none =
        Vault.originMatches (desktopParse parse) urls pageOrigin ↔
      ¬ (Hostless parse pageOrigin ∧ ∃ u ∈ urls, Hostless parse u.url) := by
  rw [originMatches, Bool.eq_iff_iff, List.any_eq_true, desktop_any]
  simp only [urlMatches_iff]
  constructor
  · rintro same ⟨page, u, mem, hostless⟩
    obtain ⟨v, -, matches_⟩ := same.mp ⟨u, mem, .inr ⟨hostless, page⟩⟩
    -- the desktop finds no host in the page's address
    obtain ⟨w, -, saved, origin, -, parsed, -⟩ := Vault.originMatches_iff.mp matches_
    obtain ⟨p, pageParsed, empty⟩ := page
    rw [desktop_parse_of_some pageParsed, if_pos empty] at parsed
    cases parsed
  · intro hosted
    constructor
    · rintro ⟨u, mem, matches_ | ⟨hostless, page⟩⟩
      · exact ⟨u, mem, matches_⟩
      · exact absurd ⟨page, u, mem, hostless⟩ hosted
    · rintro ⟨u, mem, matches_⟩
      exact ⟨u, mem, .inl matches_⟩

/-- `toLowerCase` on ASCII. -/
def asciiJs : LowerCase where
  toLowerCase := asciiLower
  ascii _ _ := rfl

/-- `about:blank` has no host. -/
def blankParse (s : String) : Option WhatwgUrl :=
  if s = "about:blank" then
    some { scheme := "about", hostname := "", port := none, scheme_plain := by decide
           hostname_ascii := by simp, special_host := by simp, port_host := fun _ => rfl }
  else none

/-- The extension fills a blank page from a saved blank page, which the desktop refuses. -/
theorem blank_page_differs :
    originMatches asciiJs blankParse [⟨"about:blank", .domain⟩] "about:blank" none ≠
      Vault.originMatches (desktopParse blankParse) [⟨"about:blank", .domain⟩] "about:blank" := by
  decide

end Sentinel.Extension
