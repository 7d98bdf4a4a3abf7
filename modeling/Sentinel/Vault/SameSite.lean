import Sentinel.Lib.Labels
import Sentinel.Vault.Matching

/-!
# Autofill stays on the site

What `origin_matches` lets through. Hosts are read as lists of labels: `registrable_domain`
keeps the last labels of a host, one more than the longest public suffix the source knows, and
two hosts with the same registrable domain share them.
-/

namespace Sentinel.Vault

def labels (host : String) : List (List Char) := host.toList.splitOn '.'

/-- The public suffixes of the source: every single label, and the listed ones of two. -/
def PublicSuffix (p : List (List Char)) : Prop :=
  p.length = 1 ∨ String.ofList (['.'].intercalate p) ∈ twoLabelSuffixes

/-- A common suffix of labels, longer than the public suffixes of either list. -/
def SharesSite (a b : List (List Char)) : Prop :=
  ∃ s, s <:+ a ∧ s <:+ b ∧ ∀ p, PublicSuffix p → p <:+ a ∨ p <:+ b → p.length < s.length

/-! ## Registrable domains -/

theorem labels_injective {a b : String} : labels a = labels b ↔ a = b := by
  rw [labels, labels, Labels.splitOn_injective, String.toList_inj]

/-- The host as its last labels say. -/
theorem registrableDomain_eq {host : String} {front : List (List Char)}
    {third second last : List Char} (parts : labels host = front ++ [third, second, last]) :
    registrableDomain host =
      String.ofList (['.'].intercalate
        (if String.ofList (['.'].intercalate [second, last]) ∈ twoLabelSuffixes then
          [third, second, last]
        else [second, last])) := by
  have reversed : (host.toList.splitOn '.').reverse = last :: second :: third :: front.reverse := by
    rw [← labels, parts]
    simp
  have two : ['.'].intercalate [second, last] = second ++ '.' :: last := by
    simp [List.intercalate]
  have three : ['.'].intercalate [third, second, last] = third ++ '.' :: (second ++ '.' :: last) := by
    simp [List.intercalate]
  rw [two, registrableDomain, reversed]
  by_cases listed : String.ofList (second ++ '.' :: last) ∈ twoLabelSuffixes
  · simp only [listed, if_true, three, String.toList_ofList]
  · simp only [listed, if_false, two]

theorem registrableDomain_of_short {host : String} (short : (labels host).length ≤ 2) :
    registrableDomain host = host := by
  rw [← List.length_reverse] at short
  unfold registrableDomain
  split
  · rename_i last second third rest parts
    rw [labels, parts] at short
    simp at short
  · rfl

theorem exists_last_three {host : String} (long : 3 ≤ (labels host).length) :
    ∃ front third second last, labels host = front ++ [third, second, last] := by
  obtain ⟨third, second, last, three⟩ := List.length_eq_three.mp
    (show ((labels host).drop ((labels host).length - 3)).length = 3 by
      rw [List.length_drop]; omega)
  exact ⟨_, third, second, last, by rw [← three, List.take_append_drop]⟩

/-- A host of three labels or more, with the labels that its registrable domain keeps. -/
theorem labels_registrableDomain {host : String} (long : 3 ≤ (labels host).length) :
    ∃ third second last, [third, second, last] <:+ labels host ∧
      labels (registrableDomain host) =
        if String.ofList (['.'].intercalate [second, last]) ∈ twoLabelSuffixes then
          [third, second, last]
        else [second, last] := by
  obtain ⟨front, third, second, last, parts⟩ := exists_last_three long
  have suffix : [third, second, last] <:+ labels host := ⟨_, parts.symm⟩
  refine ⟨third, second, last, suffix, ?_⟩
  rw [registrableDomain_eq parts, labels, String.toList_ofList]
  split
  · exact Labels.splitOn_intercalate_suffix suffix (List.cons_ne_nil _ _)
  · exact Labels.splitOn_intercalate_suffix
      ((List.suffix_cons third [second, last]).trans suffix) (List.cons_ne_nil _ _)

/-- The labels of the registrable domain end those of the host. -/
theorem registrableDomain_suffix (host : String) :
    labels (registrableDomain host) <:+ labels host := by
  by_cases long : 3 ≤ (labels host).length
  · obtain ⟨third, second, last, suffix, kept⟩ := labels_registrableDomain long
    rw [kept]
    split
    · exact suffix
    · exact (List.suffix_cons third [second, last]).trans suffix
  · rw [registrableDomain_of_short (by omega)]

/-- The labels of a listed suffix are two. -/
theorem length_of_listed {p : List (List Char)} {host : String} (ends : p <:+ labels host)
    (nonempty : p ≠ []) (listed : String.ofList (['.'].intercalate p) ∈ twoLabelSuffixes) :
    p.length = 2 := by
  have two : ∀ text ∈ twoLabelSuffixes, (labels text).length = 2 := by decide
  have parts := Labels.splitOn_intercalate_suffix ends nonempty
  have count := two _ listed
  rwa [labels, String.toList_ofList, parts] at count

/-- The registrable domain of a longer host is longer than its public suffixes. -/
theorem publicSuffix_lt {host : String} (long : 3 ≤ (labels host).length)
    {p : List (List Char)} (public_ : PublicSuffix p) (ends : p <:+ labels host) :
    p.length < (labels (registrableDomain host)).length := by
  obtain ⟨third, second, last, suffix, kept⟩ := labels_registrableDomain long
  rw [kept]
  obtain one | listed := public_
  · split <;> simp [one]
  · by_cases empty : p = []
    · split <;> simp [empty]
    · have two := length_of_listed ends empty listed
      have same : p = [second, last] :=
        (List.suffix_of_suffix_length_le ends
          ((List.suffix_cons third [second, last]).trans suffix) (by simp [two])).eq_of_length
          (by simp [two])
      rw [same] at listed
      rw [if_pos listed, two]
      exact Nat.lt_succ_self 2

/-- Different hosts with the same registrable domain share a site. -/
theorem sharesSite_of_registrableDomain {a b : String}
    (same : registrableDomain a = registrableDomain b) (differ : a ≠ b) :
    SharesSite (labels a) (labels b) := by
  have endsA := registrableDomain_suffix a
  have endsB := registrableDomain_suffix b
  have longer : ∀ p, PublicSuffix p → p <:+ labels a ∨ p <:+ labels b →
      p.length < (labels (registrableDomain a)).length := by
    by_cases longA : 3 ≤ (labels a).length
    · by_cases longB : 3 ≤ (labels b).length
      · rintro p public_ (ends | ends)
        · exact publicSuffix_lt longA public_ ends
        · rw [same]
          exact publicSuffix_lt longB public_ ends
      · -- `b` is the registrable domain of `a`
        have whole := @registrableDomain_of_short b (by omega)
        rintro p public_ (ends | ends)
        · exact publicSuffix_lt longA public_ ends
        · rw [← whole, ← same] at ends
          exact publicSuffix_lt longA public_ (ends.trans endsA)
    · have whole := @registrableDomain_of_short a (by omega)
      by_cases longB : 3 ≤ (labels b).length
      · rw [same]
        rintro p public_ (ends | ends)
        · rw [← whole, same] at ends
          exact publicSuffix_lt longB public_ (ends.trans endsB)
        · exact publicSuffix_lt longB public_ ends
      · rw [whole, @registrableDomain_of_short b (by omega)] at same
        exact absurd same differ
  exact ⟨_, endsA, same ▸ endsB, longer⟩

/-- A name that is no public suffix fixes the registrable domain of the hosts under it. -/
theorem registrableDomain_of_suffix {name host : String} (ends : labels name <:+ labels host)
    (notPublic : ¬ PublicSuffix (labels name)) :
    registrableDomain host = registrableDomain name := by
  have nonempty : (labels name).length ≠ 0 := fun none_ =>
    List.splitOn_ne_nil _ _ (List.length_eq_zero_iff.mp none_)
  have several : (labels name).length ≠ 1 := fun one => notPublic (.inl one)
  by_cases long : 3 ≤ (labels name).length
  · obtain ⟨front, third, second, last, parts⟩ := exists_last_three long
    obtain ⟨more, whole⟩ := ends
    rw [registrableDomain_eq parts, @registrableDomain_eq host (more ++ front) third second last
      (by rw [← whole, parts, List.append_assoc])]
  · have two : (labels name).length = 2 := by omega
    rw [@registrableDomain_of_short name (by omega)]
    by_cases longer : 3 ≤ (labels host).length
    · obtain ⟨front, third, second, last, parts⟩ := exists_last_three longer
      have same : labels name = [second, last] := by
        have ends' : [second, last] <:+ labels host := by
          rw [parts]
          exact ⟨front ++ [third], by simp⟩
        exact (List.suffix_of_suffix_length_le ends ends' (by simp [two])).eq_of_length
          (by simp [two])
      have text : String.ofList (['.'].intercalate [second, last]) = name := by
        rw [← same, labels, List.intercalate_splitOn, String.ofList_toList]
      have unlisted : name ∉ twoLabelSuffixes := by
        intro listed
        exact notPublic (.inr (by rwa [same, text]))
      rw [registrableDomain_eq parts, text, if_neg unlisted, text]
    · have whole : labels name = labels host := ends.eq_of_length_le (by omega)
      rw [@registrableDomain_of_short host (by omega), labels_injective.mp whole]

/-- A public suffix with one label more is its own registrable domain. -/
theorem registrableDomain_of_cons {host : String} {l : List Char} {p : List (List Char)}
    (parts : labels host = l :: p) (nonempty : p ≠ []) (public_ : PublicSuffix p) :
    registrableDomain host = host := by
  obtain one | listed := public_
  · exact registrableDomain_of_short (by rw [parts, List.length_cons, one])
  · have two := length_of_listed (parts ▸ List.suffix_cons l p) nonempty listed
    obtain ⟨second, last, rfl⟩ := List.length_eq_two.mp two
    rw [@registrableDomain_eq host [] l second last parts, if_pos listed, ← parts, labels,
      List.intercalate_splitOn, String.ofList_toList]

/-! ## What a match guarantees -/

/-- The default ports of the URL standard. -/
def defaultPort : String → Option Nat
  | "http" => some 80
  | "https" => some 443
  | "ws" => some 80
  | "wss" => some 443
  | "ftp" => some 21
  | _ => none

def Origin.effectivePort (o : Origin) : Option Nat := o.port.or (defaultPort o.scheme)

/-- A host that is an IP address: four numbers below 256, or an address in brackets. -/
def isIpLiteral (host : String) : Bool :=
  decide (host.toList.head? = some '[') ||
    (decide ((labels host).length = 4) && (labels host).all fun l =>
      !l.isEmpty && l.all Char.isDigit && decide (Nat.ofDigitChars 10 l 0 < 256))

def endsInDot (host : String) : Bool := decide (host.toList.getLast? = some '.')

/-- The host without one trailing dot. -/
def withoutDot (host : String) : String :=
  if endsInDot host then String.ofList host.toList.dropLast else host

/-- An `https` address is saved and the page is plain `http`. -/
def Downgrade (saved page : Origin) : Prop := saved.scheme = "https" ∧ page.scheme = "http"

/-- The same host, or in domain mode a name of the same site. -/
def OnSite (mode : UrlMode) (saved page : Origin) : Prop :=
  withoutDot saved.host = withoutDot page.host ∨
    (mode = .domain ∧ isIpLiteral saved.host = false ∧ isIpLiteral page.host = false ∧
      SharesSite (labels (withoutDot saved.host)) (labels (withoutDot page.host)))

/-- The ports are those the addresses name, the page is no downgrade, and the host is the same,
or, in domain mode, a name of the same site unless a host is an IP address or both end in a
dot. -/
def Stays (mode : UrlMode) (saved page : Origin) : Prop :=
  saved.port = page.port ∧ ¬ Downgrade saved page ∧
    (withoutDot saved.host = withoutDot page.host ∨
      (mode = .domain ∧
        (isIpLiteral saved.host = false → isIpLiteral page.host = false →
          ¬ (endsInDot saved.host = true ∧ endsInDot page.host = true) →
          SharesSite (labels (withoutDot saved.host)) (labels (withoutDot page.host)))))

/-- The comparison of the hosts in a mode. -/
def HostsMatch : UrlMode → String → String → Prop
  | .host, a, b => a = b
  | .domain, a, b => registrableDomain a = registrableDomain b

@[simp] theorem hostsMatch_host {a b : String} : HostsMatch .host a b ↔ a = b := Iff.rfl

@[simp] theorem hostsMatch_domain {a b : String} :
    HostsMatch .domain a b ↔ registrableDomain a = registrableDomain b := Iff.rfl

theorem HostsMatch.refl (mode : UrlMode) (a : String) : HostsMatch mode a a := by
  cases mode <;> simp

theorem HostsMatch.domain {mode : UrlMode} {a b : String} (same : HostsMatch mode a b) :
    registrableDomain a = registrableDomain b := by
  cases mode with
  | host => rw [hostsMatch_host.mp same]
  | domain => exact same

/-- One of the addresses guarantees the page, judged by `allows`. -/
def Guaranteed (parseUrl : String → Option ParsedUrl) (urls : List UrlMatch) (pageOrigin : String)
    (allows : UrlMode → Origin → Origin → Prop) : Prop :=
  ∃ u ∈ urls, ∃ saved page, Origin.parse parseUrl u.url = some saved ∧
    Origin.parse parseUrl pageOrigin = some page ∧ allows u.mode saved page

theorem originMatches_iff {parseUrl : String → Option ParsedUrl} {urls : List UrlMatch}
    {pageOrigin : String} : originMatches parseUrl urls pageOrigin = true ↔
      Guaranteed parseUrl urls pageOrigin fun mode saved page =>
        ¬ Downgrade saved page ∧ saved.port = page.port ∧
          HostsMatch mode saved.host page.host := by
  unfold originMatches Guaranteed
  cases pageParsed : Origin.parse parseUrl pageOrigin with
  | none => simp
  | some page =>
      simp only [List.any_eq_true]
      refine exists_congr fun u => and_congr_right fun _ => ?_
      cases savedParsed : Origin.parse parseUrl u.url with
      | none => simp
      | some saved =>
          by_cases downgrade : saved.scheme = "https" ∧ page.scheme = "http"
          · have refused : Downgrade saved page := downgrade
            simp [downgrade, refused]
          · have allowed : ¬ Downgrade saved page := downgrade
            by_cases ports : saved.port = page.port
            · cases u.mode <;> simp [downgrade, allowed, ports]
            · simp [downgrade, ports]

theorem endsInDot_iff {host : String} (nonempty : host ≠ "") :
    endsInDot host = true ↔ [[]] <:+ labels host := by
  have chars : host.toList ≠ [] := by
    simpa using nonempty
  rw [labels, ← List.splitOn_nil '.', Labels.splitOn_suffix_iff, endsInDot, decide_eq_true_iff,
    List.getLast?_eq_some_iff]
  simp [chars]

theorem eq_empty_of_registrableDomain {host : String} (empty : registrableDomain host = "") :
    host = "" := by
  by_cases long : 3 ≤ (labels host).length
  · obtain ⟨third, second, last, -, kept⟩ := labels_registrableDomain long
    rw [empty] at kept
    have one : (labels "").length = 1 := rfl
    rw [kept] at one
    split at one <;> simp at one
  · rwa [registrableDomain_of_short (by omega)] at empty

/-- Of two hosts with the same registrable domain both end in a dot, or neither does. -/
theorem endsInDot_congr {a b : String} (same : registrableDomain a = registrableDomain b) :
    endsInDot a = endsInDot b := by
  by_cases emptyA : a = ""
  · subst emptyA
    rw [@eq_empty_of_registrableDomain b (same.symm.trans rfl)]
  · by_cases emptyB : b = ""
    · subst emptyB
      exact absurd (eq_empty_of_registrableDomain (same.trans rfl)) emptyA
    · have last : ∀ host, [[]] <:+ labels host ↔ [[]] <:+ labels (registrableDomain host) := by
        intro host
        have ends := registrableDomain_suffix host
        constructor
        · intro dot
          refine List.suffix_of_suffix_length_le dot ends ?_
          exact List.length_pos_iff.mpr (List.splitOn_ne_nil _ _)
        · intro dot
          exact dot.trans ends
      rw [Bool.eq_iff_iff, endsInDot_iff emptyA, endsInDot_iff emptyB, last a, last b, same]

/-- A match stays on the site. -/
theorem originMatches_stays (parseUrl : String → Option ParsedUrl) (urls : List UrlMatch)
    (pageOrigin : String) (matches_ : originMatches parseUrl urls pageOrigin = true) :
    Guaranteed parseUrl urls pageOrigin Stays := by
  obtain ⟨u, mem, saved, page, savedParsed, pageParsed, allowed, ports, hosts⟩ :=
    originMatches_iff.mp matches_
  refine ⟨u, mem, saved, page, savedParsed, pageParsed, ports, allowed, ?_⟩
  by_cases equal : saved.host = page.host
  · left
    rw [equal]
  · right
    cases mode : u.mode with
    | host =>
        rw [mode] at hosts
        exact absurd hosts equal
    | domain =>
        rw [mode] at hosts
        refine ⟨rfl, fun _ _ dots => ?_⟩
        have congr := endsInDot_congr hosts
        have plainSaved : endsInDot saved.host = false := by
          by_contra dot
          rw [Bool.not_eq_false] at dot
          exact dots ⟨dot, congr ▸ dot⟩
        have plainPage : endsInDot page.host = false := congr ▸ plainSaved
        rw [withoutDot, withoutDot, plainSaved, plainPage]
        exact sharesSite_of_registrableDomain hosts equal

/-- Addresses of one site, over `http` and over `https`. -/
def sampleParse (text : String) : Option ParsedUrl :=
  if text = "http://example.com" then some ⟨"http", some "example.com", none⟩
  else if text = "https://example.com" then some ⟨"https", some "example.com", none⟩
  else if text = "https://www.example.com" then some ⟨"https", some "www.example.com", none⟩
  else none

theorem originMatches_stays_example : Guaranteed sampleParse
    [⟨"https://example.com", .domain⟩] "https://www.example.com" Stays :=
  originMatches_stays sampleParse _ _ (by decide)

/-- A default port is no port: the saved `http` address matches the `https` page, whose
effective port is another. -/
theorem default_ports_match :
    ¬ (originMatches sampleParse [⟨"http://example.com", .domain⟩] "https://example.com" = true →
      Guaranteed sampleParse [⟨"http://example.com", .domain⟩] "https://example.com"
        fun mode saved page => saved.effectivePort = page.effectivePort ∧
          ¬ Downgrade saved page ∧ OnSite mode saved page) := by
  intro claimed
  obtain ⟨u, mem, saved, page, savedParsed, pageParsed, ports, -⟩ := claimed (by decide)
  rw [List.mem_singleton] at mem
  subst mem
  cases savedParsed.symm.trans (show _ = some ⟨"http", "example.com", none⟩ by decide)
  cases pageParsed.symm.trans (show _ = some ⟨"https", "example.com", none⟩ by decide)
  revert ports
  decide

/-- Numbers are labels: private addresses of different networks have one "domain". -/
example : registrableDomain "192.168.1.10" = registrableDomain "10.0.1.10" := by decide

end Sentinel.Vault
