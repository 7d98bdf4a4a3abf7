import Sentinel.Lib.Ranking
import Sentinel.Vault.Matching

/-!
# The order of autofill candidates

`rank_matches` of `crates/core/src/vault/session.rs` keeps the items that match a page and sorts
them by recency alone. The order its comment gives has two keys: the host first.
-/

namespace Sentinel.Vault

open Ranking

/-- `rank_matches`. -/
def rankMatches (parseUrl : String → Option ParsedUrl) (items : List (Item × ItemEnvelope))
    (pageOrigin : String) : List Item :=
  let matched := (items.map Prod.fst).filter fun i => originMatches parseUrl i.urls pageOrigin
  matched.mergeSort fun a b => decide (b.updatedAt ≤ a.updatedAt)

/-- One of the saved addresses has the host of the page. -/
def HostExact (parseUrl : String → Option ParsedUrl) (pageOrigin : String) (i : Item) : Prop :=
  ∃ page, Origin.parse parseUrl pageOrigin = some page ∧
    ∃ u ∈ i.urls, ∃ saved, Origin.parse parseUrl u.url = some saved ∧ saved.host = page.host

/-- The matching items, each once, host-exact first, then by recency. -/
structure HostFirst (parseUrl : String → Option ParsedUrl) (items : List (Item × ItemEnvelope))
    (pageOrigin : String) (ranked : List Item) : Prop where
  matched : ranked.Perm
    ((items.map Prod.fst).filter fun i => originMatches parseUrl i.urls pageOrigin)
  exact_first : ranked.Pairwise fun a b =>
    HostExact parseUrl pageOrigin b → HostExact parseUrl pageOrigin a
  newest_first : ranked.Pairwise fun a b =>
    (HostExact parseUrl pageOrigin a ↔ HostExact parseUrl pageOrigin b) →
      b.updatedAt ≤ a.updatedAt

/-- The ranking is host-exact first just if, among the matching items, no item without the host of
the page is newer than one with it, nor as new and earlier in the list. -/
theorem rankMatches_hostFirst_iff (parseUrl : String → Option ParsedUrl)
    (items : List (Item × ItemEnvelope)) (pageOrigin : String) :
    let matched := (items.map Prod.fst).filter fun i => originMatches parseUrl i.urls pageOrigin
    HostFirst parseUrl items pageOrigin (rankMatches parseUrl items pageOrigin) ↔
      (∀ a ∈ matched, ∀ b ∈ matched, ¬ HostExact parseUrl pageOrigin a →
        HostExact parseUrl pageOrigin b → a.updatedAt ≤ b.updatedAt) ∧
      matched.Pairwise fun a b => a.updatedAt = b.updatedAt →
        HostExact parseUrl pageOrigin b → HostExact parseUrl pageOrigin a := by
  intro matched
  have ranked : rankMatches parseUrl items pageOrigin = sortDesc Item.updatedAt matched := rfl
  rw [ranked, ← pairwise_first_iff]
  constructor
  · intro hostFirst
    exact hostFirst.exact_first
  · intro exact_first
    refine ⟨perm_sortDesc, exact_first, pairwise_sortDesc.imp ?_⟩
    exact fun newer _ => newer

/-! ## A newer item of another host -/

def sampleAddress (text : String) : Option ParsedUrl :=
  if text = "https://example.com" then some ⟨"https", some "example.com", none⟩
  else if text = "https://shop.example.com" then some ⟨"https", some "shop.example.com", none⟩
  else none

def sampleLogin (n : UInt8) (url : String) (updatedAt : Int) : Item where
  id := ⟨List.replicate 16 n, rfl⟩
  itemType := .login
  title := "example"
  tags := []
  urls := [⟨url, .domain⟩]
  notes := none
  customFields := []
  login := none
  card := none
  identity := none
  passkey := none
  createdAt := 0
  updatedAt := updatedAt
  passwordChangedAt := none

def shopLogin : Item := sampleLogin 1 "https://shop.example.com" 2

def siteLogin : Item := sampleLogin 2 "https://example.com" 1

/-- On `example.com` the newer login of `shop.example.com` comes first. -/
theorem rankMatches_shop_first :
    let items : List (Item × ItemEnvelope) := [(shopLogin, ⟨[]⟩), (siteLogin, ⟨[]⟩)]
    rankMatches sampleAddress items "https://example.com" = [shopLogin, siteLogin] ∧
      ¬ HostFirst sampleAddress items "https://example.com"
        (rankMatches sampleAddress items "https://example.com") := by
  intro items
  have matched : ((items.map Prod.fst).filter fun i =>
      originMatches sampleAddress i.urls "https://example.com") = [shopLogin, siteLogin] := rfl
  have ranked : rankMatches sampleAddress items "https://example.com" = [shopLogin, siteLogin] := by
    rw [rankMatches, matched]
    exact List.mergeSort_of_pairwise (List.pairwise_pair.mpr (by decide))
  refine ⟨ranked, fun hostFirst => ?_⟩
  have order := hostFirst.exact_first
  rw [ranked, List.pairwise_pair] at order
  have site : HostExact sampleAddress "https://example.com" siteLogin :=
    ⟨⟨"https", "example.com", none⟩, by decide, ⟨"https://example.com", .domain⟩,
      List.mem_singleton_self _, ⟨"https", "example.com", none⟩, by decide, rfl⟩
  obtain ⟨page, pageParsed, u, mem, saved, savedParsed, same⟩ := order site
  cases pageParsed.symm.trans (show _ = some ⟨"https", "example.com", none⟩ by decide)
  rw [show shopLogin.urls = [⟨"https://shop.example.com", .domain⟩] from rfl,
    List.mem_singleton] at mem
  subst mem
  cases savedParsed.symm.trans (show _ = some ⟨"https", "shop.example.com", none⟩ by decide)
  revert same
  decide

end Sentinel.Vault
