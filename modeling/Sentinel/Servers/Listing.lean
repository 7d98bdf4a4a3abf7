import Sentinel.Lib.Orbit

/-!
# Listing the servers of a Hetzner account

`HetznerClient::list_all` of `cloud/hetzner.rs`. Every page of servers names the next; the loop
follows these numbers until a page names none or itself. So it ends unless a page names one that
was requested before it, and what it returns are the servers of the pages, each page taken once.

How a server of a page becomes a `ServerInfo` has no influence on the loop and is a parameter.
-/

namespace Sentinel.Servers

structure Pagination where
  nextPage : Option UInt32
  deriving DecidableEq, Repr

/-- `Meta`. -/
structure PageMeta where
  pagination : Option Pagination
  deriving DecidableEq, Repr

structure ServersPage (σ : Type) where
  servers : List σ
  pageMeta : Option PageMeta

section Listing

variable {σ τ : Type} (serverInfo : σ → τ)

/-- `parse_servers_page`, of a body that parses. -/
def parseServersPage (page : ServersPage σ) : List τ × Option UInt32 :=
  let next := (page.pageMeta.bind PageMeta.pagination).bind Pagination.nextPage
  (page.servers.map serverInfo, next)

variable (api : UInt32 → ServersPage σ)

/-- The loop of `list_all` from a page on: the pages it requests and what it returns. Without fuel
it is still running. -/
def listAllFrom : Nat → UInt32 → List τ → Option (List UInt32 × List τ)
  | 0, _, _ => none
  | fuel + 1, page, out =>
      let (servers, next) := parseServersPage serverInfo (api page)
      let out := out ++ servers
      match next with
      | some n =>
          if n ≠ page then
            (listAllFrom fuel n out).map fun (requests, result) => (page :: requests, result)
          else some ([page], out)
      | none => some ([page], out)

def listAll (fuel : Nat) : Option (List UInt32 × List τ) := listAllFrom serverInfo api fuel 1 []

/-- The page that a page names. -/
def nextPage (page : UInt32) : Option UInt32 := (parseServersPage serverInfo (api page)).2

/-- The page that is requested after a page. -/
def follow (page : UInt32) : Option UInt32 := (nextPage serverInfo api page).filter (· ≠ page)

/-- The servers of a page. -/
def serversOn (page : UInt32) : List τ := (parseServersPage serverInfo (api page)).1

/-- The listing ends, with no page requested twice and the servers of the pages in order. -/
def ListsAll : Prop :=
  ∃ enough requests, (∀ fuel ≥ enough, listAll serverInfo api fuel =
    some (requests, requests.flatMap (serversOn serverInfo api))) ∧ requests.Nodup

/-- No page that the listing comes to names one that it came to before. -/
def NoWayBack : Prop :=
  ∀ i j p q, i < j → Orbit.walk (follow serverInfo api) 1 i = some p →
    Orbit.walk (follow serverInfo api) 1 j = some q → nextPage serverInfo api q ≠ some p

/-- Every page up to the last names its successor, and the last names none. -/
structure Successive (last : Nat) : Prop where
  pages : 1 ≤ last ∧ last < 2 ^ 32
  names : ∀ k, 1 ≤ k → k < last →
    nextPage serverInfo api (UInt32.ofNat k) = some (UInt32.ofNat (k + 1))
  ends : nextPage serverInfo api (UInt32.ofNat last) = none

variable {serverInfo api}

/-- The loop visits the pages and gathers their servers. -/
theorem listAllFrom_eq (fuel : Nat) (page : UInt32) (out : List τ) :
    listAllFrom serverInfo api fuel page out =
      (Orbit.visits (follow serverInfo api) fuel page).map fun pages =>
        (pages, out ++ pages.flatMap (serversOn serverInfo api)) := by
  induction fuel generalizing page out with
  | zero => rfl
  | succ fuel ih =>
      have here : (parseServersPage serverInfo (api page)) =
          (serversOn serverInfo api page, nextPage serverInfo api page) := rfl
      rw [listAllFrom, Orbit.visits, follow, here]
      dsimp only
      cases named : nextPage serverInfo api page with
      | none =>
          simp only [Option.filter_none, Option.map_some, List.flatMap_singleton]
      | some n =>
          by_cases other : n = page
          · have own : (some n).filter (fun m => decide (m ≠ page)) = none := by
              simp [other]
            have same : ¬ (n ≠ page) := not_not.mpr other
            simp only [own, if_neg same, Option.map_some, List.flatMap_singleton]
          · have kept : (some n).filter (fun m => decide (m ≠ page)) = some n := by
              simp [other]
            simp only [kept, ne_eq, other, not_false_eq_true, if_true]
            rw [ih, Option.map_map, Option.map_map]
            refine congrArg (Option.map · _) (funext fun pages => ?_)
            simp only [Function.comp_apply, List.flatMap_cons, List.append_assoc]

theorem forward_iff : Orbit.Forward (follow serverInfo api) 1 ↔ NoWayBack serverInfo api := by
  have follows : ∀ p q, follow serverInfo api q = some p ↔
      nextPage serverInfo api q = some p ∧ p ≠ q := by
    intro p q
    rw [follow, Option.filter_eq_some_iff, decide_eq_true_iff]
  constructor
  · intro forward i j p q before here there back
    have differs : p ≠ q := by
      rintro rfl
      exact forward.ne before here there
    exact forward i j p q before.le here there ((follows p q).mpr ⟨back, differs⟩)
  · intro noWay i j p q before here there back
    obtain ⟨named, differs⟩ := (follows p q).mp back
    obtain before | rfl := before.lt_or_eq
    · exact noWay i j p q before here there named
    · exact differs (Option.some.inj (here.symm.trans there))

/-- The walk through successive pages. -/
theorem walk_successive {last : Nat} (pages : Successive serverInfo api last) (k : Nat)
    (inside : k < last) :
    Orbit.walk (follow serverInfo api) 1 k = some (UInt32.ofNat (k + 1)) := by
  induction k with
  | zero => rfl
  | succ k ih =>
      have wide := pages.pages.2
      have differs : UInt32.ofNat (k + 1 + 1) ≠ UInt32.ofNat (k + 1) := by
        intro same
        have values := congrArg UInt32.toNat same
        rw [UInt32.toNat_ofNat_of_lt' (show k + 1 + 1 < 2 ^ 32 by omega),
          UInt32.toNat_ofNat_of_lt' (show k + 1 < 2 ^ 32 by omega)] at values
        omega
      rw [Orbit.walk, ih (by omega), Option.bind_some, follow, pages.names _ (by omega) inside,
        Option.filter_some, if_pos (decide_eq_true differs)]

/-- The listing is as it should be just if no page names one before it. Successive pages are all
listed, from the first to the last. -/
theorem listsAll_iff : (ListsAll serverInfo api ↔ NoWayBack serverInfo api) ∧
    ∀ last, Successive serverInfo api last → ∃ enough, ∀ fuel ≥ enough,
      listAll serverInfo api fuel = some ((List.range last).map fun k => UInt32.ofNat (k + 1),
        (List.range last).flatMap fun k => serversOn serverInfo api (UInt32.ofNat (k + 1))) := by
  have listing : ∀ fuel pages, Orbit.visits (follow serverInfo api) fuel 1 = some pages →
      listAll serverInfo api fuel = some (pages, pages.flatMap (serversOn serverInfo api)) := by
    intro fuel pages visited
    rw [listAll, listAllFrom_eq, visited, Option.map_some, List.nil_append]
  constructor
  · rw [← forward_iff, ← Orbit.visits_iff_forward]
    constructor
    · rintro ⟨enough, requests, ends, -⟩
      have ended := ends enough le_rfl
      rw [listAll, listAllFrom_eq] at ended
      obtain ⟨pages, visited, -⟩ := Option.map_eq_some_iff.mp ended
      exact ⟨enough, pages, visited⟩
    · rintro ⟨enough, pages, visited⟩
      exact ⟨enough, pages, fun fuel more => listing fuel pages (Orbit.visits_mono more visited),
        Orbit.nodup_visits visited⟩
  · intro last successive
    have few := successive.pages.1
    have ended : Orbit.walk (follow serverInfo api) 1 last = none := by
      obtain ⟨k, rfl⟩ := Nat.exists_eq_succ_of_ne_zero (show last ≠ 0 by omega)
      rw [Orbit.walk, walk_successive successive k (by omega), Option.bind_some, follow,
        successive.ends, Option.filter_none]
    obtain ⟨pages, visited⟩ := Orbit.visits_of_walk_none ended
    have all : pages = (List.range last).map fun k => UInt32.ofNat (k + 1) := by
      refine List.ext_getElem? fun k => ?_
      rw [← Orbit.walk_eq_getElem? visited]
      by_cases inside : k < last
      · rw [walk_successive successive k inside, List.getElem?_map, List.getElem?_range inside]
        rfl
      · have beyond : ((List.range last).map fun k => UInt32.ofNat (k + 1))[k]? = none := by
          rw [List.getElem?_eq_none_iff, List.length_map, List.length_range]
          omega
        rw [Orbit.walk_none_of_le (Nat.not_lt.mp inside) ended, beyond]
    refine ⟨last, fun fuel more => ?_⟩
    rw [listing fuel pages (Orbit.visits_mono more visited), all, List.flatMap_map]

end Listing

/-- Three pages, each of which names the next. -/
def threePages (page : UInt32) : ServersPage Nat where
  servers := [page.toNat]
  pageMeta := some ⟨some ⟨if page < 3 then some (page + 1) else none⟩⟩

theorem threePages_successive : Successive id threePages 3 where
  pages := by norm_num
  names k some_ inside := by interval_cases k <;> rfl
  ends := rfl

theorem threePages_listed : ∃ enough, ∀ fuel ≥ enough,
    listAll id threePages fuel = some ([1, 2, 3], [1, 2, 3]) :=
  listsAll_iff.2 3 threePages_successive

/-- Two pages that name each other. -/
def circular (page : UInt32) : ServersPage Nat where
  servers := [page.toNat]
  pageMeta := some ⟨some ⟨some (if page = 1 then 2 else 1)⟩⟩

/-- Of two pages that name each other the listing never ends. -/
theorem circular_endless : ¬ ListsAll id circular ∧ ∀ fuel, listAll id circular fuel = none := by
  have endless : ∀ fuel, listAll id circular fuel = none := by
    intro fuel
    rw [listAll, listAllFrom_eq, Option.map_eq_none_iff, Option.eq_none_iff_forall_ne_some]
    intro pages visited
    exact Orbit.forward_of_visits visited 0 1 1 2 (by norm_num) rfl rfl rfl
  refine ⟨?_, endless⟩
  rintro ⟨enough, requests, ends, -⟩
  have ended := ends enough le_rfl
  rw [endless] at ended
  cases ended

end Sentinel.Servers
