import Mathlib

/-!
# Folding one ordered map into another

A loop over an ordered map that updates, for each of its entries, the entry of the same key
of another map. The updates of different keys do not meet, so the result can be read key by
key.
-/

namespace OrderedMap

open Std

variable {K V W : Type} {cmp : K → K → Ordering} [TransCmp cmp] [LawfulEqCmp cmp]

/-- Update the entry of every key of `t`, from its value there and what was in the map. -/
def updateAll (f : V → Option W → W) (m : ExtTreeMap K W cmp) (t : ExtTreeMap K V cmp) :
    ExtTreeMap K W cmp :=
  t.foldl (fun acc k v => acc.insert k (f v acc[k]?)) m

theorem getElem?_foldl_insert (f : V → Option W → W) (l : List (K × V)) (m : ExtTreeMap K W cmp)
    (distinct : l.Pairwise fun a b => ¬ cmp a.1 b.1 = .eq) (k : K) :
    (l.foldl (fun acc (x : K × V) => acc.insert x.1 (f x.2 acc[x.1]?)) m)[k]? =
      ((l.find? fun x => decide (cmp x.1 k = .eq)).map fun x => f x.2 m[k]?).or m[k]? := by
  induction l generalizing m with
  | nil => rfl
  | cons x rest ih =>
      obtain ⟨apart, distinct⟩ := List.pairwise_cons.mp distinct
      rw [List.foldl_cons, ih _ distinct, List.find?_cons]
      by_cases same : cmp x.1 k = .eq
      · have key : x.1 = k := LawfulEqCmp.eq_of_compare same
        have absent : rest.find? (fun y => decide (cmp y.1 k = .eq)) = none := by
          refine List.find?_eq_none.mpr fun y mem => ?_
          have away := apart y mem
          rw [key] at away
          intro hit
          rw [LawfulEqCmp.eq_of_compare (of_decide_eq_true hit)] at away
          exact away ReflCmp.compare_self
        simp [absent, key]
      · simp [same, ExtTreeMap.getElem?_insert]

/-- The updated map, key by key. -/
theorem getElem?_updateAll (f : V → Option W → W) (m : ExtTreeMap K W cmp)
    (t : ExtTreeMap K V cmp) (k : K) :
    (updateAll f m t)[k]? = (t[k]?.map fun v => f v m[k]?).or m[k]? := by
  rw [updateAll, ExtTreeMap.foldl_eq_foldl_toList,
    getElem?_foldl_insert f t.toList m ExtTreeMap.distinct_keys_toList k]
  cases found : t.toList.find? fun x => decide (cmp x.1 k = .eq) with
  | none =>
      have absent : t[k]? = none := by
        cases there : t[k]? with
        | none => rfl
        | some v =>
            have mem := ExtTreeMap.mem_toList_iff_getElem?_eq_some.mpr there
            have hit := List.find?_eq_none.mp found _ mem
            simp [ReflCmp.compare_self] at hit
      rw [absent]
      rfl
  | some x =>
      have hit := List.find?_some found
      obtain rfl : x.1 = k := LawfulEqCmp.eq_of_compare (of_decide_eq_true hit)
      have there : t[x.1]? = some x.2 :=
        ExtTreeMap.mem_toList_iff_getElem?_eq_some.mp (List.mem_of_find?_eq_some found)
      rw [there]
      rfl

end OrderedMap
