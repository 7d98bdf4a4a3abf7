import Mathlib

/-!
# Following a pointer

A partial function followed from a point on: `walk` is the point after a number of steps, `visits`
the list of all points up to the one where the function ends. Among finitely many points it ends
unless a point comes up again, and then no point of the list comes twice.
-/

namespace Orbit

variable {α : Type} (next : α → Option α)

/-- The point after a number of steps. -/
def walk (a : α) : Nat → Option α
  | 0 => some a
  | n + 1 => (walk a n).bind next

/-- The points up to the last, if they are fewer than the fuel. -/
def visits : Nat → α → Option (List α)
  | 0, _ => none
  | fuel + 1, a =>
      match next a with
      | none => some [a]
      | some b => (visits fuel b).map (a :: ·)

variable {next} {a b : α}

theorem walk_succ (n : Nat) : walk next a (n + 1) = (next a).bind fun b => walk next b n := by
  induction n with
  | zero => cases h : next a <;> simp [walk, h]
  | succ n ih =>
      rw [walk, ih]
      cases next a with
      | none => rfl
      | some b => rfl

/-- Equal points have equal futures. -/
theorem walk_add {i j : Nat} (same : walk next a i = walk next a j) (k : Nat) :
    walk next a (i + k) = walk next a (j + k) := by
  induction k with
  | zero => exact same
  | succ k ih =>
      change (walk next a (i + k)).bind next = (walk next a (j + k)).bind next
      rw [ih]

/-- A walk that has ended stays so. -/
theorem walk_none_of_le {i j : Nat} (le : i ≤ j) (ended : walk next a i = none) :
    walk next a j = none := by
  obtain ⟨k, rfl⟩ := Nat.exists_eq_add_of_le le
  induction k with
  | zero => exact ended
  | succ k ih => exact congrArg (Option.bind · next) (ih (Nat.le_add_right i k))

/-- The list of visited points is the walk. -/
theorem walk_eq_getElem? {fuel : Nat} {l : List α} (visited : visits next fuel a = some l) (k : Nat) :
    walk next a k = l[k]? := by
  induction fuel generalizing a l k with
  | zero => cases visited
  | succ fuel ih =>
      rw [visits] at visited
      cases step : next a with
      | none =>
          rw [step] at visited
          cases visited
          cases k with
          | zero => rfl
          | succ k => rw [walk_succ, step, Option.bind_none, List.getElem?_cons_succ, List.getElem?_nil]
      | some b =>
          rw [step] at visited
          obtain ⟨rest, later, rfl⟩ := Option.map_eq_some_iff.mp visited
          cases k with
          | zero => rfl
          | succ k => rw [walk_succ, step, Option.bind_some, List.getElem?_cons_succ, ih later k]

/-- Where the walk has ended, the points were visited. -/
theorem visits_of_walk_none {n : Nat} (ended : walk next a n = none) :
    ∃ l, visits next n a = some l := by
  induction n generalizing a with
  | zero => cases ended
  | succ n ih =>
      rw [walk_succ] at ended
      rw [visits]
      cases step : next a with
      | none => exact ⟨[a], rfl⟩
      | some b =>
          rw [step, Option.bind_some] at ended
          obtain ⟨rest, later⟩ := ih ended
          exact ⟨a :: rest, congrArg (Option.map (a :: ·)) later⟩

/-- More fuel visits the same. -/
theorem visits_mono {fuel more : Nat} (le : fuel ≤ more) {l : List α}
    (visited : visits next fuel a = some l) : visits next more a = some l := by
  induction fuel generalizing a l more with
  | zero => cases visited
  | succ fuel ih =>
      obtain ⟨more, rfl⟩ := Nat.exists_eq_succ_of_ne_zero (show more ≠ 0 by omega)
      rw [visits] at visited ⊢
      cases step : next a with
      | none =>
          rw [step] at visited
          exact visited
      | some b =>
          rw [step] at visited
          obtain ⟨rest, later, rfl⟩ := Option.map_eq_some_iff.mp visited
          change (visits next more b).map (a :: ·) = _
          rw [ih (Nat.le_of_succ_le_succ le) later]
          rfl

/-- The function never leads back to a point it has left. -/
def Forward (next : α → Option α) (a : α) : Prop :=
  ∀ i j p q, i ≤ j → walk next a i = some p → walk next a j = some q → next q ≠ some p

/-- A walk that ends does not lead back: if it did, it could be cut short. -/
theorem forward_of_visits {fuel : Nat} {l : List α} (visited : visits next fuel a = some l) :
    Forward next a := by
  intro i j p q before here there back
  have ends : ∃ n, walk next a n = none := ⟨l.length, by
    rw [walk_eq_getElem? visited, List.getElem?_eq_none_iff]⟩
  have again : walk next a i = walk next a (j + 1) := by
    rw [here, walk, there, Option.bind_some, back]
  classical
  have last := Nat.find_spec ends
  have after : j + 1 ≤ Nat.find ends := by
    by_contra small
    have earlier : walk next a j = none := walk_none_of_le (by omega) last
    rw [there] at earlier
    cases earlier
  have shorter : walk next a (i + (Nat.find ends - (j + 1))) = none := by
    rw [walk_add again, show j + 1 + (Nat.find ends - (j + 1)) = Nat.find ends by omega]
    exact last
  have minimal := Nat.find_min' ends shorter
  omega

/-- The points of a walk that does not lead back are different. -/
theorem Forward.ne (forward : Forward next a) {i j : Nat} (before : i < j) {p : α}
    (here : walk next a i = some p) : walk next a j ≠ some p := by
  intro there
  obtain ⟨k, rfl⟩ := Nat.exists_eq_succ_of_ne_zero (show j ≠ 0 by omega)
  obtain ⟨q, previous, back⟩ := Option.bind_eq_some_iff.mp there
  exact forward i k p q (Nat.le_of_lt_succ before) here previous back

/-- Among finitely many points a walk ends just if it does not lead back. -/
theorem visits_iff_forward [Finite α] : (∃ fuel l, visits next fuel a = some l) ↔ Forward next a := by
  refine ⟨fun ⟨_, _, visited⟩ => forward_of_visits visited, fun forward => ?_⟩
  by_contra endless
  have goes : ∀ n, ∃ p, walk next a n = some p := by
    intro n
    cases here : walk next a n with
    | none => exact absurd ⟨n, visits_of_walk_none here⟩ endless
    | some p => exact ⟨p, rfl⟩
  choose point at_ using goes
  have injective : Function.Injective point := by
    intro i j same
    by_contra differs
    obtain before | after := Nat.lt_or_gt_of_ne differs
    · exact forward.ne before (at_ i) (same ▸ at_ j)
    · exact forward.ne after (at_ j) (same ▸ at_ i)
  exact not_injective_infinite_finite point injective

theorem nodup_visits {fuel : Nat} {l : List α} (visited : visits next fuel a = some l) :
    l.Nodup := by
  have forward := forward_of_visits visited
  rw [List.nodup_iff_getElem?_ne_getElem?]
  intro i j before inside
  rw [← walk_eq_getElem? visited, ← walk_eq_getElem? visited]
  obtain ⟨p, here⟩ : ∃ p, walk next a i = some p := by
    rw [walk_eq_getElem? visited]
    exact ⟨_, List.getElem?_eq_getElem (before.trans inside)⟩
  rw [here]
  exact (forward.ne before here).symm

end Orbit
