import Sentinel.Api.Stmt

/-!
# The rate limiter

`RateLimiter::check` keeps one list of hits for each key and prunes it at every call of that
key. `Greedy` says of a whole log of answers what the pruned lists are for: a call is allowed
exactly when fewer than `max` calls of its key were allowed in the window before it. At
non-decreasing times the code's log is greedy, and there is only one greedy log of a sequence
of calls, so what holds of greedy logs holds of the code.
-/

namespace Sentinel.Api

/-- `RateLimiter`: the hits recorded for each key. -/
abbrev RateLimiter (κ : Type) := κ → List Time

namespace RateLimiter

variable {κ : Type} [DecidableEq κ]

def new : RateLimiter κ := fun _ => []

/-- `Instant::duration_since`, which is zero for a later instant. -/
def durationSince (now t : Time) : Time := max 0 (now - t)

/-- `RateLimiter::check`, called at the instant `now`. -/
def check (inner : RateLimiter κ) (now : Time) (key : κ) (max : Nat) (window : Time) :
    Bool × RateLimiter κ :=
  let hits := (inner key).filter fun t => decide (durationSince now t < window)
  if hits.length ≥ max then (false, Function.update inner key hits)
  else (true, Function.update inner key (hits ++ [now]))

/-- A call of `check`; the limits are those of its key. -/
structure Call (κ : Type) where
  now : Time
  key : κ
  deriving DecidableEq

/-- The answers to a sequence of calls. -/
def run (max : κ → Nat) (window : κ → Time) : RateLimiter κ → List (Call κ) → List (Call κ × Bool)
  | _, [] => []
  | inner, c :: calls =>
      let (allowed, inner) := inner.check c.now c.key (max c.key) (window c.key)
      (c, allowed) :: run max window inner calls

/-- The times of the allowed calls of a key. -/
def hits (log : List (Call κ × Bool)) (k : κ) : List Time :=
  (log.filter fun e => e.2 && decide (e.1.key = k)).map fun e => e.1.now

/-- The number of allowed calls of a key in a span of time. -/
def allowedIn (log : List (Call κ × Bool)) (k : κ) (span : Time → Bool) : Nat :=
  (hits log k).countP span

/-- A call of the log is allowed exactly when fewer than `max` calls of its key were allowed in
the window that ends with it. -/
def Greedy (max : κ → Nat) (window : κ → Time) :
    (past log : List (Call κ × Bool)) → Prop
  | _, [] => True
  | past, e :: log =>
      (e.2 = true ↔ allowedIn past e.1.key
        (fun t => decide (e.1.now - window e.1.key < t)) < max e.1.key) ∧
      Greedy max window (past ++ [e]) log

section Log

variable {max : κ → Nat} {window : κ → Time} {past log : List (Call κ × Bool)}

@[simp] theorem hits_nil (k : κ) : hits ([] : List (Call κ × Bool)) k = [] := rfl

@[simp] theorem hits_append (l m : List (Call κ × Bool)) (k : κ) :
    hits (l ++ m) k = hits l k ++ hits m k := by
  simp [hits]

theorem hits_singleton (e : Call κ × Bool) (k : κ) :
    hits [e] k = if e.2 = true ∧ e.1.key = k then [e.1.now] else [] := by
  by_cases own : e.2 = true ∧ e.1.key = k <;> simp [hits, own]

theorem mem_hits {k : κ} {t : Time} :
    t ∈ hits log k ↔ ∃ e ∈ log, e.2 = true ∧ e.1.key = k ∧ e.1.now = t := by
  simp [hits, and_assoc]

theorem hits_filter (p : κ → Bool) {k : κ} (kept : p k = true) :
    hits (log.filter fun e => p e.1.key) k = hits log k := by
  rw [hits, hits, List.filter_filter]
  congr 1
  refine List.filter_congr fun e _ => ?_
  by_cases own : e.1.key = k <;> simp [own, kept]

theorem greedy_append (l m : List (Call κ × Bool)) :
    Greedy max window past (l ++ m) ↔
      Greedy max window past l ∧ Greedy max window (past ++ l) m := by
  induction l generalizing past with
  | nil => simp [Greedy]
  | cons e l ih => simp [Greedy, ih, and_assoc]

/-- Only the hits of the past count. -/
theorem Greedy.congr {past' : List (Call κ × Bool)} (same : ∀ k, hits past k = hits past' k)
    (h : Greedy max window past log) : Greedy max window past' log := by
  induction log generalizing past past' with
  | nil => trivial
  | cons e log ih =>
      refine ⟨?_, ih (fun k => ?_) h.2⟩
      · rw [allowedIn, ← same]
        exact h.1
      · rw [hits_append, hits_append, same]

/-- The calls determine a greedy log. -/
theorem Greedy.unique {log' : List (Call κ × Bool)} (h : Greedy max window past log)
    (h' : Greedy max window past log') (calls : log.map Prod.fst = log'.map Prod.fst) :
    log = log' := by
  induction log generalizing past log' with
  | nil => simpa using calls.symm
  | cons e log ih =>
      cases log' with
      | nil => simp at calls
      | cons e' log' =>
          obtain ⟨call, rest⟩ := List.cons.inj calls
          have same : e = e' := by
            refine Prod.ext call (Bool.eq_iff_iff.mpr ?_)
            rw [h.1, h'.1, call]
          subst same
          rw [ih h.2 h'.2 rest]

/-- A refused call can be left out. -/
theorem Greedy.drop_refused {before after : List (Call κ × Bool)} {c : Call κ}
    (h : Greedy max window past (before ++ (c, false) :: after)) :
    Greedy max window past (before ++ after) := by
  rw [greedy_append] at h ⊢
  refine ⟨h.1, h.2.2.congr fun k => ?_⟩
  rw [hits_append, hits_singleton, if_neg (by simp), List.append_nil]

/-- The calls of any keys can be left out. -/
theorem Greedy.filter (p : κ → Bool) (h : Greedy max window past log) :
    Greedy max window (past.filter fun e => p e.1.key) (log.filter fun e => p e.1.key) := by
  induction log generalizing past with
  | nil => trivial
  | cons e log ih =>
      have rest := ih h.2
      rw [List.filter_append] at rest
      by_cases kept : p e.1.key = true
      · simp only [List.filter_cons, kept, if_true, List.filter_nil] at rest ⊢
        refine ⟨?_, rest⟩
        rw [allowedIn, hits_filter p kept]
        exact h.1
      · simpa only [List.filter_cons, kept, if_false, List.filter_nil, List.append_nil,
          Bool.false_eq_true] using rest

/-- A span shorter than the window holds at most `max` allowed calls. -/
theorem Greedy.allowedIn_le (h : Greedy max window [] log)
    (ordered : log.Pairwise fun e f => e.1.now ≤ f.1.now) (k : κ) (span : Time → Bool)
    (short : ∀ t t', span t = true → span t' = true → t' - t < window k) :
    allowedIn log k span ≤ max k := by
  induction log using List.reverseRecOn with
  | nil => exact Nat.zero_le _
  | append_singleton log e ih =>
      obtain ⟨before, last, -⟩ := (greedy_append log [e]).mp h
      have bound := ih before (List.pairwise_append.mp ordered).1
      rw [List.nil_append] at last
      rw [allowedIn, hits_append, List.countP_append, hits_singleton]
      by_cases own : e.2 = true ∧ e.1.key = k
      · rw [if_pos own]
        obtain ⟨allowed, rfl⟩ := own
        by_cases inside : span e.1.now = true
        -- what the span holds already lies in the window that ends with this call
        · have recent := last.mp allowed
          have le : (hits log e.1.key).countP span ≤ allowedIn log e.1.key
              fun t => decide (e.1.now - window e.1.key < t) := by
            refine List.countP_mono_left fun t _ within => ?_
            have near := short t e.1.now within inside
            exact decide_eq_true (by linarith)
          rw [List.countP_singleton, if_pos inside]
          omega
        · rw [List.countP_singleton, if_neg inside]
          exact bound
      · rw [if_neg own]
        exact bound

/-- A refused call ends a full window. -/
theorem Greedy.refused {before after : List (Call κ × Bool)} {c : Call κ}
    (h : Greedy max window [] (before ++ (c, false) :: after))
    (ordered : (before ++ (c, false) :: after).Pairwise fun e f => e.1.now ≤ f.1.now) :
    allowedIn before c.key (fun t => decide (c.now - window c.key < t ∧ t ≤ c.now)) =
      max c.key := by
  obtain ⟨first, refused, -⟩ := (greedy_append before _).mp h
  obtain ⟨sorted, -, earlier⟩ := List.pairwise_append.mp ordered
  rw [List.nil_append] at refused
  have full : max c.key ≤ allowedIn before c.key fun t => decide (c.now - window c.key < t) := by
    by_contra room
    exact absurd (refused.mpr (not_le.mp room)) Bool.false_ne_true
  have past : ∀ t ∈ hits before c.key, t ≤ c.now := by
    intro t mem
    obtain ⟨e, member, -, -, rfl⟩ := mem_hits.mp mem
    exact earlier e member (c, false) (List.mem_cons_self ..)
  refine le_antisymm (first.allowedIn_le sorted c.key _ fun t t' near near' => ?_) ?_
  · have near := of_decide_eq_true near
    have near' := of_decide_eq_true near'
    linarith
  · refine full.trans (List.countP_mono_left fun t mem near => ?_)
    exact decide_eq_true ⟨of_decide_eq_true near, past t mem⟩

end Log

section Run

variable {max : κ → Nat} {window : κ → Time}

variable (max window) in
theorem run_calls (inner : RateLimiter κ) (calls : List (Call κ)) :
    (run max window inner calls).map Prod.fst = calls := by
  induction calls generalizing inner with
  | nil => rfl
  | cons c calls ih => simp [run, ih]

/-- The pruned lists after the log: from the instant `now` on, they and all hits of the log
leave the same ones in the window. -/
def Keeps (window : κ → Time) (log : List (Call κ × Bool)) (now : Time)
    (inner : RateLimiter κ) : Prop :=
  (∀ k, ∀ t ∈ hits log k, t ≤ now) ∧
    ∀ k t, now ≤ t → (inner k).filter (fun s => decide (durationSince t s < window k)) =
      (hits log k).filter fun s => decide (t - window k < s)

/-- For a hit that is not in the future both tests are one. -/
theorem durationSince_lt {now s w : Time} (past : s ≤ now) :
    durationSince now s < w ↔ now - w < s := by
  rw [durationSince, max_lt_iff]
  constructor
  · rintro ⟨-, near⟩
    linarith
  · intro near
    exact ⟨by linarith, by linarith⟩

theorem Keeps.advance {log : List (Call κ × Bool)} {now later : Time} {inner : RateLimiter κ}
    (h : Keeps window log now inner) (le : now ≤ later) : Keeps window log later inner :=
  ⟨fun k t mem => (h.1 k t mem).trans le, fun k t after => h.2 k t (le.trans after)⟩

/-- What a call's list keeps of itself. -/
theorem filter_durationSince {hits : List Time} {now later w : Time} (le : now ≤ later)
    (past : ∀ s ∈ hits, s ≤ now) :
    (hits.filter fun s => decide (now - w < s)).filter
        (fun s => decide (durationSince later s < w)) =
      hits.filter fun s => decide (later - w < s) := by
  rw [List.filter_filter]
  refine List.filter_congr fun s mem => ?_
  rw [Bool.eq_iff_iff]
  simp only [Bool.and_eq_true, decide_eq_true_eq, durationSince_lt ((past s mem).trans le)]
  constructor
  · exact And.left
  · intro near
    exact ⟨near, by linarith⟩

variable (max) in
/-- One call answers greedily and keeps its hits. -/
theorem Keeps.check {log : List (Call κ × Bool)} {now : Time} {inner : RateLimiter κ}
    (h : Keeps window log now inner) (key : κ) :
    let r := inner.check now key (max key) (window key)
    (r.1 = true ↔ allowedIn log key (fun t => decide (now - window key < t)) < max key) ∧
      Keeps window (log ++ [(⟨now, key⟩, r.1)]) now r.2 := by
  have kept := h.2 key now le_rfl
  have count : ((inner key).filter fun s => decide (durationSince now s < window key)).length =
      allowedIn log key fun t => decide (now - window key < t) := by
    rw [kept, allowedIn, List.countP_eq_length_filter]
  simp only [RateLimiter.check]
  split <;> rename_i full
  · rw [count] at full
    refine ⟨⟨fun allowed => (by cases allowed), fun room => absurd full (by omega)⟩, ?_, ?_⟩
    · intro k t mem
      rw [hits_append, hits_singleton, if_neg (by simp), List.append_nil] at mem
      exact h.1 k t mem
    · intro k t after
      rw [hits_append, hits_singleton, if_neg (by simp), List.append_nil]
      dsimp only
      by_cases own : k = key
      · subst own
        rw [Function.update_self, kept, filter_durationSince after (h.1 k)]
      · rw [Function.update_of_ne own, h.2 k t after]
  · rw [count] at full
    refine ⟨⟨fun _ => by omega, fun _ => rfl⟩, ?_, ?_⟩
    · intro k t mem
      rw [hits_append, hits_singleton, List.mem_append] at mem
      obtain mem | mem := mem
      · exact h.1 k t mem
      · by_cases own : key = k <;> simp [own] at mem
        exact mem.le
    · intro k t after
      rw [hits_append, hits_singleton]
      dsimp only
      by_cases own : k = key
      · subst own
        have same : decide (durationSince t now < window k) = decide (t - window k < now) :=
          decide_eq_decide.mpr (durationSince_lt after)
        rw [Function.update_self, kept, List.filter_append, filter_durationSince after (h.1 k),
          if_pos ⟨rfl, rfl⟩, List.filter_append]
        simp only [List.filter_cons, List.filter_nil, same]
      · rw [Function.update_of_ne own, h.2 k t after, if_neg (by simp [Ne.symm own]),
          List.append_nil]

/-- At non-decreasing times the code answers greedily. -/
theorem run_greedy {log : List (Call κ × Bool)} {inner : RateLimiter κ} (start : Time)
    {calls : List (Call κ)} (ordered : calls.Pairwise fun c d => c.now ≤ d.now)
    (after : ∀ c ∈ calls, start ≤ c.now) (keeps : Keeps window log start inner) :
    Greedy max window log (run max window inner calls) := by
  induction calls generalizing log inner start with
  | nil => trivial
  | cons c calls ih =>
      obtain ⟨first, ordered⟩ := List.pairwise_cons.mp ordered
      have here := keeps.advance (after c (List.mem_cons_self ..))
      obtain ⟨answer, keeps⟩ := here.check max c.key
      exact ⟨answer, ih c.now ordered first keeps⟩

/-- From the start no key has a hit. -/
theorem run_new_greedy {calls : List (Call κ)}
    (ordered : calls.Pairwise fun c d => c.now ≤ d.now) :
    Greedy max window [] (run max window new calls) := by
  cases calls with
  | nil => trivial
  | cons c calls =>
      obtain ⟨first, -⟩ := List.pairwise_cons.mp ordered
      refine run_greedy c.now ordered (List.forall_mem_cons.mpr ⟨le_rfl, first⟩) ?_
      exact ⟨by simp, fun k t _ => rfl⟩

end Run

/-- For every sequence of calls at non-decreasing times, every key having its own `max` and
`window`: no half-open interval of the window's length holds more than `max` allowed calls of a
key; a call is refused only when its window holds `max` allowed ones; leaving a refused call out
changes no other answer; and neither does leaving out the calls of any other keys. -/
theorem check_slidingWindow (max : κ → Nat) (window : κ → Time) (calls : List (Call κ))
    (ordered : calls.Pairwise fun c d => c.now ≤ d.now) :
    (∀ k start,
      allowedIn (run max window new calls) k
          (fun t => decide (start ≤ t ∧ t < start + window k)) ≤ max k ∧
        allowedIn (run max window new calls) k
          (fun t => decide (start < t ∧ t ≤ start + window k)) ≤ max k) ∧
    (∀ before (c : Call κ) after, run max window new calls = before ++ (c, false) :: after →
      allowedIn before c.key (fun t => decide (c.now - window c.key < t ∧ t ≤ c.now)) =
        max c.key) ∧
    (∀ before c after, run max window new calls = before ++ (c, false) :: after →
      run max window new ((before ++ after).map Prod.fst) = before ++ after) ∧
    ∀ p : κ → Bool, run max window new (calls.filter fun c => p c.key) =
      (run max window new calls).filter fun e => p e.1.key := by
  have greedy := @run_new_greedy κ _ max window _ ordered
  have times : (run max window new calls).Pairwise fun e f => e.1.now ≤ f.1.now := by
    rw [← run_calls max window new calls, List.pairwise_map] at ordered
    exact ordered
  -- the calls left out leave a greedy log of the others, and there is only one
  have only : ∀ log, Greedy max window [] log → (log.map Prod.fst).Sublist calls →
      run max window new (log.map Prod.fst) = log := by
    intro log left sub
    exact (run_new_greedy (ordered.sublist sub)).unique left (run_calls _ _ _ _)
  refine ⟨fun k start => ⟨?_, ?_⟩, fun before c after cut => ?_, fun before c after cut => ?_,
    fun p => ?_⟩
  · refine greedy.allowedIn_le times k _ fun t t' first second => ?_
    have first := of_decide_eq_true first
    have second := of_decide_eq_true second
    linarith
  · refine greedy.allowedIn_le times k _ fun t t' first second => ?_
    have first := of_decide_eq_true first
    have second := of_decide_eq_true second
    linarith
  · rw [cut] at greedy times
    exact greedy.refused times
  · rw [cut] at greedy
    refine only _ greedy.drop_refused ?_
    rw [← run_calls max window new calls, cut]
    exact ((List.sublist_cons_self _ _).append_left before).map Prod.fst
  · have kept := greedy.filter p
    rw [List.filter_nil] at kept
    have map : calls.filter (fun c => p c.key) =
        ((run max window new calls).filter fun e => p e.1.key).map Prod.fst := by
      conv_lhs => rw [← run_calls max window new calls, List.filter_map]
      rfl
    rw [map]
    refine only _ kept ?_
    rw [← map]
    exact List.filter_sublist

/-- Six calls of one key within a minute and one of another. -/
def sixAndOther : List (Call String) :=
  (List.range 6).map (fun i => ⟨seconds i, "k"⟩) ++ [⟨seconds 6, "other"⟩]

theorem check_slidingWindow_sixth :
    (run (fun _ => 5) (fun _ => seconds 60) new sixAndOther).map Prod.snd =
        [true, true, true, true, true, false, true] ∧
      run (fun _ => 5) (fun _ => seconds 60) new
          (sixAndOther.filter fun c => decide (c.key = "other")) =
        (run (fun _ => 5) (fun _ => seconds 60) new sixAndOther).filter
          fun e => decide (e.1.key = "other") := by
  have sliding := check_slidingWindow (fun _ => 5) (fun _ => seconds 60) sixAndOther (by decide)
  exact ⟨by decide, sliding.2.2.2 fun k => decide (k = "other")⟩

end RateLimiter

end Sentinel.Api
