import Mathlib

/-!
# Serving the frames of a stream

A server reads a stream in chunks. It takes the complete frames off the front of its buffer,
handles each, and reads on when the buffer holds no complete frame. A decoder that a longer buffer
does not mislead (`Decoder`) makes the chunks irrelevant: the server ends as if it had the whole
stream at once (`serve_eq`), and there it handles the frames one by one (`whole_eq`).

A state is `σ`, an ending `ω`; a handler gives the next state or ends the server.
-/

namespace Framing

/-- What stands at the front of a buffer: a frame and its length, the beginning of one, or
something that no further input mends. -/
inductive Verdict (α ρ : Type) where
  | frame (value : α) (length : Nat)
  | incomplete
  | stop (reason : ρ)

/-- A decoder of frames. -/
structure Decoder (β α ρ : Type) where
  next : List β → Verdict α ρ
  pos_of_frame : ∀ {b a n}, next b = .frame a n → 0 < n
  le_of_frame : ∀ {b a n}, next b = .frame a n → n ≤ b.length
  frame_append : ∀ {b a n}, next b = .frame a n → ∀ more, next (b ++ more) = .frame a n
  stop_append : ∀ {b r}, next b = .stop r → ∀ more, next (b ++ more) = .stop r

variable {β α ρ σ ω : Type} (d : Decoder β α ρ)

/-- What is left behind a frame is shorter. -/
theorem length_drop_lt {b : List β} {a : α} {n : Nat} (frame : d.next b = .frame a n) :
    (b.drop n).length < b.length := by
  have pos := d.pos_of_frame frame
  have inside := d.le_of_frame frame
  rw [List.length_drop]
  omega

/-! ## The server -/

section Server

variable (handle : α → σ → Except ω σ) (stopped : ρ → σ → ω) (ended : σ → ω)

/-- Handle the frames of the buffer, and keep what is left. -/
def drain (b : List β) (s : σ) : Except ω (List β × σ) :=
  match _front : d.next b with
  | .frame a n => do
      let s ← handle a s
      drain (b.drop n) s
  | .incomplete => .ok (b, s)
  | .stop r => .error (stopped r s)
termination_by b.length
decreasing_by exact length_drop_lt d _front

/-- The loop over the chunks of a stream, with what the buffer holds before. -/
def serve (b : List β) : List (List β) → σ → ω
  | [], s =>
      match drain d handle stopped b s with
      | .ok (_, s) => ended s
      | .error w => w
  | chunk :: chunks, s =>
      match drain d handle stopped b s with
      | .ok (b, s) => serve (b ++ chunk) chunks s
      | .error w => w

variable {handle stopped ended}

theorem drain_frame {b : List β} {s : σ} {a : α} {n : Nat} (front : d.next b = .frame a n) :
    drain d handle stopped b s = handle a s >>= drain d handle stopped (b.drop n) := by
  rw [drain]
  split
  · rename_i front'
    cases front.symm.trans front'
    rfl
  · rename_i front'
    cases front.symm.trans front'
  · rename_i front'
    cases front.symm.trans front'

theorem drain_incomplete {b : List β} {s : σ} (front : d.next b = .incomplete) :
    drain d handle stopped b s = .ok (b, s) := by
  rw [drain]
  split
  · rename_i front'
    cases front.symm.trans front'
  · rfl
  · rename_i front'
    cases front.symm.trans front'

theorem drain_stop {b : List β} {s : σ} {r : ρ} (front : d.next b = .stop r) :
    drain d handle stopped b s = .error (stopped r s) := by
  rw [drain]
  split
  · rename_i front'
    cases front.symm.trans front'
  · rename_i front'
    cases front.symm.trans front'
  · rename_i front'
    cases front.symm.trans front'
    rfl

/-- More input is handled after what is there. -/
theorem drain_append (b more : List β) (s : σ) : drain d handle stopped (b ++ more) s =
    drain d handle stopped b s >>= fun r => drain d handle stopped (r.1 ++ more) r.2 := by
  induction length : b.length using Nat.strong_induction_on generalizing b s with
  | _ n ih =>
    subst length
    cases front : d.next b with
    | frame a n =>
        rw [drain_frame d front, drain_frame d (d.frame_append front more),
          List.drop_append_of_le_length (d.le_of_frame front)]
        cases handle a s with
        | error w => rfl
        | ok s => exact ih _ (length_drop_lt d front) _ _ rfl
    | incomplete => rw [drain_incomplete d front]; rfl
    | stop r => rw [drain_stop d front, drain_stop d (d.stop_append front more)]; rfl

theorem serve_eq (b : List β) (chunks : List (List β)) (s : σ) :
    serve d handle stopped ended b chunks s =
      serve d handle stopped ended (b ++ chunks.flatten) [] s := by
  induction chunks generalizing b s with
  | nil => rw [List.flatten_nil, List.append_nil]
  | cons chunk chunks ih =>
      rw [List.flatten_cons, serve, serve, drain_append]
      cases drain d handle stopped b s with
      | error w => rfl
      | ok r =>
          refine (ih _ _).trans ?_
          rw [serve, List.append_assoc]
          rfl

end Server

/-! ## The frames of a stream -/

/-- The frames at the front of a stream, and what stands behind them. -/
def split (b : List β) : List α × List β :=
  match _front : d.next b with
  | .frame a n => (a :: (split (b.drop n)).1, (split (b.drop n)).2)
  | _ => ([], b)
termination_by b.length
decreasing_by all_goals exact length_drop_lt d _front

theorem split_frame {b : List β} {a : α} {n : Nat} (front : d.next b = .frame a n) :
    split d b = (a :: (split d (b.drop n)).1, (split d (b.drop n)).2) := by
  rw [split]
  split
  · rename_i front'
    cases front.symm.trans front'
    rfl
  · rename_i none_
    exact absurd front (none_ a n)

theorem split_of_not_frame {b : List β} (front : ∀ a n, d.next b ≠ .frame a n) :
    split d b = ([], b) := by
  rw [split]
  split
  · rename_i front'
    exact absurd front' (front _ _)
  · rfl

variable {handle : α → σ → Except ω σ} {stopped : ρ → σ → ω} {ended : σ → ω}

/-- The server handles the frames one by one, and ends at what stands behind them. -/
theorem drain_eq (b : List β) (s : σ) : drain d handle stopped b s =
    (split d b).1.foldlM (fun s a => handle a s) s >>= fun s =>
      match d.next (split d b).2 with
      | .stop r => .error (stopped r s)
      | _ => .ok ((split d b).2, s) := by
  induction length : b.length using Nat.strong_induction_on generalizing b s with
  | _ n ih =>
    subst length
    cases front : d.next b with
    | frame a n =>
        rw [drain_frame d front, split_frame d front, List.foldlM_cons, bind_assoc]
        congr 1
        funext s
        exact ih _ (length_drop_lt d front) _ _ rfl
    | incomplete =>
        rw [drain_incomplete d front, split_of_not_frame d (by rw [front]; simp)]
        simp only [front]
        rfl
    | stop r =>
        rw [drain_stop d front, split_of_not_frame d (by rw [front]; simp)]
        simp only [front]
        rfl

/-- How the server ends, from the frames of the stream and what stands behind them. -/
theorem whole_eq (b : List β) (s : σ) : serve d handle stopped ended b [] s =
    match (split d b).1.foldlM (fun s a => handle a s) s with
    | .ok s =>
        match d.next (split d b).2 with
        | .stop r => stopped r s
        | _ => ended s
    | .error w => w := by
  rw [serve, drain_eq]
  cases (split d b).1.foldlM (fun s a => handle a s) s with
  | error w => rfl
  | ok s =>
      change (match (match d.next (split d b).2 with
        | .stop r => Except.error (stopped r s)
        | _ => .ok ((split d b).2, s)) with
        | .ok (_, s) => ended s
        | .error w => w) = match d.next (split d b).2 with
        | .stop r => stopped r s
        | _ => ended s
      cases d.next (split d b).2 <;> rfl

end Framing
