import Mathlib.Data.List.DropRight

/-!
# Data in pieces

A machine takes its input piece by piece.  An update gives a part of the output or fails, and
`finalData` gives the rest.  Where an update with two pieces at once does what two updates
do, the way that the input is cut into pieces does not matter.
-/

namespace Streaming

section Ends
variable {α : Type*}

theorem rdrop_append_rtake (n : ℕ) (l : List α) : l.rdrop n ++ l.rtake n = l :=
  List.take_append_drop _ l

theorem rtake_of_length_le {n : ℕ} {l : List α} (h : l.length ≤ n) : l.rtake n = l := by
  rw [List.rtake, Nat.sub_eq_zero_of_le h, List.drop_zero]

theorem rdrop_of_length_le {n : ℕ} {l : List α} (h : l.length ≤ n) : l.rdrop n = [] := by
  rw [List.rdrop, Nat.sub_eq_zero_of_le h, List.take_zero]

theorem rtake_of_length {n : ℕ} {l m : List α} (h : m.length = n) : (l ++ m).rtake n = m := by
  rw [List.rtake]
  apply List.drop_left'
  rw [List.length_append]
  omega

theorem rdrop_of_length {n : ℕ} {l m : List α} (h : m.length = n) : (l ++ m).rdrop n = l := by
  rw [List.rdrop]
  apply List.take_left'
  rw [List.length_append]
  omega

theorem rtake_append_rtake (n : ℕ) (l m : List α) :
    (l.rtake n ++ m).rtake n = (l ++ m).rtake n := by
  simp only [List.rtake, List.drop_append, List.drop_drop, List.length_append, List.length_drop]
  congr 2
  · omega
  · omega

theorem rdrop_append (n : ℕ) (l m : List α) :
    (l ++ m).rdrop n = l.rdrop n ++ (l.rtake n ++ m).rdrop n := by
  have hparts : (l ++ m).rdrop n ++ (l ++ m).rtake n =
      l.rdrop n ++ (l.rtake n ++ m).rdrop n ++ (l.rtake n ++ m).rtake n := by
    rw [rdrop_append_rtake, List.append_assoc, rdrop_append_rtake, ← List.append_assoc,
      rdrop_append_rtake]
  rw [rtake_append_rtake] at hparts
  exact List.append_cancel_right hparts

end Ends

universe u v

variable {σ α β : Type u} {ε : Type v}

structure Machine (σ α β : Type u) (ε : Type v) where
  update : σ → List α → Except ε (List β × σ)
  finalData : σ → Except ε (List β)

namespace Machine

def run (M : Machine σ α β ε) : σ → List (List α) → Except ε (List β)
  | s, [] => M.finalData s
  | s, piece :: pieces => do
    let (output, s') ← M.update s piece
    let rest ← M.run s' pieces
    return output ++ rest

/-- In the states that meet `I`, an update with two pieces does what two updates do. -/
structure Splits (M : Machine σ α β ε) (I : σ → Prop) : Prop where
  keeps : ∀ s piece output s', I s → M.update s piece = .ok (output, s') → I s'
  append : ∀ s a b, I s → M.update s (a ++ b) = do
    let (output, s') ← M.update s a
    let (output', s'') ← M.update s' b
    return (output ++ output', s'')
  empty : ∀ s, I s → M.finalData s = M.run s [[]]

variable {M : Machine σ α β ε} {I : σ → Prop}

/-- The pieces do not matter. -/
theorem Splits.run_flatten (h : M.Splits I) {s : σ} (hs : I s) (pieces : List (List α)) :
    M.run s pieces = M.run s [pieces.flatten] := by
  induction pieces generalizing s with
  | nil => exact h.empty s hs
  | cons piece pieces ih =>
    rw [List.flatten_cons, run, run, h.append s piece _ hs]
    cases hupdate : M.update s piece with
    | error e => rfl
    | ok result =>
      obtain ⟨output, s'⟩ := result
      have hrest := ih (h.keeps s piece output s' hs hupdate)
      show (do let rest ← M.run s' pieces; return output ++ rest) = _
      rw [hrest, run]
      cases hrest' : M.update s' pieces.flatten with
      | error e => simp [hrest', bind, Except.bind]
      | ok result' =>
        obtain ⟨output', s''⟩ := result'
        cases hfinal : M.finalData s'' with
        | error e => simp [hrest', hfinal, run, bind, Except.bind, pure, Except.pure]
        | ok final => simp [hrest', hfinal, run, bind, Except.bind, pure, Except.pure]

end Machine

end Streaming
