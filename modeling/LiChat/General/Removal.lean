import Mathlib.Data.List.Infix

/-!
# Removing a part wherever it occurs

Occurrences are found from left to right and do not overlap.
-/

namespace Removal

variable {α : Type*} [DecidableEq α] {part : List α}

/-- Leaves out `skip` elements, the rest of an occurrence, before the next one is looked for. -/
def removeFrom (part : List α) : ℕ → List α → List α
  | _, [] => []
  | skip + 1, _ :: l => removeFrom part skip l
  | 0, a :: l =>
    if part ≠ [] ∧ part <+: a :: l then removeFrom part (part.length - 1) l
    else a :: removeFrom part 0 l

def remove (part l : List α) : List α := removeFrom part 0 l

theorem removeFrom_eq_remove_drop (skip : ℕ) (l : List α) :
    removeFrom part skip l = remove part (l.drop skip) := by
  induction skip generalizing l with
  | zero => rfl
  | succ skip ih =>
    cases l with
    | nil => rfl
    | cons a l => exact ih l

@[simp] theorem remove_nil_right : remove part [] = [] := rfl

theorem remove_cons_of_not_front {a : α} {l : List α} (h : ¬ part <+: a :: l) :
    remove part (a :: l) = a :: remove part l :=
  if_neg fun hpart => h hpart.2

theorem remove_append_self (hpart : part ≠ []) (l : List α) :
    remove part (part ++ l) = remove part l := by
  obtain ⟨a, rest, rfl⟩ := List.exists_cons_of_ne_nil hpart
  have hfront : (a :: rest) <+: a :: (rest ++ l) := List.prefix_append _ _
  have hstep : remove (a :: rest) (a :: (rest ++ l)) =
      removeFrom (a :: rest) ((a :: rest).length - 1) (rest ++ l) := if_pos ⟨hpart, hfront⟩
  rw [List.cons_append, hstep, removeFrom_eq_remove_drop]
  simp

theorem remove_nil_left (l : List α) : remove [] l = l := by
  induction l with
  | nil => rfl
  | cons a l ih =>
    rw [remove, removeFrom, if_neg fun h => h.1 rfl]
    exact congrArg (a :: ·) ih

theorem removeFrom_sublist (skip : ℕ) (l : List α) : (removeFrom part skip l).Sublist l := by
  induction l generalizing skip with
  | nil => cases skip <;> exact List.Sublist.refl _
  | cons a l ih =>
    cases skip with
    | succ skip => exact (ih skip).cons a
    | zero =>
      rw [removeFrom]
      split_ifs
      · exact (ih _).cons a
      · exact (ih 0).cons_cons a

theorem remove_sublist (l : List α) : (remove part l).Sublist l := removeFrom_sublist 0 l

theorem remove_eq_self_of_not_infix {l : List α} (h : ¬ part <:+: l) : remove part l = l := by
  induction l with
  | nil => rfl
  | cons a l ih =>
    rw [remove_cons_of_not_front fun hfront => h hfront.isInfix,
      ih fun hinfix => h (List.infix_cons hinfix)]

theorem length_remove_lt {l : List α} (hpart : part ≠ []) (h : part <:+: l) :
    (remove part l).length < l.length := by
  induction l with
  | nil => exact absurd (List.infix_nil.mp h) hpart
  | cons a l ih =>
    by_cases hfront : part <+: a :: l
    · have hstep : remove part (a :: l) = removeFrom part (part.length - 1) l :=
        if_pos ⟨hpart, hfront⟩
      rw [hstep, List.length_cons]
      exact Nat.lt_succ_of_le (removeFrom_sublist _ l).length_le
    · have hinfix : part <:+: l := (List.infix_cons_iff.mp h).resolve_left hfront
      rw [remove_cons_of_not_front hfront, List.length_cons, List.length_cons]
      exact Nat.succ_lt_succ (ih hinfix)

theorem remove_eq_self_iff {l : List α} : remove part l = l ↔ part = [] ∨ ¬ part <:+: l := by
  constructor
  · intro h
    by_contra hnot
    push Not at hnot
    have hlt := length_remove_lt hnot.1 hnot.2
    rw [h] at hlt
    exact lt_irrefl _ hlt
  · rintro (rfl | h)
    · exact remove_nil_left l
    · exact remove_eq_self_of_not_infix h

theorem remove_cons_of_notMem {a : α} (h : a ∉ part) (l : List α) :
    remove part (a :: l) = a :: remove part l := by
  by_cases hpart : part = []
  · rw [hpart, remove_nil_left, remove_nil_left]
  · apply remove_cons_of_not_front
    intro hfront
    obtain ⟨b, rest, rfl⟩ := List.exists_cons_of_ne_nil hpart
    rw [List.cons_prefix_cons] at hfront
    exact h (by simp [hfront.1])

theorem remove_singleton (a : α) (l : List α) : remove [a] l = l.filter (· ≠ a) := by
  induction l with
  | nil => rfl
  | cons b l ih =>
    by_cases heq : b = a
    · subst heq
      rw [show b :: l = [b] ++ l from rfl, remove_append_self (by simp), ih]
      simp
    · rw [remove_cons_of_notMem (by simpa using heq), ih, List.filter_cons_of_pos (by simpa using heq)]

theorem flatten_splitOnP {β : Type*} (separates : β → Bool) (l : List β) :
    (l.splitOnP separates).flatten = l.filter fun b => !separates b := by
  induction l with
  | nil => rfl
  | cons b l ih =>
    rw [List.splitOnP_cons_eq_if_modifyHead]
    by_cases hb : separates b = true
    · simp [hb, ih]
    · obtain ⟨first, rest, hsplit⟩ :=
        List.exists_cons_of_ne_nil (List.splitOnP_ne_nil separates l)
      rw [hsplit, List.flatten_cons] at ih
      simp [hb, hsplit, ← ih]

end Removal
