import Mathlib.Data.List.Basic
import Mathlib.Data.List.Nodup
import Mathlib.Algebra.Group.Nat.Even

/-!
# Lists that are toggled

Toggling an element removes its first occurrence, or appends it where there is none.
-/

namespace Toggle

variable {α : Type*} [DecidableEq α]

def toggle (a : α) (l : List α) : List α := if a ∈ l then l.erase a else l ++ [a]

theorem nodup_toggle {a : α} {l : List α} (hl : l.Nodup) : (toggle a l).Nodup := by
  unfold toggle
  split_ifs with h
  · exact hl.erase a
  · rw [← List.concat_eq_append]
    exact hl.concat h

theorem mem_toggle_of_ne {a b : α} {l : List α} (h : b ≠ a) : b ∈ toggle a l ↔ b ∈ l := by
  unfold toggle
  split_ifs
  · exact List.mem_erase_of_ne h
  · simp [h]

theorem mem_toggle_self {a : α} {l : List α} (hl : l.Nodup) : a ∈ toggle a l ↔ a ∉ l := by
  unfold toggle
  split_ifs with h
  · exact iff_of_false (fun hmem => (hl.mem_erase_iff.mp hmem).1 rfl) (not_not.mpr h)
  · exact iff_of_true (List.mem_append_right l (List.mem_singleton_self a)) h

theorem erase_eq_filter_iff {a : α} {l : List α} : l.erase a = l.filter (· ≠ a) ↔ l.count a ≤ 1 := by
  induction l with
  | nil => simp
  | cons b l ih =>
    by_cases h : b = a
    · subst h
      rw [List.erase_cons_head, List.filter_cons_of_neg (by simp), List.count_cons_self,
        eq_comm, List.filter_eq_self, Nat.succ_le_succ_iff, Nat.le_zero, List.count_eq_zero]
      constructor
      · intro hne hmem
        simpa using hne b hmem
      · intro hnot c hc
        have hne : c ≠ b := fun heq => hnot (heq ▸ hc)
        simpa using hne
    · rw [List.erase_cons_tail (by simpa using h), List.filter_cons_of_pos (by simpa using h),
        List.cons_inj_right, ih, List.count_cons_of_ne h]

def toggleAll (as l : List α) : List α := as.foldl (fun l a => toggle a l) l

theorem nodup_toggleAll (as : List α) {l : List α} (hl : l.Nodup) : (toggleAll as l).Nodup := by
  induction as generalizing l with
  | nil => exact hl
  | cons a as ih => exact ih (nodup_toggle hl)

/-- Only the parity of the toggles of an element matters. -/
theorem mem_toggleAll (as : List α) {l : List α} (hl : l.Nodup) (b : α) :
    b ∈ toggleAll as l ↔ (b ∈ l ↔ Even (as.count b)) := by
  induction as generalizing l with
  | nil => simp [toggleAll]
  | cons a as ih =>
    show b ∈ toggleAll as (toggle a l) ↔ _
    rw [ih (nodup_toggle hl)]
    by_cases h : a = b
    · subst h
      rw [mem_toggle_self hl, List.count_cons_self, Nat.even_add_one]
      tauto
    · rw [mem_toggle_of_ne (Ne.symm h), List.count_cons_of_ne h]

end Toggle
