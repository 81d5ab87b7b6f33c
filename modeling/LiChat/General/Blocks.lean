import Mathlib.Data.List.Nodup

/-!
# Blocks of adjacent entries

A pass over a list opens a block whenever the key changes.  A block holds all the entries
with its key exactly when equal keys are adjacent.
-/

namespace Blocks

variable {α κ : Type*} [DecidableEq κ] (key : α → κ)

/-- The keys at which a pass that has been at the key `k` opens a block. -/
def opened : κ → List α → List κ
  | _, [] => []
  | k, a :: l => if key a ≠ k then key a :: opened (key a) l else opened (key a) l

/-- An entry whose key comes again is followed by an entry with that key. -/
def Adjacent : List α → Prop
  | [] => True
  | a :: l => (key a ∈ l.map key → (l.map key).head? = some (key a)) ∧ Adjacent l

instance decidableAdjacent : (l : List α) → Decidable (Adjacent key l)
  | [] => isTrue trivial
  | a :: l =>
    haveI := decidableAdjacent l
    inferInstanceAs (Decidable ((key a ∈ l.map key → (l.map key).head? = some (key a)) ∧ Adjacent key l))

variable {key}

theorem opened_cons_same {k : κ} {a : α} (h : key a = k) (l : List α) :
    opened key k (a :: l) = opened key k l := by
  rw [opened, if_neg (not_not.mpr h), h]

theorem opened_cons_ne {k : κ} {a : α} (h : key a ≠ k) (l : List α) :
    opened key k (a :: l) = key a :: opened key (key a) l := by
  rw [opened, if_pos h]

theorem mem_opened {k k' : κ} (h : k' ≠ k) {l : List α} : k' ∈ opened key k l ↔ k' ∈ l.map key := by
  induction l generalizing k with
  | nil => rfl
  | cons a l ih =>
    by_cases ha : key a = k
    · rw [opened_cons_same ha, ih h, List.map_cons, List.mem_cons, ha]
      exact (or_iff_right h).symm
    · rw [opened_cons_ne ha, List.mem_cons, List.map_cons, List.mem_cons]
      by_cases hk' : k' = key a
      · exact iff_of_true (Or.inl hk') (Or.inl hk')
      · rw [ih hk']

/-- No key opens a second block exactly when equal keys are adjacent and the keys equal to
the one before come first. -/
theorem nodup_opened {k : κ} {l : List α} : (k :: opened key k l).Nodup ↔
    (k ∈ l.map key → (l.map key).head? = some k) ∧ Adjacent key l := by
  induction l generalizing k with
  | nil => simp [opened, Adjacent]
  | cons a l ih =>
    by_cases ha : key a = k
    · rw [opened_cons_same ha, ih, Adjacent, ha]
      simp [ha]
    · have hne : k ≠ key a := Ne.symm ha
      rw [opened_cons_ne ha, List.nodup_cons, ih, List.mem_cons, mem_opened hne, Adjacent]
      have hhead : (k ∈ (a :: l).map key → ((a :: l).map key).head? = some k) ↔
          ¬ (k = key a ∨ k ∈ l.map key) := by
        simp [ha]
      rw [hhead]

theorem flatten_opened {k : κ} {l : List α} (h : (k :: opened key k l).Nodup) :
    ((k :: opened key k l).map fun k' => l.filter fun a => key a = k').flatten = l := by
  induction l generalizing k with
  | nil => simp [opened]
  | cons a l ih =>
    -- the other blocks do not begin with `a`
    have hothers : ∀ ks : List κ, key a ∉ ks →
        (ks.map fun k' => (a :: l).filter fun b => key b = k') =
          ks.map fun k' => l.filter fun b => key b = k' := by
      intro ks hks
      apply List.map_congr_left
      intro k' hk'
      have hne : key a ≠ k' := fun heq => hks (heq ▸ hk')
      simp [hne]
    by_cases ha : key a = k
    · subst ha
      rw [opened_cons_same rfl] at h ⊢
      have hrest := ih h
      rw [List.map_cons, List.flatten_cons] at hrest
      rw [List.map_cons, List.flatten_cons, hothers _ (List.nodup_cons.mp h).1,
        List.filter_cons_of_pos (by simp), List.cons_append, hrest]
    · rw [opened_cons_ne ha] at h ⊢
      obtain ⟨hk, hnodup⟩ := List.nodup_cons.mp h
      have hnone : ((a :: l).filter fun b => key b = k) = [] := by
        rw [List.filter_eq_nil_iff]
        intro b hb
        simp only [decide_eq_true_eq]
        rintro rfl
        rcases List.mem_cons.mp hb with rfl | hb
        · exact ha rfl
        · exact hk (List.mem_cons_of_mem _ ((mem_opened (Ne.symm ha)).mpr (List.mem_map_of_mem hb)))
      have hrest := ih hnodup
      rw [List.map_cons, List.flatten_cons] at hrest
      rw [List.map_cons, List.flatten_cons, hnone, List.nil_append, List.map_cons, List.flatten_cons,
        hothers _ (List.nodup_cons.mp hnodup).1, List.filter_cons_of_pos (by simp), List.cons_append,
        hrest]

theorem eraseDups_opened {k : κ} {l : List α} (h : (k :: opened key k l).Nodup) :
    k :: opened key k l = (k :: l.map key).eraseDups := by
  induction l generalizing k with
  | nil => simp [opened, List.eraseDups_cons]
  | cons a l ih =>
    by_cases ha : key a = k
    · rw [opened_cons_same ha] at h ⊢
      rw [ih h, List.map_cons, ha, List.eraseDups_cons, List.eraseDups_cons]
      simp
    · rw [opened_cons_ne ha] at h ⊢
      obtain ⟨hk, hnodup⟩ := List.nodup_cons.mp h
      have hfilter : ((a :: l).map key).filter (fun k' => !k' == k) = (a :: l).map key := by
        rw [List.filter_eq_self]
        intro k' hk'
        have hne : k' ≠ k := by
          rintro rfl
          rcases List.mem_cons.mp hk' with heq | hmem
          · exact ha heq.symm
          · exact hk (List.mem_cons_of_mem _ ((mem_opened (Ne.symm ha)).mpr hmem))
        simp [hne]
      rw [List.eraseDups_cons, hfilter, ih hnodup, List.map_cons]

end Blocks
