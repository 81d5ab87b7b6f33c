import Mathlib.Data.List.Forall2
import Mathlib.Data.List.Nodup

/-!
# Rows of a list
-/

namespace Rows

variable {α β : Type*} {l : List α} {n : ℕ} {a : α}

theorem eq_take_append_drop (h : l[n]? = some a) : l = l.take n ++ a :: l.drop (n + 1) := by
  obtain ⟨hn, rfl⟩ := List.getElem?_eq_some_iff.mp h
  rw [List.getElem_cons_drop hn, List.take_append_drop]

/-- A row of the filtered list is the same row of the whole list exactly when the filter
drops nothing up to it. -/
theorem filter_getElem?_iff {p : α → Bool} (hnodup : l.Nodup) (ha : (l.filter p)[n]? = some a) :
    l[n]? = some a ↔ ∀ b ∈ l.take (n + 1), p b := by
  have hpa : p a := (List.mem_filter.mp (List.mem_of_getElem? ha)).2
  constructor
  · intro h
    obtain ⟨hn, -⟩ := List.getElem?_eq_some_iff.mp h
    have hsplit : l.filter p = (l.take n).filter p ++ a :: (l.drop (n + 1)).filter p := by
      conv_lhs => rw [eq_take_append_drop h, List.filter_append, List.filter_cons_of_pos hpa]
    -- the row is determined by the number of entries that are kept before it
    have hat : (l.filter p)[((l.take n).filter p).length]? = some a := by
      rw [hsplit, List.getElem?_append_right (Nat.le_refl _), Nat.sub_self]
      rfl
    obtain ⟨hi, hvalue⟩ := List.getElem?_eq_some_iff.mp ha
    obtain ⟨hj, hvalue'⟩ := List.getElem?_eq_some_iff.mp hat
    have hlength : ((l.take n).filter p).length = (l.take n).length := by
      have heq := (hnodup.filter p).getElem_inj_iff.mp (hvalue.trans hvalue'.symm)
      rw [← heq, List.length_take_of_le (Nat.le_of_lt hn)]
    have hall := List.length_filter_eq_length_iff.mp hlength
    intro b hb
    rw [List.take_add_one, h, List.mem_append] at hb
    rcases hb with hb | hb
    · exact hall b hb
    · obtain rfl : b = a := by simpa using hb
      exact hpa
  · intro h
    have hsplit : l.filter p = l.take (n + 1) ++ (l.drop (n + 1)).filter p := by
      conv_lhs => rw [← List.take_append_drop (n + 1) l, List.filter_append, List.filter_eq_self.mpr h]
    obtain ⟨hi, -⟩ := List.getElem?_eq_some_iff.mp ha
    have hn : n < l.length := Nat.lt_of_lt_of_le hi (List.length_filter_le p l)
    have hlt : n < (l.take (n + 1)).length := by
      rw [List.length_take]
      omega
    rw [hsplit, List.getElem?_append_left hlt, List.getElem?_take] at ha
    simpa using ha

theorem eraseIdx_eq_filter [DecidableEq β] {f : α → β} (hnodup : (l.map f).Nodup)
    (h : l[n]? = some a) : l.eraseIdx n = l.filter fun b => f b ≠ f a := by
  have hsplit := eq_take_append_drop h
  rw [hsplit, List.map_append, List.map_cons, List.nodup_append] at hnodup
  obtain ⟨-, hafter, hdisjoint⟩ := hnodup
  have hbefore : (l.take n).filter (fun b => f b ≠ f a) = l.take n := by
    rw [List.filter_eq_self]
    intro b hb
    simpa using hdisjoint _ (List.mem_map_of_mem hb) _ List.mem_cons_self
  have hrest : (l.drop (n + 1)).filter (fun b => f b ≠ f a) = l.drop (n + 1) := by
    rw [List.filter_eq_self]
    intro b hb
    have hne : f b ≠ f a := fun heq => (List.nodup_cons.mp hafter).1 (heq ▸ List.mem_map_of_mem hb)
    simpa using hne
  rw [List.eraseIdx_eq_take_drop_succ]
  conv_rhs => rw [hsplit, List.filter_append, hbefore, List.filter_cons_of_neg (by simp), hrest]

theorem forall₂_eraseIdx {R : α → β → Prop} {l' : List β} (h : List.Forall₂ R l l') (n : ℕ) :
    List.Forall₂ R (l.eraseIdx n) (l'.eraseIdx n) := by
  induction h generalizing n with
  | nil => exact List.Forall₂.nil
  | cons hrow hrest ih =>
    cases n with
    | zero => exact hrest
    | succ n => exact List.Forall₂.cons hrow (ih n)

theorem forall₂_getElem? {R : α → β → Prop} {l' : List β} (h : List.Forall₂ R l l')
    (hn : n < l'.length) : ∃ a b, l[n]? = some a ∧ l'[n]? = some b ∧ R a b := by
  induction h generalizing n with
  | nil => cases hn
  | cons hrow hrest ih =>
    cases n with
    | zero => exact ⟨_, _, rfl, rfl, hrow⟩
    | succ n => exact ih (Nat.lt_of_succ_lt_succ hn)

theorem exists_forall₂ {R : β → α → Prop} (h : ∀ a ∈ l, ∃ b, R b a) :
    ∃ l', List.Forall₂ R l' l := by
  induction l with
  | nil => exact ⟨[], List.Forall₂.nil⟩
  | cons a l ih =>
    obtain ⟨b, hb⟩ := h a List.mem_cons_self
    obtain ⟨l', hl'⟩ := ih fun a' ha' => h a' (List.mem_cons_of_mem _ ha')
    exact ⟨b :: l', List.Forall₂.cons hb hl'⟩

theorem exists_of_forall₂ {R : α → β → Prop} {l' : List β} (h : List.Forall₂ R l l') {b : β}
    (hb : b ∈ l') : ∃ a ∈ l, R a b := by
  induction h with
  | nil => exact absurd hb List.not_mem_nil
  | @cons a b' l l' hab _ ih =>
    rcases List.mem_cons.mp hb with rfl | hb
    · exact ⟨a, List.mem_cons_self, hab⟩
    · obtain ⟨a', ha', hab'⟩ := ih hb
      exact ⟨a', List.mem_cons_of_mem _ ha', hab'⟩

theorem forall₂_comp {γ : Type*} {R : α → β → Prop} {S : β → γ → Prop} {l₁ : List β} {l₂ : List γ}
    (h : List.Forall₂ R l l₁) (h' : List.Forall₂ S l₁ l₂) :
    List.Forall₂ (fun a c => ∃ b, R a b ∧ S b c) l l₂ := by
  induction h generalizing l₂ with
  | nil =>
    obtain rfl := List.forall₂_nil_left_iff.mp h'
    exact List.Forall₂.nil
  | cons hrow _ ih =>
    obtain ⟨c, l₂, hrow', hrest', rfl⟩ := List.forall₂_cons_left_iff.mp h'
    exact List.Forall₂.cons ⟨_, hrow, hrow'⟩ (ih hrest')

theorem map_eq_of_forall₂ {γ : Type*} {f : α → γ} {g : β → γ} {l' : List β}
    (h : List.Forall₂ (fun a b => f a = g b) l l') : l.map f = l'.map g := by
  rw [← List.forall₂_eq_eq_eq, List.forall₂_map_left_iff, List.forall₂_map_right_iff]
  exact h

end Rows
