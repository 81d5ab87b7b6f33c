import Mathlib.Data.List.Sort
import Mathlib.Order.Basic

/-!
# Windows over keyed items

Items are ordered by a key.  A window keeps the `n` items with the greatest keys;
the theorems compare the window with the items left outside it and with queries
that cut at the least or at the greatest key of a sorted list.
-/

namespace Windows

variable {α κ : Type*} [LinearOrder κ] (key : α → κ) (n : ℕ)

def descending (l : List α) : List α := l.insertionSort fun a b => key b ≤ key a

def ascending (l : List α) : List α := l.insertionSort fun a b => key a ≤ key b

/-- The `n` items with the greatest keys. -/
def newest (l : List α) : List α := (descending key l).take n

def older (l : List α) : List α := (descending key l).drop n

/-- The keys never decrease along the list. -/
def Ascending (l : List α) : Prop := l.Pairwise fun a b => key a ≤ key b

theorem descending_perm (l : List α) : (descending key l).Perm l :=
  List.perm_insertionSort ..

theorem ascending_perm (l : List α) : (ascending key l).Perm l :=
  List.perm_insertionSort ..

theorem pairwise_descending (l : List α) :
    (descending key l).Pairwise fun a b => key b ≤ key a := by
  have htotal : Std.Total fun a b : α => key b ≤ key a := ⟨fun a b => le_total (key b) (key a)⟩
  have htrans : IsTrans α fun a b => key b ≤ key a := ⟨fun _ _ _ hab hbc => hbc.trans hab⟩
  exact List.pairwise_insertionSort _ _

theorem ascending_ascending (l : List α) : Ascending key (ascending key l) := by
  have htotal : Std.Total fun a b : α => key a ≤ key b := ⟨fun a b => le_total (key a) (key b)⟩
  have htrans : IsTrans α fun a b => key a ≤ key b := ⟨fun _ _ _ hab hbc => hab.trans hbc⟩
  exact List.pairwise_insertionSort _ _

theorem newest_append_older (l : List α) : (newest key n l ++ older key n l).Perm l := by
  rw [newest, older, List.take_append_drop]
  exact descending_perm key l

variable {key n}

theorem key_older_le {l : List α} {a b : α} (ha : a ∈ newest key n l) (hb : b ∈ older key n l) :
    key b ≤ key a := by
  have h := pairwise_descending key l
  rw [← List.take_append_drop n (descending key l), List.pairwise_append] at h
  exact h.2.2 a ha b hb

theorem length_newest (l : List α) : (newest key n l).length = min n l.length := by
  rw [newest, List.length_take, (descending_perm key l).length_eq]

theorem older_eq_nil {l : List α} (h : (newest key n l).length < n) : older key n l = [] := by
  rw [older, List.drop_eq_nil_iff, (descending_perm key l).length_eq]
  rw [length_newest] at h
  omega

theorem Ascending.head_le {l : List α} (h : Ascending key l) {first a : α}
    (hfirst : l.head? = some first) (ha : a ∈ l) : key first ≤ key a := by
  obtain ⟨l', rfl⟩ := List.head?_eq_some_iff.mp hfirst
  rcases List.mem_cons.mp ha with rfl | ha
  · exact le_rfl
  · exact (List.pairwise_cons.mp h).1 a ha

theorem Ascending.le_getLast {l : List α} (h : Ascending key l) {last a : α}
    (hlast : l.getLast? = some last) (ha : a ∈ l) : key a ≤ key last := by
  obtain ⟨l', rfl⟩ := List.getLast?_eq_some_iff.mp hlast
  rcases List.mem_append.mp ha with ha | ha
  · exact (List.pairwise_append.mp h).2.2 a ha last (List.mem_singleton_self last)
  · rw [List.mem_singleton.mp ha]

theorem not_sublist_of_sublist {l : List α} (hl : l.Nodup) {a b : α} (h : [a, b].Sublist l) :
    ¬ [b, a].Sublist l := by
  induction l with
  | nil => simp at h
  | cons x l ih =>
    obtain ⟨hx, hl⟩ := List.nodup_cons.mp hl
    intro h'
    rcases List.sublist_cons_iff.mp h with hab | ⟨r, hr, hb⟩
    · rcases List.sublist_cons_iff.mp h' with hba | ⟨r', hr', -⟩
      · exact ih hl hab hba
      · obtain ⟨rfl, -⟩ := List.cons.inj hr'
        exact hx (hab.subset (List.mem_cons_of_mem _ (List.mem_singleton_self _)))
    · obtain ⟨rfl, rfl⟩ := List.cons.inj hr
      rcases List.sublist_cons_iff.mp h' with hba | ⟨r', hr', -⟩
      · exact hx (hba.subset (List.mem_cons_of_mem _ (List.mem_singleton_self _)))
      · obtain ⟨rfl, -⟩ := List.cons.inj hr'
        exact hx (hb.subset (List.mem_singleton_self _))

variable (key) in
/-- A list is recovered from every arrangement of it by sorting exactly when its
keys increase strictly. -/
theorem ascending_eq_iff {l : List α} (hl : l.Nodup) :
    (∀ m : List α, m.Perm l → ascending key m = l) ↔ l.Pairwise fun a b => key a < key b := by
  constructor
  · intro hsort
    apply List.pairwise_iff_forall_sublist.mpr
    intro a b hab
    have hsorted : l.Pairwise fun a b => key a ≤ key b :=
      hsort l (List.Perm.refl l) ▸ ascending_ascending key l
    have hle : key a ≤ key b := List.pairwise_iff_forall_sublist.mp hsorted hab
    apply lt_of_le_of_ne hle
    intro heq
    -- sorting is stable, so equal keys of the reversed list would stay reversed
    have hba : [b, a].Sublist l.reverse := hab.reverse
    have hstable := List.pair_sublist_insertionSort (r := fun a b => key a ≤ key b) heq.ge hba
    have hreverse : l.reverse.insertionSort (fun a b => key a ≤ key b) = l :=
      hsort l.reverse (List.reverse_perm l)
    rw [hreverse] at hstable
    exact not_sublist_of_sublist hl hab hstable
  · intro hlt m hm
    have hkeys : (l.map key).Nodup := List.pairwise_map.mpr (hlt.imp ne_of_lt)
    have hperm := (ascending_perm key m).trans hm
    apply List.Perm.eq_of_pairwise _ (ascending_ascending key m) (hlt.imp le_of_lt) hperm
    intro a b ha hb hab hba
    exact List.inj_on_of_nodup_map hkeys (hperm.subset ha) hb (le_antisymm hab hba)

theorem filter_perm_iff {l : List α} {p : α → Bool} : (l.filter p).Perm l ↔ ∀ a ∈ l, p a := by
  constructor
  · intro h
    exact List.length_filter_eq_length_iff.mp h.length_eq
  · intro h
    rw [List.filter_eq_self.mpr h]

theorem filter_append_filter_perm_iff {l m : List α} {p q : α → Bool} :
    (l.filter p ++ m.filter q).Perm (l ++ m) ↔ (∀ a ∈ l, p a) ∧ ∀ a ∈ m, q a := by
  constructor
  · intro h
    have hlength := h.length_eq
    rw [List.length_append, List.length_append] at hlength
    have hl := List.length_filter_le p l
    have hm := List.length_filter_le q m
    constructor
    · exact List.length_filter_eq_length_iff.mp (by omega)
    · exact List.length_filter_eq_length_iff.mp (by omega)
  · rintro ⟨hl, hm⟩
    rw [List.filter_eq_self.mpr hl, List.filter_eq_self.mpr hm]

end Windows
