import Mathlib.Data.List.Nodup

/-!
# The latest entry of a history

`latest p l` is the last entry of `l` that satisfies `p`.
-/

namespace Histories

variable {α β : Type*} {p : α → Bool}

def latest (p : α → Bool) (l : List α) : Option α := (l.filter p).getLast?

@[simp] theorem latest_nil : latest p ([] : List α) = none := rfl

theorem latest_append (l l' : List α) : latest p (l ++ l') = (latest p l').or (latest p l) := by
  rw [latest, List.filter_append, List.getLast?_append]
  rfl

theorem latest_cons (a : α) (l : List α) :
    latest p (a :: l) = (latest p l).or (if p a then some a else none) := by
  rw [← List.singleton_append, latest_append]
  by_cases h : p a <;> simp [latest, h]

theorem latest_concat (l : List α) (a : α) :
    latest p (l ++ [a]) = if p a then some a else latest p l := by
  rw [latest_append, latest_cons, latest_nil, Option.none_or]
  split_ifs <;> rfl

theorem latest_congr {q : α → Bool} {l : List α} (h : ∀ a ∈ l, p a = q a) :
    latest p l = latest q l := by
  rw [latest, List.filter_congr h, latest]

theorem latest_eq_none {l : List α} : latest p l = none ↔ ∀ a ∈ l, ¬ p a := by
  rw [latest, List.getLast?_eq_none_iff, List.filter_eq_nil_iff]

theorem mem_of_latest {l : List α} {a : α} (h : latest p l = some a) : a ∈ l ∧ p a :=
  List.mem_filter.mp (List.mem_of_getLast? h)

theorem set_eq {l : List α} {n : ℕ} {a : α} (h : l[n]? = some a) (b : α) :
    l.set n b = l.take n ++ b :: l.drop (n + 1) := by
  rw [List.set_eq_take_append_cons_drop, if_pos (List.getElem?_eq_some_iff.mp h).1]

theorem map_set_of_same {l : List α} {n : ℕ} {a b : α} {f : α → β} (h : l[n]? = some a)
    (hf : f b = f a) : (l.set n b).map f = l.map f := by
  obtain ⟨hn, rfl⟩ := List.getElem?_eq_some_iff.mp h
  conv_rhs => rw [← List.set_getElem_self hn]
  rw [List.map_set, List.map_set, hf]

theorem latest_set_of_last {l : List α} {n : ℕ} {a b : α} (h : l[n]? = some a) (hb : p b)
    (hlater : ∀ c ∈ l.drop (n + 1), ¬ p c) : latest p (l.set n b) = some b := by
  rw [set_eq h, latest_append, latest_cons, latest_eq_none.mpr hlater, if_pos hb]
  rfl

theorem latest_set_of_same {l : List α} {n : ℕ} {a b : α} {f : α → β} (h : l[n]? = some a)
    (hp : p b = p a) (hf : f b = f a) : (latest p (l.set n b)).map f = (latest p l).map f := by
  have hself : l.set n a = l := by
    obtain ⟨hn, rfl⟩ := List.getElem?_eq_some_iff.mp h
    exact List.set_getElem_self hn
  conv_rhs => rw [← hself]
  rw [set_eq h, set_eq h, latest_append, latest_append, latest_cons, latest_cons, hp]
  cases latest p (l.drop (n + 1)) with
  | some c => rfl
  | none =>
    rw [Option.none_or, Option.none_or]
    split_ifs
    · exact congrArg some hf
    · rfl

theorem latest_of_nodup [DecidableEq β] {l : List α} {f : α → β} (hl : (l.map f).Nodup) {a : α}
    (ha : a ∈ l) : latest (fun b => f b = f a) l = some a := by
  cases hlatest : latest (fun b => f b = f a) l with
  | none => exact absurd (by simp) (latest_eq_none.mp hlatest a ha)
  | some b =>
    obtain ⟨hb, hfb⟩ := mem_of_latest hlatest
    rw [List.inj_on_of_nodup_map hl hb ha (of_decide_eq_true hfb)]

section Fold
variable {σ : Type*} {g : σ → α → σ} {f : α → β} {l : List α}

theorem foldl_latest (view : σ → β) (hg : ∀ s a, view (g s a) = if p a then f a else view s)
    (l : List α) (s : σ) : view (l.foldl g s) = ((latest p l).map f).getD (view s) := by
  induction l generalizing s with
  | nil => rfl
  | cons a l ih =>
    rw [List.foldl_cons, ih, hg, latest_cons]
    cases latest p l with
    | some b => rfl
    | none => by_cases h : p a <;> simp [h]

theorem exists_perm_latest {a : α} (ha : a ∈ l) (hp : p a) :
    ∃ l', l'.Perm l ∧ latest p l' = some a := by
  classical
  refine ⟨l.erase a ++ [a], ?_, ?_⟩
  · exact (List.perm_append_singleton a (l.erase a)).trans (List.perm_cons_erase ha).symm
  · rw [latest_concat, if_pos hp]

theorem forall_perm_latest_iff {b c : β} :
    (∀ l' : List α, l'.Perm l → ((latest p l').map f).getD b = c) ↔
      (∀ a ∈ l, p a → f a = c) ∧ ((∀ a ∈ l, ¬ p a) → b = c) := by
  constructor
  · intro h
    refine ⟨fun a ha hp => ?_, fun hnone => ?_⟩
    · obtain ⟨l', hperm, hlatest⟩ := exists_perm_latest ha hp
      have hc := h l' hperm
      rwa [hlatest] at hc
    · have hc := h l (List.Perm.refl l)
      rwa [latest_eq_none.mpr hnone] at hc
  · rintro ⟨hall, hnone⟩ l' hperm
    cases hlatest : latest p l' with
    | none => exact hnone fun a ha => latest_eq_none.mp hlatest a (hperm.mem_iff.mpr ha)
    | some a =>
      obtain ⟨ha, hp⟩ := mem_of_latest hlatest
      exact hall a (hperm.mem_iff.mp ha) hp

end Fold

section Current
variable [DecidableEq β] {f : α → β} {shown history items : List α}

variable (f) in
/-- What is shown is the latest entry of the history with its `f`. -/
def Current (shown history : List α) : Prop :=
  ∀ a ∈ shown, latest (fun b => f b = f a) history = some a

instance [DecidableEq α] : Decidable (Current f shown history) :=
  inferInstanceAs (Decidable (∀ a ∈ shown, _))

theorem current_append_left {page : List α} :
    Current f (page ++ shown) history ↔ Current f page history ∧ Current f shown history :=
  List.forall_mem_append

theorem Current.sublist {shown' : List α} (h : Current f shown history)
    (hshown : shown'.Sublist shown) : Current f shown' history :=
  fun a ha => h a (hshown.subset ha)

theorem current_append_iff (hitems : (items.map f).Nodup) (h : Current f shown history) :
    Current f shown (history ++ items) ↔ ∀ a ∈ shown, ∀ b ∈ items, f b = f a → b = a := by
  refine forall₂_congr fun a ha => ?_
  rw [latest_append, h a ha]
  constructor
  · intro hlatest b hb hfb
    have hlast := latest_of_nodup hitems hb
    rw [hfb] at hlast
    rw [hlast] at hlatest
    exact Option.some.inj hlatest
  · intro hagree
    cases hlatest : latest (fun b => f b = f a) items with
    | none => rfl
    | some b =>
      obtain ⟨hb, hfb⟩ := mem_of_latest hlatest
      rw [hagree b hb (of_decide_eq_true hfb)]
      rfl

theorem current_of_subset (hitems : (items.map f).Nodup) (hshown : ∀ a ∈ shown, a ∈ items) :
    Current f shown (history ++ items) := by
  intro a ha
  rw [latest_append, latest_of_nodup hitems (hshown a ha)]
  rfl

end Current

end Histories
