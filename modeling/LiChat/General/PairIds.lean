import Mathlib.Data.Sym.Sym2.Order

/-!
# Ids of pairs

The id of a pair is the word of the smaller element followed by that of the greater one.
-/

namespace PairIds

variable {ι α : Type*} [LinearOrder ι] {word : ι → List α} {a b c d : ι}

/-- Without a separator. -/
def pairId (word : ι → List α) (a b : ι) : List α :=
  if a < b then word a ++ word b else word b ++ word a

theorem pairId_eq (word : ι → List α) (a b : ι) :
    pairId word a b = word (min a b) ++ word (max a b) := by
  unfold pairId
  split_ifs with h
  · rw [min_eq_left h.le, max_eq_right h.le]
  · rw [min_eq_right (not_lt.mp h), max_eq_left (not_lt.mp h)]

theorem pairId_comm (word : ι → List α) (a b : ι) : pairId word a b = pairId word b a := by
  rw [pairId_eq, pairId_eq, min_comm, max_comm]

theorem pairId_inj (hword : Function.Injective word) {n : ℕ} (ha : (word a).length = n)
    (hb : (word b).length = n) (hc : (word c).length = n) (hd : (word d).length = n) :
    pairId word a b = pairId word c d ↔ s(a, b) = s(c, d) := by
  have hmin : ∀ {x y}, (word x).length = n → (word y).length = n → (word (min x y)).length = n := by
    intro x y hx hy
    rcases min_choice x y with h | h <;> rwa [h]
  rw [pairId_eq, pairId_eq, ← Sym2.inf_eq_inf_and_sup_eq_sup]
  constructor
  · intro h
    obtain ⟨hfirst, hsecond⟩ := List.append_inj h ((hmin ha hb).trans (hmin hc hd).symm)
    exact ⟨hword hfirst, hword hsecond⟩
  · rintro ⟨hinf, hsup⟩
    exact congrArg₂ (fun x y => word x ++ word y) hinf hsup

end PairIds
