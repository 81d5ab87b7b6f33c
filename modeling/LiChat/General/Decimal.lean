import Mathlib.Data.List.Lex
import Mathlib.Data.Nat.Init
import Mathlib.Data.Char
import Mathlib.Data.Nat.Log
import Mathlib.Tactic.IntervalCases
import Mathlib.Tactic.Positivity
import Mathlib.Tactic.Ring

/-!
# Decimal numbers of a fixed width

Numbers written with a fixed number of decimal digits compare as strings the way
they compare as numbers.
-/

namespace Decimal

/-- The last `w` decimal digits of `k`, most significant digit first. -/
def pad : ℕ → ℕ → List Char
  | 0, _ => []
  | w + 1, k => Nat.digitChar (k / 10 ^ w % 10) :: pad w k

def value (cs : List Char) : Option ℕ :=
  cs.foldlM (fun k c => if c.isDigit then some (10 * k + (c.toNat - '0'.toNat)) else none) 0

@[simp] theorem pad_length (w k : ℕ) : (pad w k).length = w := by
  induction w with
  | zero => rfl
  | succ w ih => simp [pad, ih]

theorem digitChar_lt_iff {a b : ℕ} (ha : a < 10) (hb : b < 10) :
    Nat.digitChar a < Nat.digitChar b ↔ a < b := by
  interval_cases a <;> interval_cases b <;> decide

theorem digitChar_inj {a b : ℕ} (ha : a < 10) (hb : b < 10) :
    Nat.digitChar a = Nat.digitChar b ↔ a = b := by
  interval_cases a <;> interval_cases b <;> decide

theorem isDigit_digitChar {a : ℕ} (ha : a < 10) : (Nat.digitChar a).isDigit := by
  interval_cases a <;> decide

theorem isDigit_of_mem_pad {w k : ℕ} {c : Char} (h : c ∈ pad w k) : c.isDigit := by
  induction w with
  | zero => simp [pad] at h
  | succ w ih =>
    rcases List.mem_cons.mp h with rfl | h
    · exact isDigit_digitChar (Nat.mod_lt _ (by decide))
    · exact ih h

theorem pad_mod (w v k : ℕ) (hv : w ≤ v) : pad w (k % 10 ^ v) = pad w k := by
  induction w with
  | zero => rfl
  | succ w ih =>
    rw [pad, pad, ih (by omega)]
    congr 2
    obtain ⟨e, rfl⟩ := Nat.exists_eq_add_of_le hv
    have hpow : 10 ^ (w + 1 + e) = 10 ^ w * (10 * 10 ^ e) := by ring
    rw [hpow, Nat.mod_mul_right_div_self, Nat.mod_mul_right_mod]

theorem pad_append (v w x y : ℕ) (hy : y < 10 ^ w) :
    pad v x ++ pad w y = pad (v + w) (x * 10 ^ w + y) := by
  induction v with
  | zero =>
    rw [pad, List.nil_append, Nat.zero_add, ← pad_mod w w (x * 10 ^ w + y) le_rfl,
      Nat.mul_add_mod_of_lt hy]
  | succ v ih =>
    have hdiv : (x * 10 ^ w + y) / 10 ^ (v + w) = x / 10 ^ v := by
      rw [Nat.add_comm v w, pow_add, ← Nat.div_div_eq_div_mul, Nat.mul_comm x,
        Nat.mul_add_div (by positivity), Nat.div_eq_of_lt hy, Nat.add_zero]
    rw [Nat.add_right_comm, pad, pad, List.cons_append, ih, hdiv]

theorem pad_lt_pad {w a b : ℕ} (ha : a < 10 ^ w) (hb : b < 10 ^ w) :
    pad w a < pad w b ↔ a < b := by
  induction w generalizing a b with
  | zero =>
    have ha' : a = 0 := by simpa using ha
    have hb' : b = 0 := by simpa using hb
    simp [pad, ha', hb']
  | succ w ih =>
    have hp : 0 < 10 ^ w := by positivity
    have hqa : a / 10 ^ w < 10 := Nat.div_lt_of_lt_mul (by rwa [pow_succ] at ha)
    have hqb : b / 10 ^ w < 10 := Nat.div_lt_of_lt_mul (by rwa [pow_succ] at hb)
    have ha' := Nat.div_add_mod a (10 ^ w)
    have hb' := Nat.div_add_mod b (10 ^ w)
    have hra := Nat.mod_lt a hp
    have hrb := Nat.mod_lt b hp
    rw [pad, pad, List.cons_lt_cons_iff, Nat.mod_eq_of_lt hqa, Nat.mod_eq_of_lt hqb,
      digitChar_lt_iff hqa hqb, digitChar_inj hqa hqb, ← pad_mod w w a le_rfl,
      ← pad_mod w w b le_rfl, ih hra hrb]
    constructor
    · rintro (h | ⟨h, h'⟩)
      · exact Nat.lt_of_div_lt_div h
      · rw [h] at ha'
        omega
    · intro h
      rcases Nat.lt_trichotomy (a / 10 ^ w) (b / 10 ^ w) with hq | hq | hq
      · exact Or.inl hq
      · rw [hq] at ha'
        exact Or.inr ⟨hq, by omega⟩
      · exact absurd (Nat.lt_of_div_lt_div hq) (by omega)

theorem toNat_digitChar {a : ℕ} (ha : a < 10) : (Nat.digitChar a).toNat - '0'.toNat = a := by
  interval_cases a <;> decide

theorem value_pad {w k : ℕ} (hk : k < 10 ^ w) : value (pad w k) = some k := by
  have hloop : ∀ (w k a : ℕ), (pad w k).foldlM (fun k c =>
      if c.isDigit then some (10 * k + (c.toNat - '0'.toNat)) else none) a =
        some (a * 10 ^ w + k % 10 ^ w) := by
    intro w
    induction w with
    | zero => intro k a; simp [pad, Nat.mod_one]
    | succ w ih =>
      intro k a
      have hdigit : k / 10 ^ w % 10 < 10 := Nat.mod_lt _ (by decide)
      rw [pad, List.foldlM_cons, if_pos (isDigit_digitChar hdigit), toNat_digitChar hdigit]
      show List.foldlM _ (10 * a + k / 10 ^ w % 10) (pad w k) = _
      rw [ih, pow_succ, Nat.mod_mul]
      congr 1
      ring
  rw [value, hloop, Nat.zero_mul, Nat.zero_add, Nat.mod_eq_of_lt hk]

/-- All decimal digits of `k`, and zeros before them up to the width `w`. -/
def atLeast (w k : ℕ) : List Char := pad (max w (Nat.log 10 k + 1)) k

theorem value_atLeast (w k : ℕ) : value (atLeast w k) = some k := by
  apply value_pad
  calc k < 10 ^ (Nat.log 10 k + 1) := Nat.lt_pow_succ_log_self (by decide) k
    _ ≤ 10 ^ max w (Nat.log 10 k + 1) := Nat.pow_le_pow_right (by decide) (le_max_right _ _)

def signed (w : ℕ) (k : ℤ) : List Char :=
  if k < 0 then '-' :: atLeast w k.natAbs else atLeast w k.natAbs

theorem dash_notMem_atLeast (w k : ℕ) : '-' ∉ atLeast w k := by
  intro hmem
  have hdigit := isDigit_of_mem_pad hmem
  exact absurd hdigit (by decide)

theorem signed_inj {w : ℕ} {j k : ℤ} : signed w j = signed w k ↔ j = k := by
  constructor
  · intro h
    have hsame : ∀ a b : ℕ, atLeast w a = atLeast w b → a = b := by
      intro a b hab
      have hvalue := value_atLeast w a
      rw [hab, value_atLeast] at hvalue
      exact (Option.some.inj hvalue).symm
    unfold signed at h
    split_ifs at h with hj hk hk
    · have habs := hsame _ _ (List.cons.inj h).2
      omega
    · exact absurd (h ▸ List.mem_cons_self) (dash_notMem_atLeast w k.natAbs)
    · exact absurd (h ▸ List.mem_cons_self) (dash_notMem_atLeast w j.natAbs)
    · have habs := hsame _ _ h
      omega
  · intro h
    rw [h]

end Decimal
