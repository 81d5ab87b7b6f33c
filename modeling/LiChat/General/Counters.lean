import Mathlib.Data.List.Count
import Mathlib.Data.List.DropRight
import Mathlib.Data.List.Perm.Basic
import Mathlib.Tactic.Ring

/-!
# Counters that their owners reset and everybody else bumps

Every owner has a counter.  A bump by `v` raises all counters but the one of `v`;
a reset by `v` sets the counter of `v` to zero and leaves the others alone.  If
every counter has some order of the same operations that explains its value, then
one order explains all of them.
-/

namespace Counters

inductive Kind (υ : Type*) where
  | bump (v : υ)
  | reset (v : υ)

variable {ι υ : Type*} [DecidableEq υ] (kind : ι → Kind υ)

/-- What one operation does to the counter of `u`. -/
def effect (u : υ) : Kind υ → ℤ → ℤ
  | .bump v, x => if v = u then x else x + 1
  | .reset v, x => if v = u then 0 else x

/-- The counter of `u` after the operations, from the value `x`. -/
def final (u : υ) (x : ℤ) (order : List ι) : ℤ := order.foldl (fun x i => effect u (kind i) x) x

/-- The operation raises the counter of `u`. -/
def bumps (u : υ) (i : ι) : Bool :=
  match kind i with
  | .bump v => v ≠ u
  | .reset _ => false

/-- The operation resets the counter of `u`. -/
def resets (u : υ) (i : ι) : Bool :=
  match kind i with
  | .bump _ => false
  | .reset v => v = u

@[simp] theorem final_nil (u : υ) (x : ℤ) : final kind u x [] = x := rfl

theorem final_cons (u : υ) (x : ℤ) (i : ι) (order : List ι) :
    final kind u x (i :: order) = final kind u (effect u (kind i) x) order := rfl

theorem final_append (u : υ) (x : ℤ) (order order' : List ι) :
    final kind u x (order ++ order') = final kind u (final kind u x order) order' :=
  List.foldl_append

variable {kind}

theorem bumps_of_bump {u v : υ} {i : ι} (h : kind i = .bump v) : bumps kind u i = decide (v ≠ u) := by
  rw [bumps, h]

theorem bumps_of_reset {u v : υ} {i : ι} (h : kind i = .reset v) : bumps kind u i = false := by
  rw [bumps, h]

theorem resets_of_bump {u v : υ} {i : ι} (h : kind i = .bump v) : resets kind u i = false := by
  rw [resets, h]

theorem resets_of_reset {u v : υ} {i : ι} (h : kind i = .reset v) :
    resets kind u i = decide (v = u) := by
  rw [resets, h]

theorem effect_eq (u : υ) (i : ι) (x : ℤ) : effect u (kind i) x =
    if resets kind u i then 0 else if bumps kind u i then x + 1 else x := by
  cases hi : kind i with
  | bump v =>
    rw [resets_of_bump hi, bumps_of_bump hi]
    by_cases h : v = u <;> simp [effect, h]
  | reset v =>
    rw [resets_of_reset hi, bumps_of_reset hi]
    by_cases h : v = u <;> simp [effect, h]

theorem final_of_no_reset {u : υ} {order : List ι} (h : ∀ i ∈ order, ¬ resets kind u i) (x : ℤ) :
    final kind u x order = x + order.countP (bumps kind u) := by
  induction order generalizing x with
  | nil => simp
  | cons i order ih =>
    have hi := h i List.mem_cons_self
    rw [final_cons, ih (fun j hj => h j (List.mem_cons_of_mem _ hj)), effect_eq, if_neg hi,
      List.countP_cons]
    split_ifs <;> push_cast <;> ring

theorem final_of_reset {u : υ} {order : List ι} (h : ∃ i ∈ order, resets kind u i) :
    ∃ k, k ≤ order.countP (bumps kind u) ∧ ∀ x, final kind u x order = (k : ℤ) := by
  induction order with
  | nil => simp at h
  | cons i order ih =>
    by_cases hrest : ∃ j ∈ order, resets kind u j
    · obtain ⟨k, hk, hfinal⟩ := ih hrest
      refine ⟨k, hk.trans ?_, fun x => hfinal _⟩
      rw [List.countP_cons]
      omega
    · have hi : resets kind u i := by
        obtain ⟨j, hj, hreset⟩ := h
        rcases List.mem_cons.mp hj with rfl | hj
        · exact hreset
        · exact absurd ⟨j, hj, hreset⟩ hrest
      refine ⟨order.countP (bumps kind u), ?_, fun x => ?_⟩
      · rw [List.countP_cons]
        omega
      · rw [final_cons, effect_eq, if_pos hi,
          final_of_no_reset (fun j hj hreset => hrest ⟨j, hj, hreset⟩), zero_add]

variable (kind)

/-- The owner of a reset may reset now: as many bumps are left as shall count. -/
def ready (k : υ → ℕ) (left : List ι) (i : ι) : Bool :=
  match kind i with
  | .bump _ => false
  | .reset v => left.countP (bumps kind v) = k v

/-- The bumps in the given order, and each owner's resets as soon as only `k` bumps
of the owner's counter are left. -/
def arrange (k : υ → ℕ) : List ι → List ι → List ι
  | [], clears => clears
  | i :: sends, clears =>
    clears.filter (ready kind k (i :: sends)) ++
      i :: arrange k sends (clears.filter fun c => !ready kind k (i :: sends) c)

theorem arrange_perm (k : υ → ℕ) (sends clears : List ι) :
    (arrange kind k sends clears).Perm (sends ++ clears) := by
  induction sends generalizing clears with
  | nil => exact List.Perm.refl _
  | cons i sends ih =>
    have hsplit := List.filter_append_perm (ready kind k (i :: sends)) clears
    have hrest := List.perm_append_comm_assoc (clears.filter (ready kind k (i :: sends))) sends
      (clears.filter fun c => !ready kind k (i :: sends) c)
    have hmiddle := ((ih (clears.filter fun c => !ready kind k (i :: sends) c)).cons i).append_left
      (clears.filter (ready kind k (i :: sends)))
    exact (hmiddle.trans List.perm_middle).trans
      ((hrest.trans (hsplit.append_left sends)).cons i)

variable {kind}

theorem ready_iff {k : υ → ℕ} {left : List ι} {u : υ} {i : ι} (h : resets kind u i) :
    ready kind k left i = decide (left.countP (bumps kind u) = k u) := by
  cases hi : kind i with
  | bump v => simp [resets_of_bump hi] at h
  | reset v =>
    obtain rfl : v = u := by simpa [resets_of_reset hi] using h
    rw [ready, hi]

/-- The arranged operations leave `k u` in every counter that is reset, and count
all bumps in the others. -/
theorem final_arrange {k : υ → ℕ} {u : υ} (sends clears : List ι)
    (hsends : ∀ i ∈ sends, ¬ resets kind u i) (hclears : ∀ i ∈ clears, ¬ bumps kind u i)
    (hk : (∃ i ∈ clears, resets kind u i) → k u ≤ sends.countP (bumps kind u)) (x : ℤ) :
    final kind u x (arrange kind k sends clears) =
      if ∃ i ∈ clears, resets kind u i then (k u : ℤ) else x + sends.countP (bumps kind u) := by
  -- over the bumps that are left; the resets that are due go before each
  induction sends generalizing clears x with
  | nil =>
    have hcount : clears.countP (bumps kind u) = 0 := List.countP_eq_zero.mpr hclears
    split_ifs with hreset
    · obtain ⟨j, hj, hfinal⟩ := final_of_reset hreset
      have hzero := hk hreset
      rw [arrange, hfinal]
      simp only [List.countP_nil] at hzero
      omega
    · rw [arrange, final_of_no_reset fun i hi h => hreset ⟨i, hi, h⟩, hcount]
      simp
  | cons i sends ih =>
    have hi := hsends i List.mem_cons_self
    set now := clears.filter (ready kind k (i :: sends)) with hnow
    set later := clears.filter (fun c => !ready kind k (i :: sends) c) with hlater
    have hlaterBumps : ∀ c ∈ later, ¬ bumps kind u c := fun c hc =>
      hclears c (List.mem_of_mem_filter hc)
    have hnowBumps : now.countP (bumps kind u) = 0 :=
      List.countP_eq_zero.mpr fun c hc => hclears c (List.mem_of_mem_filter hc)
    rw [arrange, final_append, final_cons]
    by_cases hreset : ∃ c ∈ clears, resets kind u c
    · rw [if_pos hreset]
      obtain ⟨c, hc, hcu⟩ := hreset
      have hcount := hk ⟨c, hc, hcu⟩
      by_cases hready : (i :: sends).countP (bumps kind u) = k u
      · -- all resets of `u` happen now
        have hnone : ¬ ∃ d ∈ later, resets kind u d := by
          rintro ⟨d, hd, hdu⟩
          have hnot := (List.mem_filter.mp hd).2
          rw [ready_iff hdu, decide_eq_true hready] at hnot
          exact absurd hnot (by decide)
        have hsome : ∃ d ∈ now, resets kind u d :=
          ⟨c, List.mem_filter.mpr ⟨hc, by rw [ready_iff hcu, decide_eq_true hready]⟩, hcu⟩
        obtain ⟨j, hj, hfinal⟩ := final_of_reset hsome
        obtain rfl : j = 0 := by omega
        rw [ih later (fun d hd => hsends d (List.mem_cons_of_mem _ hd)) hlaterBumps
          (fun h => absurd h hnone), if_neg hnone, hfinal, effect_eq, if_neg hi, ← hready,
          List.countP_cons]
        split_ifs <;> push_cast <;> ring
      · -- the first bump comes too early, and a reset of `u` is still to come
        have hlaterReset : ∃ d ∈ later, resets kind u d :=
          ⟨c, List.mem_filter.mpr ⟨hc, by rw [ready_iff hcu, decide_eq_false hready]; rfl⟩, hcu⟩
        have hle : k u ≤ sends.countP (bumps kind u) := by
          rw [List.countP_cons] at hcount hready
          split_ifs at hcount hready <;> omega
        rw [ih later (fun d hd => hsends d (List.mem_cons_of_mem _ hd)) hlaterBumps
          (fun _ => hle), if_pos hlaterReset]
    · -- nobody resets `u`: every bump counts
      have hnone : ∀ l : List ι, (∀ d ∈ l, d ∈ clears) → ¬ ∃ d ∈ l, resets kind u d := by
        rintro l hl ⟨d, hd, hdu⟩
        exact hreset ⟨d, hl d hd, hdu⟩
      have hnowNone := hnone now fun d hd => List.mem_of_mem_filter hd
      have hlaterNone := hnone later fun d hd => List.mem_of_mem_filter hd
      rw [if_neg hreset, ih later (fun d hd => hsends d (List.mem_cons_of_mem _ hd)) hlaterBumps
        (fun h => absurd h hlaterNone), if_neg hlaterNone,
        final_of_no_reset (fun d hd h => hnowNone ⟨d, hd, h⟩), hnowBumps, effect_eq, if_neg hi,
        List.countP_cons]
      split_ifs <;> push_cast <;> ring

variable (kind) in
omit [DecidableEq υ] in
def isBump (i : ι) : Bool :=
  match kind i with
  | .bump _ => true
  | .reset _ => false

theorem isBump_of_bumps {u : υ} {i : ι} (h : bumps kind u i) : isBump kind i = true := by
  cases hi : kind i with
  | bump v => rw [isBump, hi]
  | reset v => simp [bumps_of_reset hi] at h

theorem not_isBump_of_resets {u : υ} {i : ι} (h : resets kind u i) : isBump kind i = false := by
  cases hi : kind i with
  | bump v => simp [resets_of_bump hi] at h
  | reset v => rw [isBump, hi]

variable (kind) in
/-- Orders that explain the counters one by one can be replaced by a single order
that explains them all. -/
theorem exists_common_order (ops : List ι) (orderOf : υ → List ι)
    (h : ∀ u, (orderOf u).Perm ops) :
    ∃ order : List ι, order.Perm ops ∧
      ∀ u x, final kind u x order = final kind u x (orderOf u) := by
  -- what the order of `u` leaves in a counter that is reset: the bumps after its last reset
  have hcount : ∀ u, ∃ k, k ≤ ops.countP (bumps kind u) ∧
      ((∃ i ∈ ops, resets kind u i) → ∀ x, final kind u x (orderOf u) = (k : ℤ)) := by
    intro u
    by_cases hreset : ∃ i ∈ ops, resets kind u i
    · obtain ⟨i, hi, hiu⟩ := hreset
      obtain ⟨k, hk, hfinal⟩ := final_of_reset ⟨i, (h u).mem_iff.mpr hi, hiu⟩
      exact ⟨k, (h u).countP_eq _ ▸ hk, fun _ => hfinal⟩
    · exact ⟨0, Nat.zero_le _, fun hc => absurd hc hreset⟩
  choose k hk hfinal using hcount
  set sends := ops.filter (isBump kind) with hsends
  set clears := ops.filter (fun i => !isBump kind i) with hclears
  have hsplit : (sends ++ clears).Perm ops := List.filter_append_perm (isBump kind) ops
  have hno : ∀ u, ∀ i ∈ sends, ¬ resets kind u i := fun u i hi hreset =>
    absurd (List.mem_filter.mp hi).2 (by rw [not_isBump_of_resets hreset]; decide)
  have hnb : ∀ u, ∀ i ∈ clears, ¬ bumps kind u i := fun u i hi hbump =>
    absurd (List.mem_filter.mp hi).2 (by rw [isBump_of_bumps hbump]; decide)
  have hbumps : ∀ u, sends.countP (bumps kind u) = ops.countP (bumps kind u) := by
    intro u
    rw [← hsplit.countP_eq, List.countP_append, List.countP_eq_zero.mpr (hnb u), add_zero]
  refine ⟨arrange kind k sends clears, (arrange_perm kind k sends clears).trans hsplit, ?_⟩
  intro u x
  rw [final_arrange sends clears (hno u) (hnb u) (fun _ => hbumps u ▸ hk u)]
  split_ifs with hreset
  · obtain ⟨i, hi, hiu⟩ := hreset
    exact (hfinal u ⟨i, List.mem_of_mem_filter hi, hiu⟩ x).symm
  · have hnone : ∀ i ∈ orderOf u, ¬ resets kind u i := by
      intro i hi hiu
      rcases List.mem_append.mp (hsplit.mem_iff.mpr ((h u).mem_iff.mp hi)) with hi | hi
      · exact hno u i hi hiu
      · exact hreset ⟨i, hi, hiu⟩
    rw [final_of_no_reset hnone, (h u).countP_eq, hbumps]

section Since
variable {α : Type*} (reset p : α → Bool)

/-- How many events of the history after its last `reset` are `p`. -/
def countSince (history : List α) : ℕ := (history.rtakeWhile fun a => !reset a).countP p

@[simp] theorem countSince_nil : countSince reset p [] = 0 := rfl

variable {reset p}

theorem countSince_concat_of_reset {history : List α} {a : α} (h : reset a = true) :
    countSince reset p (history ++ [a]) = 0 := by
  rw [countSince, List.rtakeWhile_concat_neg _ _ _ (by simp [h]), List.countP_nil]

theorem countSince_concat {history : List α} {a : α} (h : reset a = false) :
    countSince reset p (history ++ [a]) = countSince reset p history + if p a then 1 else 0 := by
  rw [countSince, List.rtakeWhile_concat_pos _ _ _ (by simp [h]), List.countP_append,
    List.countP_singleton, countSince]

end Since

end Counters
