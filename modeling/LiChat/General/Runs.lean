import Mathlib.Data.List.Infix
import Mathlib.Data.Option.Basic

/-!
# Runs of a partial step function

A system is a partial step function: `step s a = none` when action `a` cannot be
taken in state `s`.  `Always` speaks about every state a run passes through and
`Guarded` about every step it takes; the exchange between the two is the
induction principle for invariants that hold under a condition on the steps.
-/

namespace Runs

variable {σ α : Type*} (step : σ → α → Option σ)

def exec (s : σ) (as : List α) : Option σ := as.foldlM step s

@[simp] theorem exec_nil (s : σ) : exec step s [] = some s := rfl

@[simp] theorem exec_cons (s : σ) (a : α) (as : List α) :
    exec step s (a :: as) = (step s a).bind fun s' => exec step s' as := rfl

variable {step} in
/-- A run can be evaluated. -/
theorem exists_of_any {P : σ → Prop} [DecidablePred P] {s : σ} {as : List α}
    (h : (exec step s as).any (fun s' => decide (P s')) = true) :
    ∃ s', exec step s as = some s' ∧ P s' := by
  obtain ⟨s', hs, hP⟩ := (Option.any_eq_true _ _).mp h
  exact ⟨s', hs, of_decide_eq_true hP⟩

/-- `P` holds in every state the run passes through, the first one included. -/
def Always (P : σ → Prop) (s : σ) (as : List α) : Prop :=
  ∀ pre s', pre <+: as → exec step s pre = some s' → P s'

/-- Every step that the run takes meets `C` in the state it is taken from. -/
def Guarded (C : σ → α → Prop) (s : σ) (as : List α) : Prop :=
  ∀ pre a s' s'', pre ++ [a] <+: as → exec step s pre = some s' → step s' a = some s'' → C s' a

/-- Every action that the run comes to meets `C`, also the one that cannot be taken. -/
def Attempted (C : σ → α → Prop) (s : σ) (as : List α) : Prop :=
  ∀ pre a s', pre ++ [a] <+: as → exec step s pre = some s' → C s' a

variable {step}

theorem always_nil {P : σ → Prop} {s : σ} : Always step P s [] ↔ P s := by
  constructor
  · intro h
    exact h [] s (List.prefix_refl _) rfl
  · intro h pre s' hpre hs
    obtain rfl : pre = [] := List.prefix_nil.mp hpre
    cases hs
    exact h

theorem always_cons {P : σ → Prop} {s : σ} {a : α} {as : List α} :
    Always step P s (a :: as) ↔ P s ∧ ∀ s', step s a = some s' → Always step P s' as := by
  constructor
  · intro h
    refine ⟨h [] s (List.nil_prefix) rfl, fun s' hs pre t hpre ht => ?_⟩
    exact h (a :: pre) t (List.cons_prefix_cons.mpr ⟨rfl, hpre⟩) (by simp [hs, ht])
  · rintro ⟨h0, h⟩ pre t hpre ht
    cases pre with
    | nil =>
      cases ht
      exact h0
    | cons b pre =>
      obtain ⟨rfl, hpre'⟩ := List.cons_prefix_cons.mp hpre
      obtain ⟨s', hs, ht'⟩ := Option.bind_eq_some_iff.mp ht
      exact h s' hs pre t hpre' ht'

theorem guarded_of_forall {C : α → Prop} {as : List α} (h : ∀ a ∈ as, C a) (s : σ) :
    Guarded step (fun _ a => C a) s as :=
  fun pre a _ _ hpre _ _ => h a (hpre.subset (List.mem_append_right pre List.mem_cons_self))

theorem guarded_nil {C : σ → α → Prop} {s : σ} : Guarded step C s [] := by
  intro pre a s' s'' hpre
  simp at hpre

theorem guarded_cons {C : σ → α → Prop} {s : σ} {a : α} {as : List α} :
    Guarded step C s (a :: as) ↔
      ∀ s', step s a = some s' → C s a ∧ Guarded step C s' as := by
  constructor
  · intro h s' hs
    refine ⟨h [] a s s' (by simp) rfl hs, fun pre b t t' hpre ht ht' => ?_⟩
    exact h (a :: pre) b t t' (by simpa using hpre) (by simp [hs, ht]) ht'
  · intro h pre b t t' hpre ht ht'
    cases pre with
    | nil =>
      cases ht
      obtain rfl : b = a := by simpa using hpre
      exact (h t' ht').1
    | cons c pre =>
      obtain ⟨rfl, hpre'⟩ : c = a ∧ pre ++ [b] <+: as := by simpa using hpre
      obtain ⟨s', hs, hpret⟩ := Option.bind_eq_some_iff.mp ht
      exact (h s' hs).2 pre b t t' hpre' hpret ht'

theorem guarded_cons_of_step {C : σ → α → Prop} {s s' : σ} {a : α} {as : List α}
    (hs : step s a = some s') (ha : C s a) (has : Guarded step C s' as) :
    Guarded step C s (a :: as) := by
  rw [guarded_cons]
  intro t ht
  obtain rfl := Option.some.inj (hs.symm.trans ht)
  exact ⟨ha, has⟩

instance decidableGuarded (C : σ → α → Prop) [∀ s a, Decidable (C s a)] :
    ∀ (s : σ) (as : List α), Decidable (Guarded step C s as)
  | _, [] => isTrue guarded_nil
  | s, a :: as =>
    match h : step s a with
    | none => isTrue (guarded_cons.mpr (by simp [h]))
    | some s' =>
      haveI := decidableGuarded C s' as
      decidable_of_iff (C s a ∧ Guarded step C s' as) (by rw [guarded_cons]; simp [h])

/-- The last state of a run is one of the states it passes through. -/
theorem Always.last {P : σ → Prop} {s s' : σ} {as : List α} (h : Always step P s as)
    (hs : exec step s as = some s') : P s' :=
  h as s' (List.prefix_refl _) hs

theorem Always.head {P : σ → Prop} {s : σ} {as : List α} (h : Always step P s as) : P s :=
  h [] s List.nil_prefix rfl

/-- Invariant rule: what every step that meets `C` preserves holds along every
run whose steps all meet `C`. -/
theorem always_of_guarded {C : σ → α → Prop} {I : σ → Prop}
    (hstep : ∀ s a s', I s → C s a → step s a = some s' → I s') {s : σ} {as : List α}
    (h0 : I s) (hC : Guarded step C s as) : Always step I s as := by
  induction as generalizing s with
  | nil => exact always_nil.mpr h0
  | cons a as ih =>
    refine always_cons.mpr ⟨h0, fun s' hs => ?_⟩
    obtain ⟨ha, has⟩ := guarded_cons.mp hC s' hs
    exact ih (hstep s a s' h0 ha hs) has

/-- The invariant rule where every step preserves `I`. -/
theorem always_of_step {I : σ → Prop} (hstep : ∀ s a s', I s → step s a = some s' → I s') {s : σ}
    (h0 : I s) (as : List α) : Always step I s as :=
  always_of_guarded (C := fun _ _ => True) (fun s a s' hI _ hs => hstep s a s' hI hs) h0
    fun _ _ _ _ _ _ _ => trivial

/-- Along a run with an invariant `I`, a condition on the steps gives every condition
that follows from it and from `I`. -/
theorem Guarded.imp {C D : σ → α → Prop} {I : σ → Prop} {s : σ} {as : List α}
    (hC : Guarded step C s as) (hI : Always step I s as) (h : ∀ s a, I s → C s a → D s a) :
    Guarded step D s as := by
  intro pre a s' s'' hpre hs hstep
  have hprefix : pre <+: as := (List.prefix_append pre [a]).trans hpre
  exact h s' a (hI pre s' hprefix hs) (hC pre a s' s'' hpre hs hstep)

/-- Along a run with an invariant `I`, conditions that `I` makes equivalent at every step
that can be taken hold together. -/
theorem guarded_iff_of_always {C D : σ → α → Prop} {I : σ → Prop} {s : σ} {as : List α}
    (hI : Always step I s as) (h : ∀ s a s', I s → step s a = some s' → (C s a ↔ D s a)) :
    Guarded step C s as ↔ Guarded step D s as := by
  have hbefore : ∀ {pre a}, pre ++ [a] <+: as → pre <+: as :=
    fun hpre => (List.prefix_append _ _).trans hpre
  constructor
  · intro hC pre a s' s'' hpre hs hstep
    exact (h s' a s'' (hI pre s' (hbefore hpre) hs) hstep).mp (hC pre a s' s'' hpre hs hstep)
  · intro hD pre a s' s'' hpre hs hstep
    exact (h s' a s'' (hI pre s' (hbefore hpre) hs) hstep).mpr (hD pre a s' s'' hpre hs hstep)

theorem attempted_nil {C : σ → α → Prop} {s : σ} : Attempted step C s [] := by
  intro pre a s' hpre
  simp at hpre

theorem attempted_cons {C : σ → α → Prop} {s : σ} {a : α} {as : List α} :
    Attempted step C s (a :: as) ↔ C s a ∧ ∀ s', step s a = some s' → Attempted step C s' as := by
  constructor
  · intro h
    refine ⟨h [] a s (by simp) rfl, fun s' hs pre b t hpre ht => ?_⟩
    exact h (a :: pre) b t (by simpa using hpre) (by simp [hs, ht])
  · rintro ⟨h0, h⟩ pre b t hpre ht
    cases pre with
    | nil =>
      cases ht
      obtain rfl : b = a := by simpa using hpre
      exact h0
    | cons c pre =>
      obtain ⟨rfl, hpre'⟩ : c = a ∧ pre ++ [b] <+: as := by simpa using hpre
      obtain ⟨s', hs, hpret⟩ := Option.bind_eq_some_iff.mp ht
      exact h s' hs pre b t hpre' hpret

instance decidableAttempted (C : σ → α → Prop) [∀ s a, Decidable (C s a)] :
    ∀ (s : σ) (as : List α), Decidable (Attempted step C s as)
  | _, [] => isTrue attempted_nil
  | s, a :: as =>
    match h : step s a with
    | none => decidable_of_iff (C s a) (by rw [attempted_cons]; simp [h])
    | some s' =>
      haveI := decidableAttempted C s' as
      decidable_of_iff (C s a ∧ Attempted step C s' as) (by rw [attempted_cons]; simp [h])

theorem attempted_iff_of_always {C D : σ → α → Prop} {I : σ → Prop} {s : σ} {as : List α}
    (hI : Always step I s as) (h : ∀ s a, I s → (C s a ↔ D s a)) :
    Attempted step C s as ↔ Attempted step D s as := by
  have hbefore : ∀ {pre a}, pre ++ [a] <+: as → pre <+: as :=
    fun hpre => (List.prefix_append _ _).trans hpre
  constructor
  · intro hC pre a s' hpre hs
    exact (h s' a (hI pre s' (hbefore hpre) hs)).mp (hC pre a s' hpre hs)
  · intro hD pre a s' hpre hs
    exact (h s' a (hI pre s' (hbefore hpre) hs)).mpr (hD pre a s' hpre hs)

/-- Exchange rule: where a step keeps `P` exactly when it meets `C`, a run keeps
`P` throughout exactly when all its steps meet `C`.  `I` is an auxiliary
invariant, needed only while `P` holds. -/
theorem always_iff_guarded {C : σ → α → Prop} {I P : σ → Prop}
    (hstep : ∀ s a s', I s → P s → step s a = some s' → I s' ∧ (P s' ↔ C s a)) {s : σ}
    {as : List α} (hI : I s) (hP : P s) : Always step P s as ↔ Guarded step C s as := by
  induction as generalizing s with
  | nil => exact ⟨fun _ => guarded_nil, fun _ => always_nil.mpr hP⟩
  | cons a as ih =>
    rw [always_cons, guarded_cons]
    constructor
    · rintro ⟨-, h⟩ s' hs
      obtain ⟨hI', hiff⟩ := hstep s a s' hI hP hs
      have hP' : P s' := (h s' hs).head
      exact ⟨hiff.mp hP', (ih hI' hP').mp (h s' hs)⟩
    · intro h
      refine ⟨hP, fun s' hs => ?_⟩
      obtain ⟨hI', hiff⟩ := hstep s a s' hI hP hs
      obtain ⟨hC, has⟩ := h s' hs
      exact (ih hI' (hiff.mpr hC)).mpr has

/-- Debt rule: where a step that misses `C` leaves a debt `B`, and no step that `R` allows
pays it, a run of such steps that ends without debt has met `C`. -/
theorem guarded_of_debt_of_steps {C : σ → α → Prop} {I B : σ → Prop} {R : σ → σ → Prop}
    (hstep : ∀ s a s', I s → step s a = some s' → I s')
    (hdebt : ∀ s a s', I s → step s a = some s' → ¬ C s a → B s')
    (hkeep : ∀ s a s', I s → B s → step s a = some s' → R s s' → B s') {s s' : σ} {as : List α}
    (hI : I s)
    (hR : ∀ pre a t t', pre ++ [a] <+: as → exec step s pre = some t → step t a = some t' → R t t')
    (hs : exec step s as = some s') (hend : ¬ B s') : Guarded step C s as ∧ ¬ B s := by
  induction as generalizing s with
  | nil =>
    obtain rfl := Option.some.inj hs
    exact ⟨guarded_nil, hend⟩
  | cons a as ih =>
    obtain ⟨t, ht, hrest⟩ := Option.bind_eq_some_iff.mp hs
    have hRt : ∀ pre b u u', pre ++ [b] <+: as → exec step t pre = some u → step u b = some u' →
        R u u' := by
      intro pre b u u' hpre hu hu'
      exact hR (a :: pre) b u u' (by simpa using hpre) (by simp [ht, hu]) hu'
    obtain ⟨hguard, hfree⟩ := ih (hstep s a t hI ht) hRt hrest
    refine ⟨guarded_cons.mpr fun t' ht' => ?_, fun hB => ?_⟩
    · obtain rfl : t = t' := Option.some.inj (ht.symm.trans ht')
      exact ⟨not_not.mp fun hC => hfree (hdebt s a t hI ht hC), hguard⟩
    · exact hfree (hkeep s a t hI hB ht (hR [] a s t (by simp) rfl ht))

/-- The debt rule where no step pays the debt while `P` holds. -/
theorem guarded_of_debt {C : σ → α → Prop} {I P B : σ → Prop}
    (hstep : ∀ s a s', I s → step s a = some s' → I s')
    (hdebt : ∀ s a s', I s → step s a = some s' → ¬ C s a → B s')
    (hkeep : ∀ s a s', I s → B s → step s a = some s' → P s' → B s') {s s' : σ} {as : List α}
    (hI : I s) (hP : Always step P s as) (hs : exec step s as = some s') (hend : ¬ B s') :
    Guarded step C s as ∧ ¬ B s := by
  refine guarded_of_debt_of_steps (R := fun _ t => P t) hstep hdebt hkeep hI ?_ hs hend
  intro pre a t t' hpre ht ht'
  refine hP (pre ++ [a]) t' hpre ?_
  rw [exec, List.foldlM_append]
  exact Option.bind_eq_some_iff.mpr ⟨t, ht, by simp [ht']⟩

/-- History rule: `I` relates a state to the actions that led to it. -/
theorem exec_history {C : σ → α → Prop} {I : σ → List α → Prop}
    (hstep : ∀ s past a s', I s past → C s a → step s a = some s' → I s' (past ++ [a]))
    {s s' : σ} {past as : List α} (h0 : I s past) (hC : Guarded step C s as)
    (hs : exec step s as = some s') : I s' (past ++ as) := by
  induction as generalizing s past with
  | nil =>
    obtain rfl := Option.some.inj hs
    rwa [List.append_nil]
  | cons a as ih =>
    obtain ⟨t, ht, hrest⟩ := Option.bind_eq_some_iff.mp hs
    obtain ⟨ha, has⟩ := guarded_cons.mp hC t ht
    rw [List.append_cons]
    exact ih (hstep s past a t h0 ha ht) has hrest

variable (step) in
def Keeps (R : σ → σ → Prop) (s : σ) (as : List α) : Prop :=
  ∀ pre mid s' s'', pre ++ mid <+: as → exec step s pre = some s' → exec step s' mid = some s'' →
    R s' s''

theorem exec_append {s : σ} (as bs : List α) :
    exec step s (as ++ bs) = (exec step s as).bind fun s' => exec step s' bs :=
  List.foldlM_append

/-- Related states of a run are related step by step. -/
theorem Keeps.single {R : σ → σ → Prop} {s : σ} {as : List α} (h : Keeps step R s as)
    {pre : List α} {a : α} {t t' : σ} (hpre : pre ++ [a] <+: as) (ht : exec step s pre = some t)
    (ht' : step t a = some t') : R t t' :=
  h pre [a] t t' hpre ht (by simp [ht'])

/-- Exchange rule for a preorder: where a step goes up exactly when it meets `C`, the
states of a run go up throughout exactly when all its steps meet `C`. -/
theorem keeps_iff_guarded {R : σ → σ → Prop} {C : σ → α → Prop} (hrefl : ∀ s, R s s)
    (htrans : ∀ {s s' s''}, R s s' → R s' s'' → R s s'')
    (hstep : ∀ s a s', step s a = some s' → (R s s' ↔ C s a)) {s : σ} {as : List α} :
    Keeps step R s as ↔ Guarded step C s as := by
  constructor
  · intro h pre a s' s'' hpre hs hs'
    have hrun : exec step s' [a] = some s'' := by simp [hs']
    exact (hstep s' a s'' hs').mp (h pre [a] s' s'' hpre hs hrun)
  · intro h pre mid s' s'' hpre hs hmid
    -- the related states are the first one and every later one of the rest of the run
    induction mid generalizing pre s' with
    | nil =>
      cases hmid
      exact hrefl _
    | cons a mid ih =>
      obtain ⟨t, ht, hrest⟩ := Option.bind_eq_some_iff.mp hmid
      have hpre' : (pre ++ [a]) ++ mid <+: as := by simpa using hpre
      have hreach : exec step s (pre ++ [a]) = some t := by
        rw [exec_append, hs]
        simp [ht]
      have hone := (hstep s' a t ht).mpr
        (h pre a s' t ((List.prefix_append _ mid).trans hpre') hs ht)
      exact htrans hone (ih (pre ++ [a]) t hpre' hreach hrest)

end Runs
