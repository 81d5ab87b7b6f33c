import LiChat.General.Runs
import Mathlib.Data.Fintype.Basic
import Mathlib.Logic.Function.Basic

/-!
# Operations that query first and write later

An operation issues one query and, when the answer is there, writes what it has
computed from that answer, one write at a time.  Between the query and each of
its writes any other operation may act.  `serial` is the reference semantics in
which every operation runs without interruption.
-/

namespace QueryWrite

variable {ι σ ω : Type*} [DecidableEq ι]

/-- What an operation writes, given the snapshot its query returned, and what a
write does to the store. -/
structure System (ι σ ω : Type*) where
  callback : ι → σ → List ω
  apply : σ → ω → σ

/-- Where an operation stands: not issued yet, or holding its snapshot and the
writes still to be made. -/
inductive Stage (σ ω : Type*) where
  | waiting
  | writing (snapshot : σ) (todo : List ω)

structure Config (ι σ ω : Type*) where
  store : σ
  stage : ι → Stage σ ω

inductive Action (ι : Type*) where
  | query (i : ι)
  | write (i : ι)

def init (s : σ) : Config ι σ ω := ⟨s, fun _ => .waiting⟩

namespace System

variable (S : System ι σ ω)

def step (c : Config ι σ ω) : Action ι → Option (Config ι σ ω)
  | .query i =>
    match c.stage i with
    | .waiting =>
      some { c with stage := Function.update c.stage i (.writing c.store (S.callback i c.store)) }
    | .writing _ _ => none
  | .write i =>
    match c.stage i with
    | .writing snapshot (w :: todo) =>
      some ⟨S.apply c.store w, Function.update c.stage i (.writing snapshot todo)⟩
    | _ => none

/-- One operation without interruption. -/
def atomic (s : σ) (i : ι) : σ := (S.callback i s).foldl S.apply s

def serial (order : List ι) (s : σ) : σ := order.foldl S.atomic s

variable {S}

theorem step_cases {c c' : Config ι σ ω} {a : Action ι} (h : S.step c a = some c') :
    (∃ i, a = .query i ∧ c.stage i = .waiting ∧
      c' = { c with stage := Function.update c.stage i (.writing c.store (S.callback i c.store)) }) ∨
    (∃ i snapshot w todo, a = .write i ∧ c.stage i = .writing snapshot (w :: todo) ∧
      c' = ⟨S.apply c.store w, Function.update c.stage i (.writing snapshot todo)⟩) := by
  cases a with
  | query i =>
    cases hi : c.stage i with
    | waiting => exact Or.inl ⟨i, rfl, hi, by simpa [step, hi] using h.symm⟩
    | writing snapshot todo => simp [step, hi] at h
  | write i =>
    cases hi : c.stage i with
    | waiting => simp [step, hi] at h
    | writing snapshot todo =>
      cases todo with
      | nil => simp [step, hi] at h
      | cons w todo =>
        exact Or.inr ⟨i, snapshot, w, todo, rfl, hi, by simpa [step, hi] using h.symm⟩

def Finished (c : Config ι σ ω) : Prop := ∀ i, ∃ snapshot, c.stage i = .writing snapshot []

end System

instance (stage : Stage σ ω) : Decidable (∃ snapshot, stage = .writing snapshot []) :=
  match stage with
  | .waiting => isFalse (by simp)
  | .writing snapshot [] => isTrue ⟨snapshot, rfl⟩
  | .writing _ (_ :: _) => isFalse (by simp)

instance [Fintype ι] (c : Config ι σ ω) : Decidable (System.Finished c) :=
  inferInstanceAs (Decidable (∀ i, ∃ snapshot, c.stage i = .writing snapshot []))

/-- The operations that still wait and those that hold a snapshot `s` with the
writes `todo` left satisfy `P i s todo`. -/
def Holding (P : ι → σ → List ω → Prop) (c : Config ι σ ω) : Prop :=
  ∀ i snapshot todo, c.stage i = .writing snapshot todo → P i snapshot todo

omit [DecidableEq ι] in
theorem holding_init (P : ι → σ → List ω → Prop) (s : σ) : Holding P (init s) := by
  intro i snapshot todo h
  simp [init] at h

theorem holding_update {P Q : ι → σ → List ω → Prop} {c : Config ι σ ω} {s : σ} {i : ι} {snapshot : σ}
    {todo : List ω} (h : Holding P c) (hi : Q i snapshot todo)
    (hPQ : ∀ j t l, j ≠ i → P j t l → Q j t l) :
    Holding Q (⟨s, Function.update c.stage i (.writing snapshot todo)⟩ : Config ι σ ω) := by
  intro j t l hj
  by_cases hji : j = i
  · subst hji
    simp only [Function.update_self, Stage.writing.injEq] at hj
    obtain ⟨rfl, rfl⟩ := hj
    exact hi
  · simp only [Function.update_of_ne hji] at hj
    exact hPQ j t l hji (h j t l hj)

end QueryWrite
