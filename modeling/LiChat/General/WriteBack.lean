import LiChat.General.Runs
import Mathlib.Data.List.Range

/-!
# A local copy that is written back as a whole

A client keeps a copy of a remote object.  A call sends some values, which are merged
into the remote object key by key and in the order of issue; when its callback runs, it
replaces the local copy by one that it has captured when it was issued.
-/

namespace WriteBack

variable {γ κ ν : Type}

abbrev Object (κ ν : Type) := κ → Option ν

/-- The values win. -/
def merge (d values : Object κ ν) : Object κ ν := fun key => (values key).or (d key)

/-- What an issued call sends, and what its callback will store. -/
structure Call (κ ν : Type) where
  values : Object κ ν
  copy : Object κ ν

def mergeAll (d : Object κ ν) (calls : List (Call κ ν)) : Object κ ν :=
  calls.foldl (fun d call => merge d call.values) d

/-- The calls in the order of issue: the first `applied` of them have reached the remote
object, and the callbacks of those in `returned` have run, in this order. -/
structure State (κ ν : Type) where
  remote : Object κ ν
  localCopy : Object κ ν
  calls : List (Call κ ν)
  applied : ℕ
  returned : List ℕ

inductive Action (γ : Type) where
  | issue (c : γ)
  | apply
  | callback (n : ℕ)

def init (remote localCopy : Object κ ν) : State κ ν := ⟨remote, localCopy, [], 0, []⟩

/-- `issue` is what a call sends and captures, from the local copy at that time. -/
def step (issue : γ → Object κ ν → Option (Call κ ν)) (s : State κ ν) : Action γ → Option (State κ ν)
  | .issue c => do
    let call ← issue c s.localCopy
    some { s with calls := s.calls ++ [call] }
  | .apply => do
    let call ← s.calls[s.applied]?
    some { s with remote := merge s.remote call.values, applied := s.applied + 1 }
  | .callback n => do
    let call ← s.calls[n]?
    if n < s.applied ∧ n ∉ s.returned then
      some { s with localCopy := call.copy, returned := s.returned ++ [n] }
    else none

/-- Every call has reached the remote object and has run its callback. -/
def Finished (s : State κ ν) : Prop :=
  s.applied = s.calls.length ∧ ∀ n < s.calls.length, n ∈ s.returned

def InOrder (s : State κ ν) : Action γ → Prop
  | .callback n => n = s.returned.length
  | _ => True

instance (s : State κ ν) : (a : Action γ) → Decidable (InOrder s a)
  | .issue _ => isTrue trivial
  | .apply => isTrue trivial
  | .callback n => inferInstanceAs (Decidable (n = s.returned.length))

/-- The remote object with all calls that are still on their way. -/
def State.settled (s : State κ ν) : Object κ ν := mergeAll s.remote (s.calls.drop s.applied)

theorem mergeAll_append (d : Object κ ν) (calls calls' : List (Call κ ν)) :
    mergeAll d (calls ++ calls') = mergeAll (mergeAll d calls) calls' :=
  List.foldl_append

theorem mergeAll_concat (d : Object κ ν) (calls : List (Call κ ν)) (call : Call κ ν) :
    mergeAll d (calls ++ [call]) = merge (mergeAll d calls) call.values :=
  mergeAll_append d calls [call]

def lastWritten (calls : List (Call κ ν)) (key : κ) : Option ν :=
  (calls.filterMap fun call => call.values key).getLast?

theorem lastWritten_concat (calls : List (Call κ ν)) (call : Call κ ν) (key : κ) :
    lastWritten (calls ++ [call]) key = (call.values key).or (lastWritten calls key) := by
  unfold lastWritten
  rw [List.filterMap_append]
  cases h : call.values key with
  | none => simp [h]
  | some v => simp [h]

theorem mergeAll_apply (d : Object κ ν) (calls : List (Call κ ν)) (key : κ) :
    mergeAll d calls key = (lastWritten calls key).or (d key) := by
  induction calls using List.reverseRecOn with
  | nil => simp [mergeAll, lastWritten]
  | append_singleton calls call ih =>
    rw [mergeAll_concat, merge, ih, lastWritten_concat, Option.or_assoc]

theorem lastWritten_isSome {calls : List (Call κ ν)} {key : κ} :
    (lastWritten calls key).isSome ↔ ∃ call ∈ calls, (call.values key).isSome := by
  simp only [lastWritten, ne_eq, Option.isSome_iff_ne_none, List.getLast?_eq_none_iff,
    List.filterMap_eq_nil_iff, not_forall, exists_prop]

theorem settled_issue {s : State κ ν} (h : s.applied ≤ s.calls.length) (call : Call κ ν) :
    State.settled { s with calls := s.calls ++ [call] } = merge s.settled call.values := by
  rw [State.settled, List.drop_append_of_le_length h, mergeAll_concat]
  rfl

theorem settled_apply {s : State κ ν} {call : Call κ ν} (h : s.calls[s.applied]? = some call) :
    State.settled { s with remote := merge s.remote call.values, applied := s.applied + 1 } =
      s.settled := by
  obtain ⟨hlt, rfl⟩ := List.getElem?_eq_some_iff.mp h
  rw [State.settled, State.settled, List.drop_eq_getElem_cons hlt]
  rfl

def issued (actions : List (Action γ)) : List γ :=
  actions.filterMap fun
    | .issue c => some c
    | _ => none

variable {issue : γ → Object κ ν → Option (Call κ ν)}

structure Composed (remote localCopy : Object κ ν) (s : State κ ν) : Prop where
  applied : s.applied ≤ s.calls.length
  remote : s.remote = mergeAll remote (s.calls.take s.applied)
  returned : ∀ n ∈ s.returned, n < s.applied
  localCopy : s.localCopy =
    (s.returned.getLast?.bind fun n => s.calls[n]?).elim localCopy Call.copy

theorem composed_init (remote localCopy : Object κ ν) :
    Composed remote localCopy (init remote localCopy) where
  applied := Nat.zero_le _
  remote := rfl
  returned := by rintro n ⟨⟩
  localCopy := rfl

theorem composed_step {remote localCopy : Object κ ν} {s s' : State κ ν} {a : Action γ}
    (hI : Composed remote localCopy s) (h : step issue s a = some s') :
    Composed remote localCopy s' := by
  cases a with
  | issue c =>
    obtain ⟨call, -, h⟩ := Option.bind_eq_some_iff.mp h
    obtain rfl := Option.some.inj h
    refine ⟨?_, ?_, hI.returned, ?_⟩
    · rw [List.length_append]
      exact Nat.le_add_right_of_le hI.applied
    · rw [List.take_append_of_le_length hI.applied]
      exact hI.remote
    · -- the callbacks that have run belong to older calls
      rw [hI.localCopy]
      cases hlast : s.returned.getLast? with
      | none => rfl
      | some n =>
        have hn := hI.returned n (List.mem_of_getLast? hlast)
        simp only [Option.bind_some, List.getElem?_append_left (hn.trans_le hI.applied)]
  | apply =>
    obtain ⟨call, hcall, h⟩ := Option.bind_eq_some_iff.mp h
    obtain rfl := Option.some.inj h
    obtain ⟨hlt, rfl⟩ := List.getElem?_eq_some_iff.mp hcall
    refine ⟨hlt, ?_, fun n hn => (hI.returned n hn).trans (Nat.lt_succ_self _), hI.localCopy⟩
    rw [List.take_add_one, List.getElem?_eq_getElem hlt, Option.toList_some, mergeAll_concat,
      ← hI.remote]
  | callback n =>
    obtain ⟨call, hcall, h⟩ := Option.bind_eq_some_iff.mp h
    simp only [Option.ite_none_right_eq_some, Option.some.injEq] at h
    obtain ⟨⟨hlt, -⟩, rfl⟩ := h
    refine ⟨hI.applied, hI.remote, fun m hm => ?_, ?_⟩
    · rcases List.mem_append.mp hm with hm | hm
      · exact hI.returned m hm
      · rw [List.mem_singleton.mp hm]
        exact hlt
    · simp [hcall]

theorem composed_reached {remote localCopy : Object κ ν} {s : State κ ν} {actions : List (Action γ)}
    (h : Runs.exec (step issue) (init remote localCopy) actions = some s) :
    Composed remote localCopy s :=
  (Runs.always_of_step (fun _ _ _ hI hstep => composed_step hI hstep)
    (composed_init remote localCopy) actions).last h

theorem Composed.settled {remote localCopy : Object κ ν} {s : State κ ν}
    (hI : Composed remote localCopy s) : s.settled = mergeAll remote s.calls := by
  rw [State.settled, hI.remote, ← mergeAll_append, List.take_append_drop]

theorem Composed.remote_finished {remote localCopy : Object κ ν} {s : State κ ν}
    (hI : Composed remote localCopy s) (hfinished : Finished s) :
    s.remote = mergeAll remote s.calls := by
  rw [hI.remote, hfinished.1, List.take_length]

theorem returned_eq_range {s s' : State κ ν} {a : Action γ}
    (hI : s.returned = List.range s.returned.length) (hC : InOrder s a)
    (h : step issue s a = some s') : s'.returned = List.range s'.returned.length := by
  cases a with
  | issue c =>
    obtain ⟨call, -, h⟩ := Option.bind_eq_some_iff.mp h
    obtain rfl := Option.some.inj h
    exact hI
  | apply =>
    obtain ⟨call, -, h⟩ := Option.bind_eq_some_iff.mp h
    obtain rfl := Option.some.inj h
    exact hI
  | callback n =>
    obtain ⟨call, -, h⟩ := Option.bind_eq_some_iff.mp h
    simp only [Option.ite_none_right_eq_some, Option.some.injEq] at h
    obtain ⟨-, rfl⟩ := h
    obtain rfl : n = s.returned.length := hC
    simp only [List.length_append, List.length_singleton, List.range_succ, ← hI]

/-- With the callbacks in the order of issue, the local copy is in the end the one that
the last call has captured. -/
theorem localCopy_finished {remote localCopy : Object κ ν} {s : State κ ν}
    {actions : List (Action γ)}
    (h : Runs.exec (step issue) (init remote localCopy) actions = some s)
    (horder : Runs.Guarded (step issue) InOrder (init remote localCopy) actions)
    (hfinished : Finished s) : s.localCopy = s.calls.getLast?.elim localCopy Call.copy := by
  have hI := composed_reached h
  have hrange : s.returned = List.range s.returned.length :=
    (Runs.always_of_guarded (I := fun s : State κ ν => s.returned = List.range s.returned.length)
      (fun s a s' hI hC hstep => returned_eq_range hI hC hstep) rfl horder).last h
  have hlength : s.returned.length = s.calls.length := by
    apply le_antisymm
    · by_contra hlt
      have hmem : s.calls.length ∈ s.returned := by
        rw [hrange, List.mem_range]
        exact Nat.lt_of_not_le hlt
      exact absurd ((hI.returned _ hmem).trans_le hI.applied) (lt_irrefl _)
    · by_contra hlt
      have hmem := hfinished.2 s.returned.length (Nat.lt_of_not_le hlt)
      rw [hrange, List.mem_range, List.length_range] at hmem
      exact lt_irrefl _ hmem
  rw [hI.localCopy, hrange, hlength, List.getLast?_range]
  by_cases hzero : s.calls.length = 0
  · rw [List.length_eq_zero_iff.mp hzero]
    rfl
  · rw [if_neg hzero, Option.bind_some, List.getLast?_eq_getElem?]

theorem calls_of_no_issue {s s' : State κ ν} {actions : List (Action γ)}
    (h : Runs.exec (step issue) s actions = some s') (hnone : ∀ a ∈ actions, ∀ c, a ≠ .issue c) :
    s'.calls = s.calls := by
  induction actions generalizing s with
  | nil => rw [← Option.some.inj h]
  | cons a actions ih =>
    obtain ⟨t, ht, h⟩ := Option.bind_eq_some_iff.mp h
    rw [ih h fun b hb => hnone b (List.mem_cons_of_mem _ hb)]
    cases a with
    | issue c => exact absurd rfl (hnone _ List.mem_cons_self c)
    | apply =>
      obtain ⟨call, -, ht⟩ := Option.bind_eq_some_iff.mp ht
      rw [← Option.some.inj ht]
    | callback n =>
      obtain ⟨call, -, ht⟩ := Option.bind_eq_some_iff.mp ht
      simp only [Option.ite_none_right_eq_some, Option.some.injEq] at ht
      rw [← ht.2]

end WriteBack
