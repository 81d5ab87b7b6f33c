import Mathlib.Data.List.Nodup
import Mathlib.Logic.Function.Basic

/-!
# Queues of writes

Every client has its own queue of writes.  The writes of one queue reach the store in their
order, and those of different queues in any order.  A client sees the store as it will be
once its own queue is done.
-/

namespace WriteQueues

variable {ι κ δ : Type*}

inductive Write (κ δ : Type*) where
  | set (k : κ) (d : δ)
  | update (k : κ) (f : δ → δ)
  | delete (k : κ)

namespace Write

def key : Write κ δ → κ
  | set k _ => k
  | update k _ => k
  | delete k => k

/-- What becomes of the document; an update of a missing one fails. -/
def act : Write κ δ → Option δ → Option δ
  | set _ d, _ => some d
  | update _ f, o => o.map f
  | delete _, _ => none

variable [DecidableEq κ]

def apply (store : κ → Option δ) (w : Write κ δ) : κ → Option δ :=
  Function.update store w.key (w.act (store w.key))

def actAt (k : κ) (o : Option δ) (w : Write κ δ) : Option δ := if w.key = k then w.act o else o

theorem apply_eq (store : κ → Option δ) (w : Write κ δ) (k : κ) :
    w.apply store k = w.actAt k (store k) := by
  unfold apply actAt
  split_ifs with hkey
  · subst hkey
    exact Function.update_self ..
  · exact Function.update_of_ne (Ne.symm hkey) ..

theorem foldl_apply (ws : List (Write κ δ)) (store : κ → Option δ) (k : κ) :
    ws.foldl apply store k = ws.foldl (actAt k) (store k) := by
  induction ws generalizing store with
  | nil => rfl
  | cons w ws ih => rw [List.foldl_cons, List.foldl_cons, ih, apply_eq]

theorem actAt_set (k : κ) (d : δ) (o : Option δ) : (set k d).actAt k o = some d :=
  if_pos rfl

variable {k : κ} {o o' : Option δ}

theorem isSome_actAt (w : Write κ δ) (h : o.isSome → o'.isSome) :
    (w.actAt k o).isSome → (w.actAt k o').isSome := by
  unfold actAt
  split_ifs
  · cases w with
    | set k d => exact fun _ => rfl
    | update k f => simpa [act] using h
    | delete k => exact id
  · exact h

theorem isSome_foldl_actAt (ws : List (Write κ δ)) (h : o.isSome → o'.isSome) :
    (ws.foldl (actAt k) o).isSome → (ws.foldl (actAt k) o').isSome := by
  induction ws generalizing o o' with
  | nil => exact h
  | cons w ws ih => exact ih (w.isSome_actAt h)

theorem foldl_actAt_none {ws : List (Write κ δ)} (h : ∀ d, set k d ∉ ws) :
    ws.foldl (actAt k) none = none := by
  induction ws with
  | nil => rfl
  | cons w ws ih =>
    have hw : w.actAt k none = none := by
      unfold actAt
      split_ifs with hkey
      · cases w with
        | set k' d =>
          subst hkey
          exact absurd List.mem_cons_self (h d)
        | update k' f => rfl
        | delete k' => rfl
      · rfl
    rw [List.foldl_cons, hw]
    exact ih fun d hd => h d (List.mem_cons_of_mem _ hd)

/-- What is set satisfies `P`, and updates keep it. -/
def Keeps (P : κ → δ → Prop) : Write κ δ → Prop
  | set k d => P k d
  | update k f => ∀ d, P k d → P k (f d)
  | delete _ => True

theorem Keeps.actAt {P : κ → δ → Prop} {w : Write κ δ} (h : w.Keeps P)
    (ho : ∀ d, o = some d → P k d) : ∀ d, w.actAt k o = some d → P k d := by
  intro d hd
  unfold Write.actAt at hd
  split_ifs at hd with hkey
  · subst hkey
    cases w with
    | set k d' =>
      obtain rfl := Option.some.inj hd
      exact h
    | update k f =>
      obtain ⟨d', hd', rfl⟩ := Option.map_eq_some_iff.mp hd
      exact h d' (ho d' hd')
    | delete k => cases hd
  · exact ho d hd

theorem Keeps.foldl_actAt {P : κ → δ → Prop} {ws : List (Write κ δ)} (h : ∀ w ∈ ws, w.Keeps P)
    (ho : ∀ d, o = some d → P k d) : ∀ d, ws.foldl (Write.actAt k) o = some d → P k d := by
  induction ws generalizing o with
  | nil => exact ho
  | cons w ws ih =>
    exact ih (fun w' hw' => h w' (List.mem_cons_of_mem _ hw')) ((h w List.mem_cons_self).actAt ho)

end Write

open Write

structure State (ι κ δ : Type*) where
  store : κ → Option δ
  queue : ι → List (Write κ δ)

variable [DecidableEq ι]

def issue (i : ι) (ws : List (Write κ δ)) (s : State ι κ δ) : State ι κ δ :=
  { s with queue := Function.update s.queue i (s.queue i ++ ws) }

variable [DecidableEq κ]

/-- The oldest write of the client reaches the store. -/
def commit (i : ι) (s : State ι κ δ) : Option (State ι κ δ) :=
  match s.queue i with
  | [] => none
  | w :: ws => some ⟨w.apply s.store, Function.update s.queue i ws⟩

omit [DecidableEq ι] in
def view (s : State ι κ δ) (i : ι) : κ → Option δ := (s.queue i).foldl apply s.store

variable {s s' : State ι κ δ} {i j : ι} {k : κ}

theorem commit_eq_some (h : commit i s = some s') :
    ∃ w ws, s.queue i = w :: ws ∧ s' = ⟨w.apply s.store, Function.update s.queue i ws⟩ := by
  unfold commit at h
  cases hqueue : s.queue i with
  | nil =>
    rw [hqueue] at h
    cases h
  | cons w ws =>
    rw [hqueue] at h
    exact ⟨w, ws, rfl, (Option.some.inj h).symm⟩

omit [DecidableEq ι] in
theorem view_eq (s : State ι κ δ) (i : ι) (k : κ) :
    view s i k = (s.queue i).foldl (actAt k) (s.store k) :=
  foldl_apply _ _ _

omit [DecidableEq κ] in
theorem mem_queue_issue {ws : List (Write κ δ)} {w : Write κ δ} :
    w ∈ (issue i ws s).queue j ↔ w ∈ s.queue j ∨ j = i ∧ w ∈ ws := by
  by_cases hj : j = i
  · subst hj
    simp [issue]
  · simp [issue, hj]

theorem mem_queue_of_commit (h : commit i s = some s') {w : Write κ δ} (hw : w ∈ s'.queue j) :
    w ∈ s.queue j := by
  obtain ⟨first, rest, hqueue, rfl⟩ := commit_eq_some h
  dsimp only at hw
  by_cases hj : j = i
  · subst hj
    rw [Function.update_self] at hw
    rw [hqueue]
    exact List.mem_cons_of_mem _ hw
  · rwa [Function.update_of_ne hj] at hw

theorem exists_of_commit (h : commit i s = some s') : ∃ w ∈ s.queue i,
    (∀ k, s'.store k = w.actAt k (s.store k)) ∧ ∀ j, ∀ w' ∈ s.queue j, w' ∈ s'.queue j ∨ w' = w := by
  obtain ⟨w, ws, hqueue, rfl⟩ := commit_eq_some h
  refine ⟨w, hqueue ▸ List.mem_cons_self, fun k => apply_eq s.store w k, fun j w' hw' => ?_⟩
  dsimp only
  by_cases hj : j = i
  · subst hj
    rw [hqueue] at hw'
    rw [Function.update_self]
    exact (List.mem_cons.mp hw').symm
  · rw [Function.update_of_ne hj]
    exact .inl hw'

theorem view_issue_self (ws : List (Write κ δ)) :
    view (issue i ws s) i = ws.foldl apply (view s i) := by
  simp [view, issue, List.foldl_append]

theorem view_issue_of_ne {ws : List (Write κ δ)} (h : j ≠ i) : view (issue i ws s) j = view s j := by
  simp [view, issue, h]

theorem view_commit_self (h : commit i s = some s') : view s' i = view s i := by
  obtain ⟨w, ws, hqueue, rfl⟩ := commit_eq_some h
  simp [view, hqueue]

/-- The client does not see the document, and nobody else is about to create it. -/
def Absent (i : ι) (k : κ) (s : State ι κ δ) : Prop :=
  view s i k = none ∧ ∀ j, j ≠ i → ∀ d, set k d ∉ s.queue j

theorem Absent.issue (h : Absent i k s) {ws : List (Write κ δ)} (hws : ∀ d, set k d ∉ ws) (j : ι) :
    Absent i k (issue j ws s) := by
  refine ⟨?_, fun l hl d hd => ?_⟩
  · by_cases hj : i = j
    · subst hj
      rw [view_issue_self, foldl_apply, h.1]
      exact foldl_actAt_none hws
    · rw [view_issue_of_ne hj]
      exact h.1
  · rcases mem_queue_issue.mp hd with hold | ⟨-, hnew⟩
    · exact h.2 l hl d hold
    · exact hws d hnew

theorem Absent.commit (h : Absent i k s) (hs : commit j s = some s') : Absent i k s' := by
  refine ⟨?_, fun l hl d hd => h.2 l hl d (mem_queue_of_commit hs hd)⟩
  by_cases hj : j = i
  · subst hj
    rw [view_commit_self hs]
    exact h.1
  · obtain ⟨w, ws, hqueue, rfl⟩ := commit_eq_some hs
    have hsame : Function.update s.queue j ws i = s.queue i :=
      Function.update_of_ne (Ne.symm hj) ..
    have hnone := h.1
    rw [view_eq] at hnone ⊢
    dsimp only
    rw [hsame, apply_eq]
    -- the write of the other client creates no document
    have hless : (w.actAt k (s.store k)).isSome → (s.store k).isSome := by
      unfold actAt
      split_ifs with hkey
      · cases w with
        | set k' d =>
          subst hkey
          exact absurd (hqueue ▸ List.mem_cons_self) (h.2 j hj d)
        | update k' f => simp [act]
        | delete k' => simp [act]
      · exact id
    have hsome := isSome_foldl_actAt (s.queue i) (k := k) hless
    rw [hnone] at hsome
    simpa using hsome

/-- The documents satisfy `P`, and with the writes to come they still do. -/
structure Holds (P : κ → δ → Prop) (s : State ι κ δ) : Prop where
  store : ∀ k d, s.store k = some d → P k d
  queue : ∀ i, ∀ w ∈ s.queue i, w.Keeps P

section Holds
variable {P : κ → δ → Prop}

omit [DecidableEq κ] in
theorem Holds.issue (h : Holds P s) {ws : List (Write κ δ)} (hws : ∀ w ∈ ws, w.Keeps P) (i : ι) :
    Holds P (issue i ws s) where
  store := h.store
  queue j w hw := (mem_queue_issue.mp hw).elim (h.queue j w) fun hnew => hws w hnew.2

theorem Holds.commit (h : Holds P s) (hs : commit i s = some s') : Holds P s' := by
  refine ⟨?_, fun j w hw => h.queue j w (mem_queue_of_commit hs hw)⟩
  obtain ⟨w, ws, hqueue, rfl⟩ := commit_eq_some hs
  intro k d hd
  rw [show (⟨w.apply s.store, _⟩ : State ι κ δ).store k = _ from apply_eq s.store w k] at hd
  exact (h.queue i w (hqueue ▸ List.mem_cons_self)).actAt (h.store k) d hd

omit [DecidableEq ι] in
theorem Holds.view (h : Holds P s) {d : δ} (hd : view s i k = some d) : P k d := by
  rw [view_eq] at hd
  exact Keeps.foldl_actAt (h.queue i) (h.store k) d hd

end Holds

def setKeys (ws : List (Write κ δ)) : List κ :=
  ws.filterMap fun
    | .set k _ => some k
    | _ => none

omit [DecidableEq ι] [DecidableEq κ] in
theorem mem_setKeys {ws : List (Write κ δ)} : k ∈ setKeys ws ↔ ∃ d, set k d ∈ ws := by
  unfold setKeys
  rw [List.mem_filterMap]
  constructor
  · rintro ⟨w, hw, hk⟩
    cases w with
    | set k' d =>
      obtain rfl := Option.some.inj hk
      exact ⟨d, hw⟩
    | update k' f => cases hk
    | delete k' => cases hk
  · rintro ⟨d, hd⟩
    exact ⟨_, hd, rfl⟩

theorem isSome_foldl_actAt_iff {ws : List (Write κ δ)} (h : delete k ∉ ws) {o : Option δ} :
    (ws.foldl (actAt k) o).isSome ↔ o.isSome ∨ k ∈ setKeys ws := by
  induction ws generalizing o with
  | nil => simp [setKeys]
  | cons w ws ih =>
    obtain ⟨hw, hws⟩ := not_or.mp (mt List.mem_cons.mpr h)
    rw [List.foldl_cons, ih hws]
    cases w with
    | set k' d =>
      by_cases hkey : k' = k
      · subst hkey
        simp [actAt_set, setKeys]
      · simp [actAt, Write.key, hkey, setKeys, Ne.symm hkey]
    | update k' f =>
      by_cases hkey : k' = k <;> simp [actAt, Write.key, hkey, act, setKeys]
    | delete k' =>
      have hkey : k' ≠ k := fun heq => hw (heq ▸ rfl)
      simp [actAt, Write.key, hkey, setKeys]

/-- No document is set twice. -/
structure Fresh (s : State ι κ δ) : Prop where
  nodup : ∀ i, (setKeys (s.queue i)).Nodup
  store : ∀ i, ∀ k ∈ setKeys (s.queue i), s.store k = none
  unique : ∀ i j, ∀ k ∈ setKeys (s.queue i), k ∈ setKeys (s.queue j) → i = j

omit [DecidableEq κ] in
theorem Fresh.issue (h : Fresh s) {ws : List (Write κ δ)} (hnodup : (setKeys ws).Nodup)
    (hnew : ∀ k ∈ setKeys ws, s.store k = none ∧ ∀ j, k ∉ setKeys (s.queue j)) (i : ι) :
    Fresh (issue i ws s) := by
  have hself : setKeys ((WriteQueues.issue i ws s).queue i) = setKeys (s.queue i) ++ setKeys ws := by
    simp [setKeys, WriteQueues.issue]
  have hother : ∀ j, j ≠ i → (WriteQueues.issue i ws s).queue j = s.queue j := fun j hj =>
    Function.update_of_ne hj ..
  have hmem : ∀ j k, k ∈ setKeys ((WriteQueues.issue i ws s).queue j) →
      k ∈ setKeys (s.queue j) ∨ j = i ∧ k ∈ setKeys ws := by
    intro j k hk
    by_cases hj : j = i
    · subst hj
      rw [hself, List.mem_append] at hk
      exact hk.imp_right fun hk => ⟨rfl, hk⟩
    · rw [hother j hj] at hk
      exact .inl hk
  refine ⟨fun j => ?_, fun j k hk => ?_, fun j l k hj hl => ?_⟩
  · by_cases hj : j = i
    · subst hj
      rw [hself]
      exact List.Nodup.append (h.nodup j) hnodup fun k hk hk' => (hnew k hk').2 j hk
    · rw [hother j hj]
      exact h.nodup j
  · rcases hmem j k hk with hold | ⟨-, hws⟩
    · exact h.store j k hold
    · exact (hnew k hws).1
  · rcases hmem j k hj with hold | ⟨rfl, hws⟩
    · rcases hmem l k hl with hold' | ⟨rfl, hws'⟩
      · exact h.unique j l k hold hold'
      · exact absurd hold ((hnew k hws').2 j)
    · rcases hmem l k hl with hold' | ⟨rfl, -⟩
      · exact absurd hold' ((hnew k hws).2 l)
      · rfl

omit [DecidableEq κ] in
theorem Fresh.issue_of_forall (h : Fresh s) {ws : List (Write κ δ)} (hws : ∀ k d, set k d ∉ ws)
    (i : ι) : Fresh (WriteQueues.issue i ws s) := by
  have hnone : setKeys ws = [] := List.eq_nil_iff_forall_not_mem.mpr fun k hk =>
    let ⟨d, hd⟩ := mem_setKeys.mp hk
    hws k d hd
  refine h.issue ?_ ?_ i
  · rw [hnone]
    exact List.nodup_nil
  · rw [hnone]
    exact fun k hk => absurd hk List.not_mem_nil

theorem Fresh.commit (h : Fresh s) (hs : commit i s = some s') : Fresh s' := by
  have hless : ∀ j, ∀ k ∈ setKeys (s'.queue j), k ∈ setKeys (s.queue j) := fun j k hk => by
    obtain ⟨d, hd⟩ := mem_setKeys.mp hk
    exact mem_setKeys.mpr ⟨d, mem_queue_of_commit hs hd⟩
  have hunique : ∀ j l, ∀ k ∈ setKeys (s'.queue j), k ∈ setKeys (s'.queue l) → j = l :=
    fun j l k hj hl => h.unique j l k (hless j k hj) (hless l k hl)
  obtain ⟨w, ws, hqueue, rfl⟩ := commit_eq_some hs
  have hfirst := h.nodup i
  rw [hqueue] at hfirst
  refine ⟨fun j => ?_, fun j k hk => ?_, hunique⟩
  · by_cases hj : j = i
    · subst hj
      dsimp only
      rw [Function.update_self]
      exact hfirst.sublist ((List.sublist_cons_self w ws).filterMap _)
    · dsimp only
      rw [Function.update_of_ne hj]
      exact h.nodup j
  · have hnone := h.store j k (hless j k hk)
    dsimp only
    rw [apply_eq, hnone, actAt]
    split_ifs with hkey
    · cases w with
      | set k' d =>
        -- the key that has just been set is not set again
        subst hkey
        have hi : k' ∈ setKeys (s.queue i) := mem_setKeys.mpr ⟨d, hqueue ▸ List.mem_cons_self⟩
        obtain rfl := h.unique j i k' (hless j k' hk) hi
        dsimp only at hk
        rw [Function.update_self] at hk
        exact absurd hk (List.nodup_cons.mp hfirst).1
      | update k' f => rfl
      | delete k' => rfl
    · rfl

omit [DecidableEq ι] in
theorem exists_of_view_isSome (h : (view s i k).isSome) :
    k ∈ setKeys (s.queue i) ∨ (s.store k).isSome := by
  by_contra hnot
  obtain ⟨hqueue, hstore⟩ := not_or.mp hnot
  rw [view_eq, Option.not_isSome_iff_eq_none.mp hstore,
    foldl_actAt_none fun d hd => hqueue (mem_setKeys.mpr ⟨d, hd⟩)] at h
  cases h

theorem Fresh.absent (h : Fresh s) (hseen : (view s i k).isSome) :
    Absent i k (WriteQueues.issue i [delete k] s) := by
  refine ⟨?_, fun j hj d hd => ?_⟩
  · rw [view_issue_self, foldl_apply]
    exact if_pos rfl
  · rcases mem_queue_issue.mp hd with hold | ⟨rfl, -⟩
    · have hk := mem_setKeys.mpr ⟨d, hold⟩
      rcases exists_of_view_isSome hseen with hi | hstore
      · exact hj (h.unique j i k hk hi)
      · rw [h.store j k hk] at hstore
        cases hstore
    · exact hj rfl

def SetsBefore (i : ι) (k k' : κ) (s : State ι κ δ) : Prop :=
  k ∈ setKeys (s.queue i) → [k, k'].Sublist (setKeys (s.queue i))

section Order
variable {k' : κ} {ws : List (Write κ δ)}

omit [DecidableEq κ] in
theorem setKeys_queue_issue : setKeys ((issue i ws s).queue j) =
    setKeys (s.queue j) ++ if j = i then setKeys ws else [] := by
  by_cases hj : j = i
  · subst hj
    simp [setKeys, issue]
  · simp [setKeys, issue, hj]

omit [DecidableEq κ] in
theorem setsBefore_issue_self (h : [k, k'].Sublist (setKeys ws)) :
    SetsBefore i k k' (issue i ws s) := by
  intro _
  rw [setKeys_queue_issue, if_pos rfl]
  exact h.trans (List.sublist_append_right _ _)

omit [DecidableEq κ] in
theorem SetsBefore.issue (h : SetsBefore i k k' s) (hws : k ∉ setKeys ws) (j : ι) :
    SetsBefore i k k' (issue j ws s) := by
  intro hk
  rw [setKeys_queue_issue, List.mem_append] at hk
  rw [setKeys_queue_issue]
  rcases hk with hold | hnew
  · exact (h hold).trans (List.sublist_append_left _ _)
  · split_ifs at hnew
    · exact absurd hnew hws
    · cases hnew

theorem SetsBefore.commit (h : SetsBefore i k k' s) (hfresh : Fresh s)
    (hs : commit j s = some s') : SetsBefore i k k' s' := by
  obtain ⟨w, ws, hqueue, rfl⟩ := commit_eq_some hs
  intro hk
  dsimp only at hk ⊢
  by_cases hj : i = j
  · subst hj
    rw [Function.update_self] at hk ⊢
    have hfirst := hfresh.nodup i
    have hbefore := h
    rw [SetsBefore, hqueue] at hbefore
    rw [hqueue] at hfirst
    cases w with
    | set a d =>
      -- the key that is left is not the first one
      have hne : k ≠ a := fun heq => (List.nodup_cons.mp hfirst).1 (heq ▸ hk)
      rcases List.sublist_cons_iff.mp (hbefore (List.mem_cons_of_mem a hk)) with hrest | ⟨r, hr, -⟩
      · exact hrest
      · exact absurd (List.cons.inj hr).1 hne
    | update a f => exact hbefore hk
    | delete a => exact hbefore hk
  · rw [Function.update_of_ne hj] at hk ⊢
    exact h hk

omit [DecidableEq κ] [DecidableEq ι] in
theorem SetsBefore.not_mem (h : SetsBefore i k k' s) (hk' : k' ∉ setKeys (s.queue i)) :
    k ∉ setKeys (s.queue i) :=
  fun hk => hk' ((h hk).subset (List.mem_cons_of_mem k List.mem_cons_self))

end Order

/-- The document is there, or the client is about to create it. -/
def Comes (i : ι) (k : κ) (s : State ι κ δ) : Prop :=
  k ∈ setKeys (s.queue i) ∨ (s.store k).isSome

theorem Comes.commit (h : Comes i k s) (hdelete : ∀ j, delete k ∉ s.queue j)
    (hs : commit j s = some s') : Comes i k s' := by
  obtain ⟨w, ws, hqueue, rfl⟩ := commit_eq_some hs
  have hkept : (s.store k).isSome → (w.actAt k (s.store k)).isSome := by
    intro hsome
    unfold actAt
    split_ifs with hkey
    · cases w with
      | set k' d => rfl
      | update k' f => simpa [act] using hsome
      | delete k' =>
        subst hkey
        exact absurd (hqueue ▸ List.mem_cons_self) (hdelete j)
    · exact hsome
  unfold Comes
  dsimp only
  rw [apply_eq]
  rcases h with hset | hsome
  · by_cases hj : i = j
    · subst hj
      rw [Function.update_self]
      obtain ⟨d, hd⟩ := mem_setKeys.mp hset
      rw [hqueue] at hd
      rcases List.mem_cons.mp hd with rfl | hrest
      · rw [actAt_set]
        exact .inr rfl
      · exact .inl (mem_setKeys.mpr ⟨d, hrest⟩)
    · rw [Function.update_of_ne hj]
      exact .inl hset
  · exact .inr (hkept hsome)

omit [DecidableEq ι] in
theorem Comes.view_isSome (h : Comes i k s) (hdelete : delete k ∉ s.queue i) :
    (view s i k).isSome := by
  rw [view_eq, isSome_foldl_actAt_iff hdelete]
  exact h.symm

omit [DecidableEq κ] in
theorem Comes.issue (h : Comes i k s) (j : ι) (ws : List (Write κ δ)) :
    Comes i k (issue j ws s) := by
  refine h.imp_left fun hk => ?_
  obtain ⟨d, hd⟩ := mem_setKeys.mp hk
  exact mem_setKeys.mpr ⟨d, mem_queue_issue.mpr (.inl hd)⟩

end WriteQueues
