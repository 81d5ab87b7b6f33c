import Mathlib.Data.List.Basic
import Mathlib.Data.Set.Basic
import Mathlib.Logic.Function.Basic

/-!
# Marks through a query and a write

A request to mark a document first asks whether the document exists and, when the answer
is there, writes the mark.  Requests may be made at any time, and their queries and writes
are served in any order.
-/

namespace Marking

variable {κ δ ρ : Type*} [DecidableEq κ]

/-- The documents, the queries that wait for their answers and the writes under way. -/
structure State (κ δ ρ : Type*) where
  store : κ → Option δ
  queries : List (κ × ρ)
  writes : List (κ × ρ)

def init (store : κ → Option δ) : State κ δ ρ := ⟨store, [], []⟩

def ask (requests : List (κ × ρ)) (s : State κ δ ρ) : State κ δ ρ :=
  { s with queries := s.queries ++ requests }

/-- The `n`-th query is answered. -/
def query (n : ℕ) (s : State κ δ ρ) : Option (State κ δ ρ) :=
  s.queries[n]?.map fun q =>
    { s with
      queries := s.queries.eraseIdx n
      writes := if (s.store q.1).isSome then s.writes ++ [q] else s.writes }

/-- The `n`-th write is done. -/
def write (mark : ρ → δ → δ) (n : ℕ) (s : State κ δ ρ) : Option (State κ δ ρ) :=
  s.writes[n]?.map fun q =>
    { s with
      store := Function.update s.store q.1 ((s.store q.1).map (mark q.2))
      writes := s.writes.eraseIdx n }

def IsMarked (marked : δ → Prop) (store : κ → Option δ) (k : κ) : Prop :=
  ∃ d, store k = some d ∧ marked d

/-- Since the documents were as in `before`, marks have been asked for at the keys in
`asked`, and nothing else has changed. -/
structure Marks (marked : δ → Prop) (before : κ → Option δ) (asked : Set κ) (s : State κ δ ρ) :
    Prop where
  present : ∀ k, (s.store k).isSome ↔ (before k).isSome
  kept : ∀ k, IsMarked marked before k → IsMarked marked s.store k
  only : ∀ k, IsMarked marked s.store k → IsMarked marked before k ∨ k ∈ asked
  pending : ∀ k ∈ asked, (before k).isSome →
    (∃ r, (k, r) ∈ s.queries) ∨ (∃ r, (k, r) ∈ s.writes) ∨ IsMarked marked s.store k
  queries : ∀ q ∈ s.queries, q.1 ∈ asked
  writes : ∀ q ∈ s.writes, q.1 ∈ asked

variable {marked : δ → Prop} {before : κ → Option δ} {asked : Set κ} {s s' : State κ δ ρ}

omit [DecidableEq κ] in
theorem marks_init (marked : δ → Prop) (before : κ → Option δ) :
    Marks marked before ∅ (init before : State κ δ ρ) where
  present _ := Iff.rfl
  kept _ h := h
  only _ h := .inl h
  pending _ h := absurd h (Set.notMem_empty _)
  queries _ h := absurd h List.not_mem_nil
  writes _ h := absurd h List.not_mem_nil

omit [DecidableEq κ] in
theorem Marks.ask (h : Marks marked before asked s) (requests : List (κ × ρ)) :
    Marks marked before {k | k ∈ asked ∨ ∃ r, (k, r) ∈ requests} (ask requests s) where
  present := h.present
  kept := h.kept
  only k hk := (h.only k hk).imp_right .inl
  pending k hk hbefore := by
    rcases hk with hold | ⟨r, hr⟩
    · rcases h.pending k hold hbefore with ⟨r, hr⟩ | hrest
      · exact .inl ⟨r, List.mem_append_left _ hr⟩
      · exact .inr hrest
    · exact .inl ⟨r, List.mem_append_right _ hr⟩
  queries q hq := by
    rcases List.mem_append.mp hq with hold | hnew
    · exact .inl (h.queries q hold)
    · exact .inr ⟨q.2, hnew⟩
  writes q hq := .inl (h.writes q hq)

omit [DecidableEq κ] in
theorem mem_eraseIdx_or {q q' : κ × ρ} {l : List (κ × ρ)} {n : ℕ} (hq : l[n]? = some q)
    (hmem : q' ∈ l) : q' = q ∨ q' ∈ l.eraseIdx n := by
  obtain ⟨i, hi⟩ := List.mem_iff_getElem?.mp hmem
  by_cases hin : i = n
  · subst hin
    exact .inl (Option.some.inj (hi.symm.trans hq))
  · exact .inr (List.mem_eraseIdx_iff_getElem?.mpr ⟨i, hin, hi⟩)

omit [DecidableEq κ] in
theorem Marks.query {n : ℕ} (h : Marks marked before asked s) (hs : query n s = some s') :
    Marks marked before asked s' := by
  obtain ⟨q, hq, rfl⟩ := Option.map_eq_some_iff.mp hs
  have hasked : q.1 ∈ asked := h.queries q (List.mem_of_getElem? hq)
  refine ⟨h.present, h.kept, h.only, ?_, ?_, ?_⟩
  · intro k hk hbefore
    rcases h.pending k hk hbefore with ⟨r, hr⟩ | ⟨r, hr⟩ | hmarked
    · rcases mem_eraseIdx_or hq hr with rfl | hrest
      · -- the document exists, so the answer leads to a write
        refine .inr (.inl ⟨r, ?_⟩)
        simp only [(h.present k).mpr hbefore, if_true]
        exact List.mem_append_right _ List.mem_cons_self
      · exact .inl ⟨r, hrest⟩
    · refine .inr (.inl ⟨r, ?_⟩)
      dsimp only
      split_ifs
      · exact List.mem_append_left _ hr
      · exact hr
    · exact .inr (.inr hmarked)
  · intro q' hq'
    exact h.queries q' (List.mem_of_mem_eraseIdx hq')
  · intro q' hq'
    dsimp only at hq'
    split_ifs at hq'
    · rcases List.mem_append.mp hq' with hold | hnew
      · exact h.writes q' hold
      · rw [List.mem_singleton.mp hnew]
        exact hasked
    · exact h.writes q' hq'

theorem Marks.write {mark : ρ → δ → δ} {n : ℕ} (hmark : ∀ r d, marked (mark r d))
    (h : Marks marked before asked s) (hs : write mark n s = some s') :
    Marks marked before asked s' := by
  obtain ⟨q, hq, rfl⟩ := Option.map_eq_some_iff.mp hs
  have hasked : q.1 ∈ asked := h.writes q (List.mem_of_getElem? hq)
  have hself : ∀ k, k ≠ q.1 →
      Function.update s.store q.1 ((s.store q.1).map (mark q.2)) k = s.store k :=
    fun k hk => Function.update_of_ne hk ..
  -- marks are never taken back
  have hgrows : ∀ k, IsMarked marked s.store k →
      IsMarked marked (Function.update s.store q.1 ((s.store q.1).map (mark q.2))) k := by
    rintro k ⟨d, hd, hmarked⟩
    by_cases hk : k = q.1
    · subst hk
      exact ⟨mark q.2 d, by simp [hd], hmark _ _⟩
    · exact ⟨d, (hself k hk).trans hd, hmarked⟩
  refine ⟨?_, fun k hk => hgrows k (h.kept k hk), ?_, ?_, h.queries, ?_⟩
  · intro k
    rw [← h.present k]
    by_cases hk : k = q.1
    · subst hk
      simp
    · show (Function.update s.store q.1 _ k).isSome ↔ _
      rw [hself k hk]
  · rintro k ⟨d, hd, hmarked⟩
    by_cases hk : k = q.1
    · subst hk
      exact .inr hasked
    · exact h.only k ⟨d, (hself k hk).symm.trans hd, hmarked⟩
  · intro k hk hbefore
    rcases h.pending k hk hbefore with hquery | ⟨r, hr⟩ | hmarked
    · exact .inl hquery
    · rcases mem_eraseIdx_or hq hr with rfl | hrest
      · obtain ⟨d, hd⟩ := Option.isSome_iff_exists.mp ((h.present k).mpr hbefore)
        exact .inr (.inr ⟨mark r d, by simp [hd], hmark _ _⟩)
      · exact .inr (.inl ⟨r, hrest⟩)
    · exact .inr (.inr (hgrows k hmarked))
  · intro q' hq'
    exact h.writes q' (List.mem_of_mem_eraseIdx hq')

omit [DecidableEq κ] in
/-- When nothing is under way, exactly the documents are marked that were before or that a
mark has been asked for. -/
theorem Marks.finished (h : Marks marked before asked s) (hqueries : s.queries = [])
    (hwrites : s.writes = []) {k : κ} (hk : (before k).isSome) :
    IsMarked marked s.store k ↔ IsMarked marked before k ∨ k ∈ asked := by
  constructor
  · exact h.only k
  · rintro (hbefore | hasked)
    · exact h.kept k hbefore
    · rcases h.pending k hasked hk with ⟨r, hr⟩ | ⟨r, hr⟩ | hmarked
      · rw [hqueries] at hr
        cases hr
      · rw [hwrites] at hr
        cases hr
      · exact hmarked

section Tags
variable {tag : δ → Option ρ} {mark : ρ → δ → δ} {k : κ} {r : ρ}

/-- The document has the tag, or a request for the tag is under way. -/
def Claims (tag : δ → Option ρ) (s : State κ δ ρ) (k : κ) (r : ρ) : Prop :=
  (∃ d, s.store k = some d ∧ tag d = some r) ∨ (k, r) ∈ s.queries ∨ (k, r) ∈ s.writes

/-- No two tags are claimed for a document. -/
def Agree (tag : δ → Option ρ) (s : State κ δ ρ) : Prop :=
  ∀ k, (s.store k).isSome → ∀ r r', Claims tag s k r → Claims tag s k r' → r = r'

def KeepsTags (tag : δ → Option ρ) (s s' : State κ δ ρ) : Prop :=
  ∀ k d r, s.store k = some d → tag d = some r → ∃ d', s'.store k = some d' ∧ tag d' = some r

omit [DecidableEq κ] in
theorem keepsTags_of_store (h : s'.store = s.store) : KeepsTags tag s s' :=
  fun _ d _ hd hr => ⟨d, h ▸ hd, hr⟩

omit [DecidableEq κ] in
theorem KeepsTags.trans {s'' : State κ δ ρ} (h : KeepsTags tag s s') (h' : KeepsTags tag s' s'') :
    KeepsTags tag s s'' := by
  intro k d r hd hr
  obtain ⟨d', hd', hr'⟩ := h k d r hd hr
  exact h' k d' r hd' hr'

omit [DecidableEq κ] in
theorem agree_init (tag : δ → Option ρ) (store : κ → Option δ) :
    Agree tag (init store : State κ δ ρ) := by
  have hone : ∀ {k r}, Claims tag (init store) k r → ∃ d, store k = some d ∧ tag d = some r := by
    rintro k r (h | h | h)
    · exact h
    · cases h
    · cases h
  intro k _ r r' h h'
  obtain ⟨d, hd, hr⟩ := hone h
  obtain ⟨d', hd', hr'⟩ := hone h'
  obtain rfl := Option.some.inj (hd.symm.trans hd')
  exact Option.some.inj (hr.symm.trans hr')

omit [DecidableEq κ] in
theorem claims_ask {requests : List (κ × ρ)} :
    Claims tag (ask requests s) k r ↔ Claims tag s k r ∨ (k, r) ∈ requests := by
  simp only [Claims, ask, List.mem_append]
  exact (or_congr_right or_right_comm).trans or_assoc.symm

omit [DecidableEq κ] in
/-- New requests leave no two tags exactly when they agree with what is claimed and with
each other. -/
theorem agree_ask_iff {requests : List (κ × ρ)} (h : Agree tag s) :
    Agree tag (ask requests s) ↔ ∀ k r, (k, r) ∈ requests → (s.store k).isSome →
      ∀ r', Claims tag s k r' ∨ (k, r') ∈ requests → r' = r := by
  constructor
  · intro hask k r hr hk r' hr'
    exact hask k hk r' r (claims_ask.mpr hr') (claims_ask.mpr (.inr hr))
  · intro hnew k hk r r' hr hr'
    have hk : (s.store k).isSome := hk
    rcases claims_ask.mp hr with hold | hr
    · rcases claims_ask.mp hr' with hold' | hr'
      · exact h k hk r r' hold hold'
      · exact hnew k r' hr' hk r (.inl hold)
    · exact (hnew k r hr hk r' (claims_ask.mp hr')).symm

omit [DecidableEq κ] in
theorem claims_query {n : ℕ} (hs : query n s = some s') (hk : (s.store k).isSome) :
    Claims tag s' k r ↔ Claims tag s k r := by
  obtain ⟨q, hq, rfl⟩ := Option.map_eq_some_iff.mp hs
  refine or_congr_right ?_
  dsimp only
  constructor
  · rintro (h | h)
    · exact .inl (List.mem_of_mem_eraseIdx h)
    · split_ifs at h
      · rcases List.mem_append.mp h with hold | hnew
        · exact .inr hold
        · rw [List.mem_singleton.mp hnew]
          exact .inl (List.mem_of_getElem? hq)
      · exact .inr h
  · rintro (h | h)
    · rcases mem_eraseIdx_or hq h with rfl | hrest
      · -- the query that is answered becomes a write of the same tag
        exact .inr (by simp [hk])
      · exact .inl hrest
    · refine .inr ?_
      split_ifs
      · exact List.mem_append_left _ h
      · exact h

theorem isSome_write {n : ℕ} (hs : write mark n s = some s') (k : κ) :
    (s'.store k).isSome = (s.store k).isSome := by
  obtain ⟨q, -, rfl⟩ := Option.map_eq_some_iff.mp hs
  by_cases hk : k = q.1
  · subst hk
    simp
  · show (Function.update s.store q.1 _ k).isSome = _
    rw [Function.update_of_ne hk]

theorem claims_of_write {n : ℕ} (htag : ∀ r d, tag (mark r d) = some r)
    (hs : write mark n s = some s') (h : Claims tag s' k r) : Claims tag s k r := by
  obtain ⟨q, hq, rfl⟩ := Option.map_eq_some_iff.mp hs
  rcases h with ⟨d, hd, hr⟩ | h | h
  · by_cases hk : k = q.1
    · -- the tag of the document is the one that has been written
      subst hk
      dsimp only at hd
      rw [Function.update_self] at hd
      obtain ⟨d₀, -, rfl⟩ := Option.map_eq_some_iff.mp hd
      obtain rfl := Option.some.inj ((htag q.2 d₀).symm.trans hr)
      exact .inr (.inr (List.mem_of_getElem? hq))
    · dsimp only at hd
      rw [Function.update_of_ne hk] at hd
      exact .inl ⟨d, hd, hr⟩
  · exact .inr (.inl h)
  · exact .inr (.inr (List.mem_of_mem_eraseIdx h))

theorem claims_write {n : ℕ} (htag : ∀ r d, tag (mark r d) = some r)
    (hs : write mark n s = some s') (hkeeps : KeepsTags tag s s') (hk : (s.store k).isSome)
    (h : Claims tag s k r) : Claims tag s' k r := by
  rcases h with ⟨d, hd, hr⟩ | h | h
  · exact .inl (hkeeps k d r hd hr)
  · obtain ⟨q, -, rfl⟩ := Option.map_eq_some_iff.mp hs
    exact .inr (.inl h)
  · obtain ⟨q, hq, rfl⟩ := Option.map_eq_some_iff.mp hs
    rcases mem_eraseIdx_or hq h with rfl | hrest
    · obtain ⟨d, hd⟩ := Option.isSome_iff_exists.mp hk
      exact .inl ⟨mark r d, by simp [show s.store k = some d from hd], htag r d⟩
    · exact .inr (.inr hrest)

theorem Agree.keeps_write {n : ℕ} (htag : ∀ r d, tag (mark r d) = some r) (h : Agree tag s)
    (hs : write mark n s = some s') : KeepsTags tag s s' := by
  obtain ⟨q, hq, rfl⟩ := Option.map_eq_some_iff.mp hs
  intro k d r hd hr
  by_cases hk : k = q.1
  · -- the tag that is there and the one that is written are both claimed
    subst hk
    have hsame : q.2 = r := h q.1 (by rw [hd]; rfl) q.2 r
      (.inr (.inr (List.mem_of_getElem? hq))) (.inl ⟨d, hd, hr⟩)
    exact ⟨mark q.2 d, by simp [hd], hsame ▸ htag q.2 d⟩
  · exact ⟨d, (Function.update_of_ne hk ..).trans hd, hr⟩

theorem Agree.write {n : ℕ} (htag : ∀ r d, tag (mark r d) = some r) (h : Agree tag s)
    (hs : write mark n s = some s') : Agree tag s' := by
  intro k hk r r' hr hr'
  rw [isSome_write hs] at hk
  exact h k hk r r' (claims_of_write htag hs hr) (claims_of_write htag hs hr')

omit [DecidableEq κ] in
theorem query_store {n : ℕ} (hs : query n s = some s') : s'.store = s.store := by
  obtain ⟨q, -, rfl⟩ := Option.map_eq_some_iff.mp hs
  rfl

omit [DecidableEq κ] in
theorem agree_query_iff {n : ℕ} (hs : query n s = some s') : Agree tag s' ↔ Agree tag s := by
  unfold Agree
  rw [query_store hs]
  refine forall₂_congr fun k hk => ?_
  simp only [claims_query hs hk]

/-- Two tags that are claimed for a document are still claimed after a write that leaves the
tags as they are. -/
theorem agree_of_write {n : ℕ} (htag : ∀ r d, tag (mark r d) = some r)
    (hs : write mark n s = some s') (hkeeps : KeepsTags tag s s') (h : Agree tag s') :
    Agree tag s := by
  intro k hk r r' hr hr'
  exact h k ((isSome_write hs k).trans hk) r r' (claims_write htag hs hkeeps hk hr)
    (claims_write htag hs hkeeps hk hr')

omit [DecidableEq κ] in
theorem agree_of_ask {requests : List (κ × ρ)} (h : Agree tag (ask requests s)) : Agree tag s :=
  fun k hk r r' hr hr' => h k hk r r' (claims_ask.mpr (.inl hr)) (claims_ask.mpr (.inl hr'))

omit [DecidableEq κ] in
theorem agree_of_finished (hqueries : s.queries = []) (hwrites : s.writes = []) : Agree tag s := by
  have hs : s = init s.store := by
    cases s
    cases hqueries
    cases hwrites
    rfl
  rw [hs]
  exact agree_init tag s.store

end Tags

end Marking
