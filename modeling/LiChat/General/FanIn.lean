import Mathlib.Data.List.Nodup
import Mathlib.Data.List.ReduceOption

/-!
# Fan-in of answers with early completions

A number of requests is answered in some order.  An answer is a list of items, or
missing.  A missing answer completes the fan-in with what has been collected so far; an
answer that is not missing is collected and counted, and completes the fan-in when the
count has reached the number of requests.
-/

namespace FanIn

variable {σ α γ β : Type*}

/-- What callbacks put out that run one after the other on the same captured variables. -/
def callbacks (callback : σ → α → Option (σ × List γ)) : σ → List α → Option (List γ)
  | _, [] => some []
  | s, a :: as => (callback s a).bind fun r => (callbacks callback r.1 as).map (r.2 ++ ·)

structure Gathering (β : Type*) where
  collected : List β
  count : ℕ

def answered (n : ℕ) (g : Gathering β) : Option (List β) → Gathering β × List (List β)
  | none => (g, [g.collected])
  | some items =>
    let g' : Gathering β := ⟨g.collected ++ items, g.count + 1⟩
    (g', if n = g'.count then [g'.collected] else [])

def completions (n : ℕ) : Gathering β → List (Option (List β)) → List (List β)
  | _, [] => []
  | g, a :: as => (answered n g a).2 ++ completions n (answered n g a).1 as

theorem callbacks_eq_completions {callback : σ → α → Option (σ × List (List β))} {n : ℕ}
    (view : σ → Gathering β) (answer : α → Option (List β)) {as : List α}
    (hstep : ∀ s, ∀ a ∈ as, (view s).count < n → ∃ s',
      callback s a = some (s', (answered n (view s) (answer a)).2) ∧
        view s' = (answered n (view s) (answer a)).1)
    {s : σ} (hcount : (view s).count + as.length ≤ n) :
    callbacks callback s as = some (completions n (view s) (as.map answer)) := by
  induction as generalizing s with
  | nil => rfl
  | cons a as ih =>
    rw [List.length_cons] at hcount
    obtain ⟨s', hcallback, hview⟩ := hstep s a List.mem_cons_self (by omega)
    have hcount' : (view s').count + as.length ≤ n := by
      rw [hview]
      cases answer a with
      | none =>
        change (view s).count + as.length ≤ n
        omega
      | some items =>
        change (view s).count + 1 + as.length ≤ n
        omega
    have hrest := ih (fun t b hb => hstep t b (List.mem_cons_of_mem _ hb)) hcount'
    rw [callbacks, hcallback, Option.bind_some, hrest, hview]
    rfl

def found (answers : List (Option (List β))) : List β := answers.reduceOption.flatten

def partials : List β → List (Option (List β)) → List (List β)
  | _, [] => []
  | collected, none :: as => collected :: partials collected as
  | collected, some items :: as => partials (collected ++ items) as

@[simp] theorem found_nil : found ([] : List (Option (List β))) = [] := rfl

@[simp] theorem found_none (as : List (Option (List β))) : found (none :: as) = found as := rfl

@[simp] theorem found_some (items : List β) (as : List (Option (List β))) :
    found (some items :: as) = items ++ found as := rfl

theorem found_append (as bs : List (Option (List β))) : found (as ++ bs) = found as ++ found bs := by
  simp [found, List.reduceOption_append]

theorem mem_found {x : β} {as : List (Option (List β))} :
    x ∈ found as ↔ ∃ items, some items ∈ as ∧ x ∈ items := by
  simp [found, List.reduceOption_mem_iff]

theorem partials_of_no_missing {collected : List β} {as : List (Option (List β))} (h : none ∉ as) :
    partials collected as = [] := by
  induction as generalizing collected with
  | nil => rfl
  | cons a as ih =>
    obtain ⟨ha, has⟩ : a ≠ none ∧ none ∉ as := by simpa [eq_comm] using h
    obtain ⟨items, rfl⟩ := Option.ne_none_iff_exists'.mp ha
    exact ih has

theorem partials_append (collected : List β) (as bs : List (Option (List β))) :
    partials collected (as ++ bs) = partials collected as ++ partials (collected ++ found as) bs := by
  induction as generalizing collected with
  | nil => simp [partials]
  | cons a as ih =>
    cases a with
    | none => simp [partials, ih]
    | some items => simp [partials, ih, List.append_assoc]

theorem exists_first_missing {as : List (Option (List β))} (h : none ∈ as) :
    ∃ block post, as = block ++ none :: post ∧ none ∉ block := by
  obtain ⟨block, post, hsplit, hblock⟩ := List.eq_append_cons_of_mem h
  exact ⟨block, post, hsplit, hblock⟩

theorem exists_last_missing {as : List (Option (List β))} (h : none ∈ as) :
    ∃ pre post, as = pre ++ none :: post ∧ none ∉ post := by
  obtain ⟨front, back, hsplit, hfront⟩ := List.eq_append_cons_of_mem (List.mem_reverse.mpr h)
  refine ⟨back.reverse, front.reverse, ?_, by simpa using hfront⟩
  rw [← List.reverse_reverse as, hsplit]
  simp

theorem completions_of_short {n : ℕ} {as : List (Option (List β))} {g : Gathering β}
    (hcount : g.count + as.length < n) : completions n g as = partials g.collected as := by
  induction as generalizing g with
  | nil => rfl
  | cons a as ih =>
    rw [List.length_cons] at hcount
    cases a with
    | none =>
      have hrest : g.count + as.length < n := by omega
      rw [completions, answered, ih hrest]
      rfl
    | some items =>
      have hn : n ≠ g.count + 1 := by omega
      have hrest : g.count + 1 + as.length < n := by omega
      rw [completions, answered, ih hrest, if_neg hn]
      rfl

theorem completions_of_missing {n : ℕ} {as : List (Option (List β))} {g : Gathering β}
    (hcount : g.count + as.length = n) (h : none ∈ as) :
    completions n g as = partials g.collected as := by
  induction as generalizing g with
  | nil => cases h
  | cons a as ih =>
    rw [List.length_cons] at hcount
    cases a with
    | none =>
      have hrest : g.count + as.length < n := by omega
      rw [completions, answered, completions_of_short hrest]
      rfl
    | some items =>
      have hmem : none ∈ as := by simpa using h
      have hlen : 0 < as.length := List.length_pos_of_mem hmem
      have hn : n ≠ g.count + 1 := by omega
      have hrest : g.count + 1 + as.length = n := by omega
      rw [completions, answered, ih hrest hmem, if_neg hn]
      rfl

theorem completions_of_no_missing {n : ℕ} {as : List (Option (List β))} {g : Gathering β}
    (hcount : g.count + as.length = n) (hne : as ≠ []) (h : none ∉ as) :
    completions n g as = [g.collected ++ found as] := by
  induction as generalizing g with
  | nil => exact absurd rfl hne
  | cons a as ih =>
    obtain ⟨ha, has⟩ : a ≠ none ∧ none ∉ as := by simpa [eq_comm] using h
    obtain ⟨items, rfl⟩ := Option.ne_none_iff_exists'.mp ha
    rw [List.length_cons] at hcount
    rw [completions, answered]
    cases as with
    | nil =>
      have hn : n = g.count + 1 := by simpa using hcount.symm
      simp [hn, completions]
    | cons b bs =>
      have hn : n ≠ g.count + 1 := by simp at hcount; omega
      have hrest : g.count + 1 + (b :: bs).length = n := by omega
      rw [if_neg hn, ih hrest (by simp) has, List.nil_append, found_some, List.append_assoc]

theorem getLast?_partials {as pre post : List (Option (List β))} (h : as = pre ++ none :: post)
    (hpost : none ∉ post) : (partials [] as).getLast? = some (found pre) := by
  subst h
  rw [partials_append, List.nil_append, partials, partials_of_no_missing hpost]
  simp

theorem suffix_of_last_missing {pre post pre' post' : List (Option (List β))}
    (h : pre ++ none :: post = pre' ++ none :: post') (hpost : none ∉ post) : post <:+ post' := by
  rcases List.append_eq_append_iff.mp h with ⟨mid, -, hmid⟩ | ⟨mid, -, hmid⟩
  · cases mid with
    | nil =>
      obtain rfl : post = post' := by simpa using hmid
      exact List.suffix_rfl
    | cons m mid =>
      obtain ⟨rfl, hrest⟩ := List.cons_eq_cons.mp hmid
      exact absurd (by simp [hrest]) hpost
  · cases mid with
    | nil =>
      obtain rfl : post = post' := by simpa using hmid.symm
      exact List.suffix_rfl
    | cons m mid =>
      obtain ⟨rfl, hrest⟩ := List.cons_eq_cons.mp hmid
      exact ⟨mid ++ [none], by simp [hrest]⟩

/-- The last completion has all items exactly when nothing is missing or a missing answer
comes after the last item. -/
theorem last_completion {as : List (Option (List β))} (hne : as ≠ []) :
    ∃ items, (completions as.length ⟨[], 0⟩ as).getLast? = some items ∧ items <+: found as ∧
      (items = found as ↔
        none ∉ as ∨ ∃ pre post, as = pre ++ none :: post ∧ found post = []) := by
  by_cases h : none ∈ as
  · obtain ⟨pre, post, rfl, hpost⟩ := exists_last_missing h
    have hfound : found (pre ++ none :: post) = found pre ++ found post := by
      rw [found_append, found_none]
    refine ⟨found pre, ?_, ⟨found post, hfound.symm⟩, ?_⟩
    · rw [completions_of_missing (Nat.zero_add _) h]
      exact getLast?_partials rfl hpost
    rw [hfound, List.self_eq_append_right]
    constructor
    · intro hnil
      exact .inr ⟨pre, post, rfl, hnil⟩
    · rintro (hnone | ⟨pre', post', hsplit, hnil⟩)
      · exact absurd h hnone
      · obtain ⟨front, rfl⟩ := suffix_of_last_missing hsplit hpost
        rw [found_append] at hnil
        exact (List.append_eq_nil_iff.mp hnil).2
  · refine ⟨found as, ?_, List.prefix_rfl, ?_⟩
    · rw [completions_of_no_missing (Nat.zero_add _) hne h]
      rfl
    · simp [h]

theorem subset_of_mem_partials {collected c : List β} {as : List (Option (List β))}
    (h : c ∈ partials collected as) : collected ⊆ c := by
  induction as generalizing collected with
  | nil => cases h
  | cons a as ih =>
    cases a with
    | none =>
      rcases List.mem_cons.mp h with rfl | hrest
      · exact List.Subset.refl _
      · exact ih hrest
    | some items => exact List.Subset.trans (List.subset_append_left _ _) (ih h)

theorem exists_of_found_ne_nil {as : List (Option (List β))} (h : found as ≠ []) :
    ∃ pre items post, as = pre ++ some items :: post ∧ items ≠ [] := by
  obtain ⟨x, hx⟩ := List.exists_mem_of_ne_nil _ h
  obtain ⟨items, hitems, hmem⟩ := mem_found.mp hx
  obtain ⟨pre, post, hsplit⟩ := List.append_of_mem hitems
  exact ⟨pre, items, post, hsplit, List.ne_nil_of_mem hmem⟩

theorem completions_ne_nil_iff {as : List (Option (List β))} (hne : as ≠ []) :
    (∀ c ∈ completions as.length ⟨[], 0⟩ as, c ≠ []) ↔
      ∃ pre items post, as = pre ++ some items :: post ∧ items ≠ [] ∧ none ∉ pre := by
  by_cases h : none ∈ as
  · rw [completions_of_missing (Nat.zero_add _) h]
    constructor
    · intro hall
      obtain ⟨block, post, rfl, hblock⟩ := exists_first_missing h
      have hfound : found block ≠ [] := hall _ (by
        rw [partials_append, partials_of_no_missing hblock]
        simp [partials])
      obtain ⟨pre, items, rest, rfl, hitems⟩ := exists_of_found_ne_nil hfound
      exact ⟨pre, items, rest ++ none :: post, by simp, hitems, fun hpre => hblock (by simp [hpre])⟩
    · rintro ⟨pre, items, post, rfl, hitems, hpre⟩ c hc
      rw [partials_append, partials_of_no_missing hpre, List.nil_append, partials] at hc
      obtain ⟨x, hx⟩ := List.exists_mem_of_ne_nil items hitems
      exact List.ne_nil_of_mem (subset_of_mem_partials hc (List.mem_append_right _ hx))
  · rw [completions_of_no_missing (Nat.zero_add _) hne h]
    simp only [List.mem_singleton, forall_eq, List.nil_append]
    constructor
    · intro hfound
      obtain ⟨pre, items, post, rfl, hitems⟩ := exists_of_found_ne_nil hfound
      exact ⟨pre, items, post, rfl, hitems, fun hpre => h (by simp [hpre])⟩
    · rintro ⟨pre, items, post, rfl, hitems, -⟩ hnil
      rw [found_append, found_some] at hnil
      exact hitems (List.append_eq_nil_iff.mp (List.append_eq_nil_iff.mp hnil).2).1

theorem found_replicate_none (k : ℕ) (as : List (Option (List β))) :
    found (List.replicate k none ++ as) = found as := by
  induction k with
  | zero => rfl
  | succ k ih => simpa [List.replicate_succ] using ih

theorem partials_replicate_none (k : ℕ) (as : List (Option (List β))) :
    (partials [] (List.replicate k none ++ as)).flatten = (partials [] as).flatten := by
  induction k with
  | zero => rfl
  | succ k ih => simpa [List.replicate_succ, partials] using ih

theorem collected_subset_partials {collected : List β} {as : List (Option (List β))} {x : β}
    (hx : x ∈ collected) (h : none ∈ as) : x ∈ (partials collected as).flatten := by
  induction as generalizing collected with
  | nil => cases h
  | cons a as ih =>
    cases a with
    | none =>
      rw [partials, List.flatten_cons]
      exact List.mem_append_left _ hx
    | some items =>
      have hrest : none ∈ as := by simpa using h
      exact ih (List.mem_append_left _ hx) hrest

theorem exists_leading_missing (as : List (Option (List β))) :
    ∃ k rest, as = List.replicate k none ++ rest ∧
      (rest = [] ∨ ∃ items rest', rest = some items :: rest') := by
  induction as with
  | nil => exact ⟨0, [], rfl, .inl rfl⟩
  | cons a as ih =>
    cases a with
    | none =>
      obtain ⟨k, rest, rfl, hrest⟩ := ih
      exact ⟨k + 1, rest, rfl, hrest⟩
    | some items => exact ⟨0, _, rfl, .inr ⟨items, as, rfl⟩⟩

theorem single_missing_of_perm {as : List (Option (List β))} {items : List β} (hitems : items ≠ [])
    (hnonempty : ∀ items', some items' ∈ as → items' ≠ []) (hnodup : (found (some items :: as)).Nodup)
    (hperm : (partials [] (some items :: as)).flatten.Perm (found (some items :: as))) :
    ∃ block, some items :: as = block ++ [none] ∧ none ∉ block := by
  obtain ⟨x, hx⟩ := List.exists_mem_of_ne_nil items hitems
  have hmissing : none ∈ some items :: as := by
    by_contra hnone
    rw [partials_of_no_missing hnone, List.flatten_nil] at hperm
    have hmem : x ∈ found (some items :: as) := List.mem_append_left _ hx
    rw [hperm.symm.eq_nil] at hmem
    cases hmem
  obtain ⟨block, post, hsplit, hblock⟩ := exists_first_missing hmissing
  obtain ⟨block', rfl⟩ : ∃ block', block = some items :: block' := by
    cases block with
    | nil => cases hsplit
    | cons b block' =>
      obtain ⟨rfl, -⟩ := List.cons_eq_cons.mp hsplit
      exact ⟨block', rfl⟩
  have hxblock : x ∈ found (some items :: block') := List.mem_append_left _ hx
  have hflatten : (partials [] (some items :: as)).flatten =
      found (some items :: block') ++ (partials (found (some items :: block')) post).flatten := by
    rw [hsplit, partials_append, partials_of_no_missing hblock]
    rfl
  -- a second missing answer would complete with `x` once more
  have hpost : none ∉ post := by
    intro hmem
    have hdisjoint := (List.nodup_append.mp (hflatten ▸ hperm.nodup_iff.mpr hnodup)).2.2
    exact hdisjoint x hxblock x (collected_subset_partials hxblock hmem) rfl
  rw [hflatten, partials_of_no_missing hpost, List.flatten_nil, List.append_nil, hsplit, found_append,
    found_none] at hperm
  have hlength := hperm.length_eq
  rw [List.length_append] at hlength
  have hnil : found post = [] := List.length_eq_zero_iff.mp (by omega)
  cases post with
  | nil => exact ⟨_, hsplit, hblock⟩
  | cons b post =>
    obtain ⟨items', rfl⟩ : ∃ items', b = some items' := by
      cases b with
      | none => exact absurd (List.mem_cons_self) hpost
      | some items' => exact ⟨items', rfl⟩
    have hrest : as = block' ++ none :: some items' :: post := (List.cons_eq_cons.mp hsplit).2
    have hmem : some items' ∈ as := by simp [hrest]
    exact absurd (List.append_eq_nil_iff.mp hnil).1 (hnonempty items' hmem)

/-- Each item is in exactly one completion exactly when nothing is missing, or everything,
or the answers that are not missing come one after the other, right before the last one,
which is missing. -/
theorem completed_once_iff {as : List (Option (List β))}
    (hnonempty : ∀ items, some items ∈ as → items ≠ []) (hnodup : (found as).Nodup) :
    (completions as.length ⟨[], 0⟩ as).flatten.Perm (found as) ↔
      none ∉ as ∨ (∀ a ∈ as, a = none) ∨
        ∃ k block, as = List.replicate k none ++ (block ++ [none]) ∧ none ∉ block := by
  by_cases h : none ∈ as
  · rw [completions_of_missing (Nat.zero_add _) h]
    constructor
    · intro hperm
      obtain ⟨k, rest, rfl, rfl | ⟨items, rest, rfl⟩⟩ := exists_leading_missing as
      · exact .inr (.inl fun a ha => by simpa using (List.mem_replicate.mp (by simpa using ha)).2)
      · rw [partials_replicate_none, found_replicate_none] at hperm
        rw [found_replicate_none] at hnodup
        have hrest : ∀ items', some items' ∈ rest → items' ≠ [] :=
          fun items' hmem => hnonempty items' (by simp [hmem])
        obtain ⟨block, hblock, hnone⟩ :=
          single_missing_of_perm (hnonempty items (by simp)) hrest hnodup hperm
        exact .inr (.inr ⟨k, block, by rw [hblock], hnone⟩)
    · rintro (hnone | hall | ⟨k, block, rfl, hblock⟩)
      · exact absurd h hnone
      · have has : as = List.replicate as.length none ++ [] := by
          rw [List.append_nil]
          exact List.eq_replicate_of_mem hall
        rw [has, partials_replicate_none, found_replicate_none]
        rfl
      · rw [partials_replicate_none, found_replicate_none, partials_append, found_append,
          partials_of_no_missing hblock]
        simp [partials]
  · have hflatten : (completions as.length ⟨[], 0⟩ as).flatten = found as := by
      cases as with
      | nil => rfl
      | cons a as =>
        rw [completions_of_no_missing (Nat.zero_add _) (List.cons_ne_nil a as) h]
        simp
    rw [hflatten]
    simp [h]

theorem mem_partials_iff {collected c : List β} {as : List (Option (List β))} :
    c ∈ partials collected as ↔
      ∃ pre post, as = pre ++ none :: post ∧ c = collected ++ found pre := by
  induction as generalizing collected with
  | nil => simp [partials]
  | cons a as ih =>
    cases a with
    | none =>
      rw [partials, List.mem_cons, ih]
      constructor
      · rintro (rfl | ⟨pre, post, rfl, rfl⟩)
        · exact ⟨[], as, rfl, by simp⟩
        · exact ⟨none :: pre, post, rfl, by simp⟩
      · rintro ⟨pre, post, hsplit, rfl⟩
        cases pre with
        | nil => exact .inl (by simp)
        | cons b pre =>
          obtain ⟨rfl, rfl⟩ := List.cons_eq_cons.mp hsplit
          exact .inr ⟨pre, post, rfl, by simp⟩
    | some items =>
      rw [partials, ih]
      constructor
      · rintro ⟨pre, post, rfl, rfl⟩
        exact ⟨some items :: pre, post, rfl, by simp⟩
      · rintro ⟨pre, post, hsplit, rfl⟩
        cases pre with
        | nil => cases hsplit
        | cons b pre =>
          obtain ⟨rfl, rfl⟩ := List.cons_eq_cons.mp hsplit
          exact ⟨pre, post, rfl, by simp⟩

theorem mem_completions_iff {n : ℕ} {c : List β} {as : List (Option (List β))}
    (hn : as.length ≤ n) :
    c ∈ completions n ⟨[], 0⟩ as ↔
      (∃ pre post, as = pre ++ none :: post ∧ c = found pre) ∨
        as.length = n ∧ as ≠ [] ∧ none ∉ as ∧ c = found as := by
  have hpartials : c ∈ partials [] as ↔ ∃ pre post, as = pre ++ none :: post ∧ c = found pre := by
    simp [mem_partials_iff]
  rcases Nat.lt_or_eq_of_le hn with hshort | hall
  · rw [completions_of_short (by simpa using hshort), hpartials]
    simp [Nat.ne_of_lt hshort]
  by_cases hmissing : none ∈ as
  · rw [completions_of_missing (by simpa using hall) hmissing, hpartials]
    simp [hmissing]
  rcases eq_or_ne as [] with rfl | hne
  · simp [completions]
  rw [completions_of_no_missing (by simpa using hall) hne hmissing]
  constructor
  · intro hc
    exact .inr ⟨hall, hne, hmissing, by simpa using hc⟩
  · rintro (⟨pre, post, rfl, -⟩ | ⟨-, -, -, rfl⟩)
    · exact absurd (by simp) hmissing
    · simp

theorem pairwise_partials (collected : List β) (as : List (Option (List β))) :
    (partials collected as).Pairwise (· <+: ·) := by
  induction as generalizing collected with
  | nil => exact List.Pairwise.nil
  | cons a as ih =>
    cases a with
    | none =>
      refine List.Pairwise.cons (fun c hc => ?_) (ih collected)
      obtain ⟨pre, post, -, rfl⟩ := mem_partials_iff.mp hc
      exact List.prefix_append _ _
    | some items => exact ih _

theorem pairwise_completions {n : ℕ} {as : List (Option (List β))} (hn : as.length ≤ n) :
    (completions n ⟨[], 0⟩ as).Pairwise (· <+: ·) := by
  rcases Nat.lt_or_eq_of_le hn with hshort | hall
  · rw [completions_of_short (by simpa using hshort)]
    exact pairwise_partials _ _
  by_cases hmissing : none ∈ as
  · rw [completions_of_missing (by simpa using hall) hmissing]
    exact pairwise_partials _ _
  rcases eq_or_ne as [] with rfl | hne
  · exact List.Pairwise.nil
  rw [completions_of_no_missing (by simpa using hall) hne hmissing]
  exact List.pairwise_singleton _ _

theorem mem_last_completion {n : ℕ} {as : List (Option (List β))} {list : List β}
    (hn : as.length ≤ n) (hlast : (completions n ⟨[], 0⟩ as).getLast? = some list) {x : β} :
    x ∈ list ↔ ∃ c ∈ completions n ⟨[], 0⟩ as, x ∈ c := by
  have hpairwise := pairwise_completions hn
  obtain ⟨front, hfront⟩ := List.getLast?_eq_some_iff.mp hlast
  rw [hfront] at hpairwise ⊢
  constructor
  · intro hx
    exact ⟨list, by simp, hx⟩
  · rintro ⟨c, hc, hx⟩
    rcases List.mem_append.mp hc with hc | hc
    · exact ((List.pairwise_append.mp hpairwise).2.2 c hc list (by simp)).subset hx
    · rwa [← List.mem_singleton.mp hc]

end FanIn
