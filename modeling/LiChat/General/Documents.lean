import Mathlib.Data.List.Nodup
import Mathlib.Data.List.Perm.Basic
import Mathlib.Logic.Function.Basic

/-!
# Collections of documents with automatic ids

A collection is a finite set of documents, each under an id that the store
hands out once and never again.  Both facts are fields of the structure, so no
operation has to re-establish them at its call sites.
-/

namespace Documents

variable {α : Type*}

/-- Stored documents with their ids, in the order in which they were created;
`next` is the id that the next created document receives. -/
structure Collection (α : Type*) where
  docs : List (ℕ × α)
  next : ℕ
  nodup : (docs.map Prod.fst).Nodup
  fresh : ∀ e ∈ docs, e.1 < next

namespace Collection

def empty : Collection α := ⟨[], 0, List.nodup_nil, by simp⟩

/-- Create a document; its content may mention the id it receives. -/
def add (c : Collection α) (f : ℕ → α) : Collection α where
  docs := c.docs ++ [(c.next, f c.next)]
  next := c.next + 1
  nodup := by
    rw [List.map_append, List.nodup_append]
    refine ⟨c.nodup, by simp, ?_⟩
    rintro a ha b hb rfl
    obtain ⟨e, he, rfl⟩ := List.mem_map.mp ha
    have hlt := c.fresh e he
    have hb' : e.1 = c.next := by simpa using hb
    omega
  fresh := by
    intro e he
    rcases List.mem_append.mp he with he | he
    · exact Nat.lt_succ_of_lt (c.fresh e he)
    · obtain rfl := List.mem_singleton.mp he
      exact Nat.lt_succ_self _

/-- Change the document with the given id; nothing happens when it is gone. -/
def update (c : Collection α) (id : ℕ) (f : α → α) : Collection α where
  docs := c.docs.map fun e => if e.1 = id then (e.1, f e.2) else e
  next := c.next
  nodup := by
    have hkeys : (c.docs.map fun e => if e.1 = id then (e.1, f e.2) else e).map Prod.fst =
        c.docs.map Prod.fst := by
      rw [List.map_map]
      refine List.map_congr_left fun e _ => ?_
      by_cases h : e.1 = id <;> simp [h]
    rw [hkeys]
    exact c.nodup
  fresh := by
    intro e he
    obtain ⟨d, hd, rfl⟩ := List.mem_map.mp he
    have hlt := c.fresh d hd
    by_cases h : d.1 = id <;> simpa [h] using hlt

def delete (c : Collection α) (id : ℕ) : Collection α where
  docs := c.docs.filter fun e => e.1 ≠ id
  next := c.next
  nodup := c.nodup.sublist (List.filter_sublist.map _)
  fresh := fun e he => c.fresh e (List.mem_of_mem_filter he)

@[simp] theorem docs_empty : (empty : Collection α).docs = [] := rfl

theorem mem_add {c : Collection α} {f : ℕ → α} {e : ℕ × α} :
    e ∈ (c.add f).docs ↔ e ∈ c.docs ∨ e = (c.next, f c.next) := by
  simp [add]

theorem mem_update {c : Collection α} {id : ℕ} {f : α → α} {e : ℕ × α} :
    e ∈ (c.update id f).docs ↔
      ∃ d ∈ c.docs, e = if d.1 = id then (d.1, f d.2) else d := by
  simp only [update, List.mem_map, eq_comm]

theorem mem_delete {c : Collection α} {id : ℕ} {e : ℕ × α} :
    e ∈ (c.delete id).docs ↔ e ∈ c.docs ∧ e.1 ≠ id := by
  simp [delete]

theorem eq_of_fst_eq {c : Collection α} {e d : ℕ × α} (he : e ∈ c.docs) (hd : d ∈ c.docs)
    (h : e.1 = d.1) : e = d :=
  List.inj_on_of_nodup_map c.nodup he hd h

end Collection

theorem forall_update {ι β : Type*} [DecidableEq ι] {f : ι → Option β} {P : β → Prop} {k : ι}
    {v : β} (h : ∀ j b, f j = some b → P b) (hv : P v) :
    ∀ j b, Function.update f k (some v) j = some b → P b := by
  intro j b hj
  by_cases hjk : j = k
  · subst hjk
    rw [Function.update_self] at hj
    obtain rfl := Option.some.inj hj
    exact hv
  · rw [Function.update_of_ne hjk] at hj
    exact h j b hj

end Documents
