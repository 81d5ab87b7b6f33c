import LiChat.General.Counters
import LiChat.RecentCreation
import Mathlib.Data.Fintype.Card

/-!
# Unread counters

`updateRecents` reads kCOUNTER in its query and writes the raised value later;
`clearRecentCouter` writes zero.  The effect of an operation on one Recent is a
bump or a reset of the counter of the Recent's owner.
-/

namespace LiChat
open QueryWrite Counters

/-- An operation on the counters of a room: a message that has been sent, or an
owner who opens or leaves the chat. -/
inductive CounterOperation where
  | updateRecents (currentId : Uid) (date lastMessage : String)
  | clearRecentCouter (currentId : Uid)

namespace CounterOperation

def operation (room : String) : CounterOperation → Operation
  | updateRecents currentId date lastMessage => .updateRecents currentId date room lastMessage
  | clearRecentCouter currentId => .clearRecentCouter currentId room

def kind : CounterOperation → Kind (Option Uid)
  | updateRecents currentId _ _ => .bump (some currentId)
  | clearRecentCouter currentId => .reset (some currentId)

def isUpdate : CounterOperation → Bool
  | updateRecents .. => true
  | clearRecentCouter _ => false

def sentToOwner (owner : Option Uid) : CounterOperation → Bool
  | updateRecents currentId _ _ => some currentId ≠ owner
  | clearRecentCouter _ => false

end CounterOperation

section
variable {ι : Type*} {op : ι → CounterOperation}

theorem bumps_eq (u : Option Uid) :
    bumps (fun i => (op i).kind) u = fun i => (op i).sentToOwner u := by
  funext i
  cases hop : op i with
  | updateRecents currentId date lastMessage =>
    exact bumps_of_bump (congrArg CounterOperation.kind hop)
  | clearRecentCouter currentId => exact bumps_of_reset (congrArg CounterOperation.kind hop)

theorem resets_iff {u : Option Uid} {i : ι} : resets (fun i => (op i).kind) u i ↔
    ∃ v, op i = .clearRecentCouter v ∧ some v = u := by
  cases hop : op i with
  | updateRecents currentId date lastMessage =>
    have hfalse : resets (fun i => (op i).kind) u i = false :=
      resets_of_bump (congrArg CounterOperation.kind hop)
    simp [hfalse]
  | clearRecentCouter currentId =>
    have hdecide : resets (fun i => (op i).kind) u i = decide (some currentId = u) :=
      resets_of_reset (congrArg CounterOperation.kind hop)
    simp [hdecide]

end

def Write.target : Write → Option ℕ
  | .setData _ _ => none
  | .updateData recentId _ => some recentId
  | .delete recentId => some recentId

def Recent.key (r : Recent) : ℕ × Option Uid × String := (r.recentId, r.userId, r.chatRoomId)

/-- The same Recents, with possibly other messages, dates and counters. -/
def SameRecents (s s' : Recents) : Prop := s'.all.map Recent.key = s.all.map Recent.key

def counters (s : Recents) : List (ℕ × ℤ) := s.all.map fun r => (r.recentId, r.counter)

theorem SameRecents.trans {s s' s'' : Recents} (h : SameRecents s s') (h' : SameRecents s' s'') :
    SameRecents s s'' := Eq.trans h' h

theorem SameRecents.exists {s s' : Recents} (h : SameRecents s s') {r : Recent} (hr : r ∈ s'.all) :
    ∃ r₀ ∈ s.all, r₀.key = r.key := by
  have hmem := List.mem_map_of_mem (f := Recent.key) hr
  rw [h] at hmem
  exact List.mem_map.mp hmem

theorem SameRecents.symm {s s' : Recents} (h : SameRecents s s') : SameRecents s' s := Eq.symm h

theorem SameRecents.key_eq {s s' : Recents} (h : SameRecents s s') {r₀ r : Recent}
    (hr₀ : r₀ ∈ s.all) (hr : r ∈ s'.all) (hid : r.recentId = r₀.recentId) : r.key = r₀.key := by
  obtain ⟨r₁, hr₁, hkey⟩ := h.exists hr
  have hid₁ : r₁.recentId = r.recentId := congrArg Prod.fst hkey
  rw [← hkey, Recents.eq_of_recentId_eq hr₁ hr₀ (hid₁.trans hid)]

theorem sameRecents_updateData (s : Recents) (recentId : ℕ) (values : RecentValues) :
    SameRecents s (s.apply (.updateData recentId values)) := by
  unfold SameRecents
  rw [Recents.all_updateData, List.map_map]
  apply List.map_congr_left
  intro d _
  by_cases h : d.recentId = recentId <;> simp [h, Recent.key]

section Writes
variable (room : String) (op : CounterOperation) (s : Recents)

/-- The writes that the operation computes from a snapshot. -/
abbrev CounterOperation.writes : List Write :=
  (op.operation room).callback (s.inRoom room)

/-- Every write sets the counter of one Recent of the room to the effect of the
operation on the counter that the query returned. -/
theorem writes_spec {w : Write} (hw : w ∈ op.writes room s) :
    ∃ r ∈ s.all, ∃ values : RecentValues, r.chatRoomId = room ∧ w = .updateData r.recentId values ∧
      values.counter = some (effect r.userId op.kind r.counter) ∧
      (op.isUpdate = false → ∀ x, values.counter = some (effect r.userId op.kind x)) := by
  cases op with
  | updateRecents currentId date lastMessage =>
    obtain ⟨r, hr, rfl⟩ := List.mem_map.mp hw
    obtain ⟨hr, hroom⟩ := Recents.mem_inRoom.mp hr
    refine ⟨r, hr, _, hroom, rfl, ?_, nofun⟩
    simp only [updateRecentValues, CounterOperation.kind, effect]
    by_cases huser : r.userId = some currentId
    · rw [if_neg (not_not.mpr huser), if_pos huser.symm]
    · rw [if_pos huser, if_neg (Ne.symm huser)]
  | clearRecentCouter currentId =>
    obtain ⟨r, hr, rfl⟩ := List.mem_map.mp hw
    obtain ⟨hr, huser⟩ := List.mem_filter.mp hr
    obtain ⟨hr, hroom⟩ := Recents.mem_inRoom.mp hr
    have heffect : ∀ x, effect r.userId (CounterOperation.clearRecentCouter currentId).kind x = 0 :=
      fun x => if_pos (of_decide_eq_true huser).symm
    refine ⟨r, hr, _, hroom, rfl, ?_, fun _ x => ?_⟩
    · rw [heffect]
    · rw [heffect]

theorem effect_of_not_written {r : Recent} (hr : r ∈ s.all) (hroom : r.chatRoomId = room)
    (hnone : ∀ w ∈ op.writes room s, w.target ≠ some r.recentId) (x : ℤ) :
    effect r.userId op.kind x = x := by
  have hmem := Recents.mem_inRoom.mpr ⟨hr, hroom⟩
  cases op with
  | updateRecents currentId date lastMessage =>
    exact absurd rfl (hnone _ (List.mem_map_of_mem hmem))
  | clearRecentCouter currentId =>
    apply if_neg
    intro huser
    exact hnone _ (List.mem_map_of_mem
      (List.mem_filter.mpr ⟨hmem, decide_eq_true huser.symm⟩)) rfl

theorem nodup_targets : ((op.writes room s).map Write.target).Nodup := by
  have hids : ∀ l : List Recent, l.Sublist s.all → (l.map fun r => some r.recentId).Nodup := by
    intro l hl
    have hnodup := ((hl.map Recent.recentId).nodup s.nodup_recentId).map (Option.some_injective ℕ)
    rwa [List.map_map] at hnodup
  cases op with
  | updateRecents currentId date lastMessage =>
    show (List.map _ (List.map _ _)).Nodup
    rw [List.map_map]
    exact hids _ List.filter_sublist
  | clearRecentCouter currentId =>
    show (List.map _ (List.map _ _)).Nodup
    rw [List.map_map]
    exact hids _ (List.filter_sublist.trans List.filter_sublist)

end Writes

section Interleaved
variable {ι : Type*} [DecidableEq ι] (room : String) (op : ι → CounterOperation)

abbrev counterSystem : System ι Recents Write := recentSystem fun i => (op i).operation room

/-- When a write of `updateRecents` is made, the Recent that it names still has the
counter that the query of the operation returned. -/
def CounterUnchanged (c : Config ι Recents Write) : Action ι → Prop
  | .query _ => True
  | .write i => ∀ snapshot w todo, c.stage i = .writing snapshot (w :: todo) →
      (op i).isUpdate = true → ∀ r ∈ snapshot.all, ∀ d ∈ c.store.all,
        w.target = some r.recentId → d.recentId = r.recentId → d.counter = r.counter

/-- The operation has queried and has no write left for the Recent. -/
def Written (c : Config ι Recents Write) (recentId : ℕ) (i : ι) : Prop :=
  ∃ snapshot todo, c.stage i = .writing snapshot todo ∧
    ∀ w ∈ todo, w.target ≠ some recentId

/-- The counter of a Recent is explained by some order of the operations that are
through with it. -/
def Explained (c : Config ι Recents Write) (r₀ : Recent) : Prop :=
  ∃ order : List ι, order.Nodup ∧ (∀ i, i ∈ order ↔ Written c r₀.recentId i) ∧
    ∀ r ∈ c.store.all, r.recentId = r₀.recentId →
      r.counter = final (fun i => (op i).kind) r₀.userId r₀.counter order

/-- What an operation holds: a snapshot of the Recents and the last of its writes. -/
def Remaining (s : Recents) (i : ι) (snapshot : Recents) (todo : List Write) : Prop :=
  SameRecents s snapshot ∧ todo <:+ (op i).writes room snapshot

structure CounterInvariant (s : Recents) (c : Config ι Recents Write) : Prop where
  same : SameRecents s c.store
  holding : Holding (Remaining room op s) c
  frame : ∀ r ∈ c.store.all, r.chatRoomId ≠ room → r ∈ s.all
  explained : ∀ r₀ ∈ s.all, r₀.chatRoomId = room → Explained op c r₀

omit [DecidableEq ι] in
theorem counterInvariant_init (s : Recents) : CounterInvariant room op s (init s) where
  same := rfl
  holding := holding_init _ s
  frame := fun r hr _ => hr
  explained := by
    intro r₀ hr₀ _
    refine ⟨[], List.nodup_nil, fun i => ?_, fun r hr hid => ?_⟩
    · constructor
      · exact fun h => absurd h List.not_mem_nil
      · rintro ⟨snapshot, todo, h, -⟩
        exact absurd h nofun
    · rw [Recents.eq_of_recentId_eq hr hr₀ hid]
      rfl

variable {room op}

theorem written_update {c : Config ι Recents Write} {store : Recents} {i j : ι} {snapshot : Recents}
    {todo : List Write} {recentId : ℕ} :
    Written ⟨store, Function.update c.stage i (.writing snapshot todo)⟩ recentId j ↔
      if j = i then ∀ w ∈ todo, w.target ≠ some recentId else Written c recentId j := by
  unfold Written
  by_cases h : j = i
  · subst h
    rw [if_pos rfl]
    simp only [Function.update_self, Stage.writing.injEq]
    constructor
    · rintro ⟨_, _, ⟨rfl, rfl⟩, hnone⟩
      exact hnone
    · intro hnone
      exact ⟨snapshot, todo, ⟨rfl, rfl⟩, hnone⟩
  · rw [if_neg h]
    simp only [Function.update_of_ne h]

omit [DecidableEq ι] in
theorem written_iff {c : Config ι Recents Write} {i : ι} {snapshot : Recents} {todo : List Write}
    {recentId : ℕ} (hi : c.stage i = .writing snapshot todo) :
    Written c recentId i ↔ ∀ w ∈ todo, w.target ≠ some recentId := by
  constructor
  · rintro ⟨snapshot', todo', hi', hnone⟩
    rw [hi, Stage.writing.injEq] at hi'
    rw [hi'.2]
    exact hnone
  · intro hnone
    exact ⟨snapshot, todo, hi, hnone⟩

omit [DecidableEq ι] in
theorem not_written_of_waiting {c : Config ι Recents Write} {i : ι} (recentId : ℕ)
    (h : c.stage i = .waiting) : ¬ Written c recentId i := by
  rintro ⟨snapshot, todo, hi, -⟩
  rw [h] at hi
  exact absurd hi nofun

omit [DecidableEq ι] in
theorem explained_append {c c' : Config ι Recents Write} {r₀ : Recent} {i : ι}
    (h : Explained op c r₀) (hi : ¬ Written c r₀.recentId i)
    (hwritten : ∀ j, Written c' r₀.recentId j ↔ j = i ∨ Written c r₀.recentId j)
    (hstore : ∀ r ∈ c'.store.all, r.recentId = r₀.recentId →
      ∃ d ∈ c.store.all, d.recentId = r₀.recentId ∧
        r.counter = effect r₀.userId (op i).kind d.counter) : Explained op c' r₀ := by
  obtain ⟨order, hnodup, hmem, hcounter⟩ := h
  refine ⟨order ++ [i], ?_, fun j => ?_, fun r hr hid => ?_⟩
  · refine List.nodup_append.mpr ⟨hnodup, List.nodup_singleton i, ?_⟩
    intro j hj j' hj' heq
    obtain rfl := List.mem_singleton.mp hj'
    exact hi ((hmem j').mp (heq ▸ hj))
  · rw [List.mem_append, List.mem_singleton, hmem, hwritten]
    exact or_comm
  · obtain ⟨d, hd, hdid, hdr⟩ := hstore r hr hid
    rw [final_append, ← hcounter d hd hdid, hdr]
    rfl

omit [DecidableEq ι] in
theorem explained_of_same {c c' : Config ι Recents Write} {r₀ : Recent} (h : Explained op c r₀)
    (hwritten : ∀ j, Written c' r₀.recentId j ↔ Written c r₀.recentId j)
    (hstore : ∀ r ∈ c'.store.all, r.recentId = r₀.recentId →
      ∃ d ∈ c.store.all, d.recentId = r₀.recentId ∧ r.counter = d.counter) :
    Explained op c' r₀ := by
  obtain ⟨order, hnodup, hmem, hcounter⟩ := h
  refine ⟨order, hnodup, fun j => (hmem j).trans (hwritten j).symm, fun r hr hid => ?_⟩
  obtain ⟨d, hd, hdid, hdr⟩ := hstore r hr hid
  rw [hdr, hcounter d hd hdid]

theorem counterInvariant_query {s : Recents} {c : Config ι Recents Write} {i : ι}
    (hI : CounterInvariant room op s c) (hi : c.stage i = .waiting) :
    CounterInvariant room op s ⟨c.store, Function.update c.stage i
      (.writing c.store ((op i).writes room c.store))⟩ where
  same := hI.same
  holding := holding_update hI.holding ⟨hI.same, List.suffix_rfl⟩ fun _ _ _ _ h => h
  frame := hI.frame
  explained := by
    intro r₀ hr₀ hroom
    have hnot := not_written_of_waiting r₀.recentId hi
    by_cases hnone : ∀ w ∈ (op i).writes room c.store, w.target ≠ some r₀.recentId
    · -- the operation is through with the Recent at once
      apply explained_append (hI.explained r₀ hr₀ hroom) hnot
      · intro j
        rw [written_update]
        by_cases hj : j = i
        · rw [if_pos hj]
          exact iff_of_true hnone (Or.inl hj)
        · rw [if_neg hj]
          exact (or_iff_right hj).symm
      · intro r hr hid
        refine ⟨r, hr, hid, ?_⟩
        have hkey := hI.same.key_eq hr₀ hr hid
        have huser : r.userId = r₀.userId := congrArg (fun k => k.2.1) hkey
        have hrroom : r.chatRoomId = room := (congrArg (fun k => k.2.2) hkey).trans hroom
        rw [← huser]
        exact (effect_of_not_written room (op i) c.store hr hrroom (hid ▸ hnone) r.counter).symm
    · apply explained_of_same (hI.explained r₀ hr₀ hroom)
      · intro j
        rw [written_update]
        by_cases hj : j = i
        · subst hj
          rw [if_pos rfl]
          exact iff_of_false hnone hnot
        · rw [if_neg hj]
      · intro r hr hid
        exact ⟨r, hr, hid, rfl⟩

theorem explained_write_same {c : Config ι Recents Write} {i : ι} {snapshot : Recents}
    {recentId : ℕ} {values : RecentValues} {todo : List Write} {r₀ : Recent}
    (h : Explained op c r₀) (hi : c.stage i = .writing snapshot (.updateData recentId values :: todo))
    (hid : r₀.recentId = recentId) (htodo : ∀ w ∈ todo, w.target ≠ some recentId)
    (heffect : ∀ d ∈ c.store.all, d.recentId = recentId →
      (d.updateData values).counter = effect r₀.userId (op i).kind d.counter) :
    Explained op ⟨c.store.apply (.updateData recentId values),
      Function.update c.stage i (.writing snapshot todo)⟩ r₀ := by
  subst hid
  have hnot : ¬ Written c r₀.recentId i := by
    rw [written_iff hi]
    intro hnone
    exact hnone _ List.mem_cons_self rfl
  apply explained_append h hnot
  · intro j
    rw [written_update]
    by_cases hj : j = i
    · rw [if_pos hj]
      exact iff_of_true htodo (Or.inl hj)
    · rw [if_neg hj]
      exact (or_iff_right hj).symm
  · intro r hr hrid
    rw [Recents.all_updateData] at hr
    obtain ⟨d, hd, rfl⟩ := List.mem_map.mp hr
    have hdid : d.recentId = r₀.recentId := by
      split_ifs at hrid with h
      · exact h
      · exact hrid
    refine ⟨d, hd, hdid, ?_⟩
    rw [if_pos hdid]
    exact heffect d hd hdid

theorem explained_write_other {c : Config ι Recents Write} {i : ι} {snapshot : Recents}
    {recentId : ℕ} {values : RecentValues} {todo : List Write} {r₀ : Recent}
    (h : Explained op c r₀) (hi : c.stage i = .writing snapshot (.updateData recentId values :: todo))
    (hid : r₀.recentId ≠ recentId) :
    Explained op ⟨c.store.apply (.updateData recentId values),
      Function.update c.stage i (.writing snapshot todo)⟩ r₀ := by
  apply explained_of_same h
  · intro j
    rw [written_update]
    by_cases hj : j = i
    · subst hj
      rw [if_pos rfl, written_iff hi, List.forall_mem_cons]
      exact (and_iff_right fun htarget => hid (Option.some.inj htarget).symm).symm
    · rw [if_neg hj]
  · intro r hr hrid
    rw [Recents.all_updateData] at hr
    obtain ⟨d, hd, rfl⟩ := List.mem_map.mp hr
    have hne : d.recentId ≠ recentId := by
      intro hdid
      rw [if_pos hdid] at hrid
      exact hid (hrid.symm.trans hdid)
    rw [if_neg hne] at hrid ⊢
    exact ⟨d, hd, hrid, rfl⟩

theorem counterInvariant_write {s : Recents} {c : Config ι Recents Write} {i : ι}
    {snapshot : Recents} {w : Write} {todo : List Write} (hI : CounterInvariant room op s c)
    (hi : c.stage i = .writing snapshot (w :: todo)) (hC : CounterUnchanged op c (.write i)) :
    CounterInvariant room op s
      ⟨c.store.apply w, Function.update c.stage i (.writing snapshot todo)⟩ := by
  obtain ⟨hsame, hsuffix⟩ := hI.holding i snapshot (w :: todo) hi
  obtain ⟨r, hr, values, hroom, rfl, hcounter, hclear⟩ :=
    writes_spec room (op i) snapshot (hsuffix.subset List.mem_cons_self)
  have htodo : ∀ w ∈ todo, w.target ≠ some r.recentId := by
    have hnodup := (hsuffix.sublist.map Write.target).nodup (nodup_targets room (op i) snapshot)
    intro w hw heq
    have hmem := List.mem_map_of_mem (f := Write.target) hw
    rw [heq] at hmem
    exact (List.nodup_cons.mp hnodup).1 hmem
  refine ⟨hI.same.trans (sameRecents_updateData _ _ _), ?_, ?_, ?_⟩
  · exact holding_update hI.holding ⟨hsame, (List.suffix_cons _ _).trans hsuffix⟩
      fun _ _ _ _ h => h
  · intro r' hr' hother
    rw [Recents.all_updateData] at hr'
    obtain ⟨d, hd, rfl⟩ := List.mem_map.mp hr'
    have hne : d.recentId ≠ r.recentId := by
      intro hid
      have hkey := (hsame.symm.trans hI.same).key_eq hr hd hid
      rw [if_pos hid] at hother
      exact hother ((congrArg (fun k => k.2.2) hkey).trans hroom)
    rw [if_neg hne] at hother ⊢
    exact hI.frame d hd hother
  · intro r₀ hr₀ hr₀room
    have hexplained := hI.explained r₀ hr₀ hr₀room
    by_cases hid : r₀.recentId = r.recentId
    · apply explained_write_same hexplained hi hid htodo
      intro d hd hdid
      have huser : r.userId = r₀.userId :=
        congrArg (fun k => k.2.1) (hsame.key_eq hr₀ hr hid.symm)
      rw [Recent.updateData_counter, ← huser]
      -- a message writes what it read, so the counter must be the one it read; a clear
      -- writes zero whatever is stored
      cases hupdate : (op i).isUpdate with
      | true => rw [hC snapshot _ todo hi hupdate r hr d hd rfl hdid, hcounter, Option.getD_some]
      | false => rw [hclear hupdate d.counter, Option.getD_some]
    · exact explained_write_other hexplained hi hid

theorem counterInvariant_step {s : Recents} {c c' : Config ι Recents Write} {a : Action ι}
    (hI : CounterInvariant room op s c) (hC : CounterUnchanged op c a)
    (hs : (counterSystem room op).step c a = some c') : CounterInvariant room op s c' := by
  rcases System.step_cases hs with ⟨i, rfl, hi, rfl⟩ | ⟨i, snapshot, w, todo, rfl, hi, rfl⟩
  · have hroom : ((op i).operation room).chatRoomId = room := by
      cases op i <;> rfl
    have hquery := counterInvariant_query hI hi
    show CounterInvariant room op s ⟨c.store, Function.update c.stage i (.writing c.store
      (((op i).operation room).callback (c.store.inRoom ((op i).operation room).chatRoomId)))⟩
    rwa [hroom]
  · exact counterInvariant_write hI hi hC

def keyCounter (r : Recent) : (ℕ × Option Uid × String) × ℤ := (r.key, r.counter)

omit [DecidableEq ι] in
theorem atomic_counters (s : Recents) (i : ι) :
    ((counterSystem room op).atomic s i).all.map keyCounter = s.all.map fun d =>
      (d.key, if d.chatRoomId = room then effect d.userId (op i).kind d.counter else d.counter) := by
  rw [recentSystem_atomic]
  cases hop : op i with
  | updateRecents currentId date lastMessage =>
    simp only [CounterOperation.operation, Operation.all_run_updateRecents, List.map_map]
    apply List.map_congr_left
    intro d _
    by_cases hroom : d.chatRoomId = room
    · by_cases huser : d.userId = some currentId
      · simp [hroom, keyCounter, Recent.key, updateRecentValues, CounterOperation.kind, effect, huser]
      · have hne : ¬ some currentId = d.userId := fun h => huser h.symm
        simp [hroom, keyCounter, Recent.key, updateRecentValues, CounterOperation.kind, effect,
          huser, hne]
    · simp [hroom, keyCounter]
  | clearRecentCouter currentId =>
    simp only [CounterOperation.operation, Operation.all_run_clearRecentCouter, List.map_map]
    apply List.map_congr_left
    intro d _
    by_cases hroom : d.chatRoomId = room
    · by_cases huser : d.userId = some currentId
      · simp [hroom, keyCounter, Recent.key, CounterOperation.kind, effect, huser]
      · have hne : ¬ some currentId = d.userId := fun h => huser h.symm
        simp [hroom, keyCounter, CounterOperation.kind, effect, huser, hne]
    · simp [hroom, keyCounter]

omit [DecidableEq ι] in
theorem serial_counters (order : List ι) (s : Recents) :
    ((counterSystem room op).serial order s).all.map keyCounter = s.all.map fun d =>
      (d.key, if d.chatRoomId = room
        then final (fun i => (op i).kind) d.userId d.counter order else d.counter) := by
  induction order generalizing s with
  | nil =>
    apply List.map_congr_left
    intro d _
    simp [keyCounter]
  | cons i order ih =>
    show ((counterSystem room op).serial order ((counterSystem room op).atomic s i)).all.map _ = _
    rw [ih]
    have hmap : ∀ l : List Recent, (l.map fun d => (d.key, if d.chatRoomId = room
        then final (fun i => (op i).kind) d.userId d.counter order else d.counter)) =
        (l.map keyCounter).map fun k => (k.1, if k.1.2.2 = room
          then final (fun i => (op i).kind) k.1.2.1 k.2 order else k.2) := by
      intro l
      rw [List.map_map]
      rfl
    rw [hmap, atomic_counters, List.map_map]
    apply List.map_congr_left
    intro d _
    by_cases hroom : d.chatRoomId = room <;> simp [hroom, Recent.key, final_cons]

variable (room op) in
omit [DecidableEq ι] in
theorem serial_mem (order : List ι) {s : Recents} {r₀ : Recent} (hr₀ : r₀ ∈ s.all) :
    ∃ r ∈ ((counterSystem room op).serial order s).all, r.recentId = r₀.recentId ∧
      r.counter = if r₀.chatRoomId = room
        then final (fun i => (op i).kind) r₀.userId r₀.counter order else r₀.counter := by
  have hmem := List.mem_map_of_mem (f := fun d : Recent => (d.key, if d.chatRoomId = room
    then final (fun i => (op i).kind) d.userId d.counter order else d.counter)) hr₀
  rw [← serial_counters] at hmem
  obtain ⟨r, hr, heq⟩ := List.mem_map.mp hmem
  exact ⟨r, hr, congrArg (fun k => k.1.1) heq, congrArg Prod.snd heq⟩

theorem map_keyCounter {s s' : Recents} (h : SameRecents s s') (f : Recent → ℤ)
    (hf : ∀ r₀ ∈ s.all, ∀ r ∈ s'.all, r.recentId = r₀.recentId → r.counter = f r₀) :
    s'.all.map keyCounter = s.all.map fun d => (d.key, f d) := by
  have hlength : s'.all.length = s.all.length := by
    simpa only [List.length_map] using congrArg List.length h
  apply List.ext_getElem
  · rw [List.length_map, List.length_map, hlength]
  · intro n hn hn'
    rw [List.length_map] at hn hn'
    have hkey : (s'.all[n]).key = (s.all[n]).key := by
      have hget := congrArg (fun l => l[n]?) h
      simpa [hn, hn'] using hget
    rw [List.getElem_map, List.getElem_map, keyCounter, hkey,
      hf _ (List.getElem_mem hn') _ (List.getElem_mem hn) (congrArg Prod.fst hkey)]

omit [DecidableEq ι] in
/-- When all operations are through, every counter of the room is explained by an
order of all of them. -/
theorem explained_finished [Fintype ι] {s : Recents} {c : Config ι Recents Write}
    (hI : CounterInvariant room op s c) (hfinished : System.Finished c) {r₀ : Recent}
    (hr₀ : r₀ ∈ s.all) (hroom : r₀.chatRoomId = room) :
    ∃ order : List ι, order.Perm Finset.univ.toList ∧ ∀ r ∈ c.store.all,
      r.recentId = r₀.recentId →
        r.counter = final (fun i => (op i).kind) r₀.userId r₀.counter order := by
  obtain ⟨order, hnodup, hmem, hcounter⟩ := hI.explained r₀ hr₀ hroom
  refine ⟨order, ?_, hcounter⟩
  rw [List.perm_ext_iff_of_nodup hnodup (Finset.nodup_toList _)]
  intro i
  obtain ⟨snapshot, hi⟩ := hfinished i
  rw [hmem, Finset.mem_toList]
  exact iff_of_true ⟨snapshot, [], hi, fun w hw => absurd hw List.not_mem_nil⟩ (Finset.mem_univ i)

omit [DecidableEq ι] in
theorem counters_eq_serial [Fintype ι] {s : Recents} {c : Config ι Recents Write}
    (hI : CounterInvariant room op s c) (hfinished : System.Finished c) (hone : OneRecentEach s) :
    ∃ order : List ι, order.Perm Finset.univ.toList ∧
      counters c.store = counters ((counterSystem room op).serial order s) := by
  -- one order for each owner, by the one Recent that the owner has in the room
  have howner : ∀ u : Option Uid, ∃ order : List ι, order.Perm Finset.univ.toList ∧
      ∀ r₀ ∈ s.all, r₀.chatRoomId = room → r₀.userId = u → ∀ r ∈ c.store.all,
        r.recentId = r₀.recentId → r.counter = final (fun i => (op i).kind) u r₀.counter order := by
    intro u
    cases u with
    | none =>
      -- nobody resets a Recent without an owner, so every order explains it
      have hnone : ∀ i, ¬ resets (fun i => (op i).kind) none i := by
        intro i hreset
        obtain ⟨v, -, hv⟩ := resets_iff.mp hreset
        exact absurd hv nofun
      refine ⟨Finset.univ.toList, List.Perm.refl _, fun r₀ hr₀ hroom huser r hr hid => ?_⟩
      obtain ⟨order, hperm, hcounter⟩ := explained_finished hI hfinished hr₀ hroom
      rw [hcounter r hr hid, huser, final_of_no_reset (fun i _ => hnone i),
        final_of_no_reset (fun i _ => hnone i), hperm.countP_eq]
    | some v =>
      by_cases hex : ∃ r₁ ∈ s.all, r₁.chatRoomId = room ∧ r₁.userId = some v
      · obtain ⟨r₁, hr₁, hroom₁, huser₁⟩ := hex
        obtain ⟨order, hperm, hcounter⟩ := explained_finished hI hfinished hr₁ hroom₁
        refine ⟨order, hperm, fun r₀ hr₀ hroom huser r hr hid => ?_⟩
        obtain rfl := hone r₀ hr₀ r₁ hr₁ v huser huser₁ (hroom.trans hroom₁.symm)
        rw [← huser]
        exact hcounter r hr hid
      · refine ⟨Finset.univ.toList, List.Perm.refl _, fun r₀ hr₀ hroom huser => ?_⟩
        exact absurd ⟨r₀, hr₀, hroom, huser⟩ hex
  choose orderOf hperm hvalue using howner
  obtain ⟨order, horder, hfinal⟩ := exists_common_order (fun i => (op i).kind)
    Finset.univ.toList orderOf hperm
  refine ⟨order, horder, ?_⟩
  have hstore := map_keyCounter hI.same (fun d => if d.chatRoomId = room
    then final (fun i => (op i).kind) d.userId d.counter order else d.counter) (by
      intro r₀ hr₀ r hr hid
      by_cases hroom : r₀.chatRoomId = room
      · rw [if_pos hroom, hfinal]
        exact hvalue r₀.userId r₀ hr₀ hroom rfl r hr hid
      · have hrroom : r.chatRoomId ≠ room := by
          have hkey := hI.same.key_eq hr₀ hr hid
          exact fun h => hroom ((congrArg (fun k => k.2.2) hkey).symm.trans h)
        rw [if_neg hroom, Recents.eq_of_recentId_eq (hI.frame r hr hrroom) hr₀ hid])
  have hboth := hstore.trans (serial_counters order s).symm
  have hproject := congrArg (List.map fun k => (k.1.1, k.2)) hboth
  rw [List.map_map, List.map_map] at hproject
  exact hproject

/-- In a finished run whose writes of `updateRecents` all meet an unchanged counter:
every final counter is the result of the same operations in some order, run one
after the other; where every user has one Recent of the room, one order gives all
final counters; and a counter whose owner does not clear it has been raised by the
number of messages from the other members. -/
theorem counters_serializable [Fintype ι] (room : String) (op : ι → CounterOperation)
    (s : Recents) (actions : List (Action ι)) (c : Config ι Recents Write)
    (hrun : Runs.exec (counterSystem room op).step (init s) actions = some c)
    (hfinished : System.Finished c)
    (hguard : Runs.Guarded (counterSystem room op).step (CounterUnchanged op) (init s) actions) :
    (∀ r ∈ c.store.all, ∃ order : List ι, order.Perm Finset.univ.toList ∧
      ∃ r' ∈ ((counterSystem room op).serial order s).all,
        r'.recentId = r.recentId ∧ r'.counter = r.counter) ∧
    (OneRecentEach s → ∃ order : List ι, order.Perm Finset.univ.toList ∧
      counters c.store = counters ((counterSystem room op).serial order s)) ∧
    (∀ r₀ ∈ s.all, r₀.chatRoomId = room →
      (∀ i v, op i = .clearRecentCouter v → r₀.userId ≠ some v) →
      ∀ r ∈ c.store.all, r.recentId = r₀.recentId →
        r.counter = r₀.counter +
          (Finset.univ.filter fun i => (op i).sentToOwner r₀.userId).card) := by
  have hI : CounterInvariant room op s c :=
    (Runs.always_of_guarded (I := CounterInvariant room op s)
      (fun c a c' hI hC hstep => counterInvariant_step hI hC hstep)
      (counterInvariant_init room op s) hguard).last hrun
  refine ⟨?_, counters_eq_serial hI hfinished, ?_⟩
  · intro r hr
    obtain ⟨r₀, hr₀, hkey⟩ := hI.same.exists hr
    have hid : r.recentId = r₀.recentId := (congrArg Prod.fst hkey).symm
    by_cases hroom : r₀.chatRoomId = room
    · obtain ⟨order, hperm, hcounter⟩ := explained_finished hI hfinished hr₀ hroom
      obtain ⟨r', hr', hid', hcounter'⟩ := serial_mem room op order hr₀
      rw [if_pos hroom] at hcounter'
      exact ⟨order, hperm, r', hr', hid'.trans hid.symm,
        hcounter'.trans (hcounter r hr hid).symm⟩
    · have hrroom : r.chatRoomId ≠ room := by
        have hroomeq : r₀.chatRoomId = r.chatRoomId := congrArg (fun k => k.2.2) hkey
        exact fun h => hroom (hroomeq.trans h)
      have heq := Recents.eq_of_recentId_eq (hI.frame r hr hrroom) hr₀ hid
      obtain ⟨r', hr', hid', hcounter'⟩ := serial_mem room op Finset.univ.toList hr₀
      rw [if_neg hroom] at hcounter'
      exact ⟨_, List.Perm.refl _, r', hr', hid'.trans hid.symm, hcounter'.trans (by rw [heq])⟩
  · intro r₀ hr₀ hroom hclear r hr hid
    obtain ⟨order, hperm, hcounter⟩ := explained_finished hI hfinished hr₀ hroom
    have hnone : ∀ i ∈ order, ¬ resets (fun i => (op i).kind) r₀.userId i := by
      intro i _ hreset
      obtain ⟨v, hop, huser⟩ := resets_iff.mp hreset
      exact hclear i v hop huser.symm
    -- without a reset the order counts all bumps, which are the messages of the others
    rw [hcounter r hr hid, final_of_no_reset hnone, hperm.countP_eq, bumps_eq,
      List.countP_eq_length_filter, Finset.card_def, Finset.filter_val, ← Finset.coe_toList,
      Multiset.filter_coe, Multiset.coe_card]
    simp only [Bool.decide_eq_true]

end Interleaved

def newChat : Recents :=
  (Operation.createRecent "bea" "20190204120000" (startPrivateChat bea ann)).run Recents.empty

def beaSends : CounterOperation := .updateRecents "bea" "20190204120100" "hello"

theorem oneRecentEach_newChat : OneRecentEach newChat := by
  have hid : ∀ r ∈ newChat.all, ∀ r' ∈ newChat.all, r.userId = r'.userId → r = r' := by decide
  intro r hr r' hr' u hu hu' _
  exact hid r hr r' hr' (hu.trans hu'.symm)

/-- Ann sends a message (`true`) and Bea another one (`false`). -/
def bothSend : Bool → CounterOperation
  | true => .updateRecents "ann" "20190204120200" "hi"
  | false => beaSends

/-- Bea's query falls between the two writes of Ann's message, and Ann's second write
before the writes of Bea's. -/
def bothSendActions : List (Action Bool) :=
  [.query true, .write true, .query false, .write true, .write false, .write false]

theorem counterUnchanged_bothSendActions :
    Runs.Guarded (counterSystem "annbea" bothSend).step (CounterUnchanged bothSend)
      (init newChat) bothSendActions := by
  refine Runs.guarded_cons_of_step rfl trivial ?_
  refine Runs.guarded_cons_of_step rfl ?_ ?_
  · -- Ann's write for her own Recent
    intro snapshot w todo hstage _
    cases hstage
    decide
  refine Runs.guarded_cons_of_step rfl trivial ?_
  refine Runs.guarded_cons_of_step rfl ?_ ?_
  · -- Ann's write for the Recent of Bea, who has queried in between
    intro snapshot w todo hstage _
    cases hstage
    decide
  refine Runs.guarded_cons_of_step rfl ?_ ?_
  · intro snapshot w todo hstage _
    cases hstage
    decide
  refine Runs.guarded_cons_of_step rfl ?_ ?_
  · intro snapshot w todo hstage _
    cases hstage
    decide
  exact Runs.guarded_nil

theorem counters_serializable_both_send :
    ∃ c, Runs.exec (counterSystem "annbea" bothSend).step (init newChat) bothSendActions = some c ∧
      ∃ order : List Bool, order.Perm Finset.univ.toList ∧ counters c.store =
        counters ((counterSystem "annbea" bothSend).serial order newChat) := by
  exact ⟨_, rfl, (counters_serializable "annbea" bothSend newChat bothSendActions _ rfl
    (fun i => by cases i <;> exact ⟨_, rfl⟩) counterUnchanged_bothSendActions).2.1
    oneRecentEach_newChat⟩

/-- Two messages of Bea, both queried before either is written: Ann has one unread
message, and two in every order of the two operations. -/
theorem counters_fails_two_messages :
    ∃ c, Runs.exec (counterSystem "annbea" fun _ : Bool => beaSends).step (init newChat)
        [.query true, .query false, .write true, .write true, .write false, .write false] = some c ∧
      System.Finished c ∧ counters c.store = [(0, 0), (1, 1)] ∧
      ∀ order : List Bool, order.Perm Finset.univ.toList →
        counters ((counterSystem "annbea" fun _ : Bool => beaSends).serial order newChat) =
          [(0, 0), (1, 2)] := by
  refine ⟨_, rfl, ?_, rfl, ?_⟩
  · intro i
    cases i <;> exact ⟨_, rfl⟩
  · intro order hperm
    have hlength : order.length = 2 := by
      rw [hperm.length_eq, Finset.length_toList]
      rfl
    obtain ⟨i, j, rfl⟩ := List.length_eq_two.mp hlength
    rfl

end LiChat
