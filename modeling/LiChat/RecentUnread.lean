import LiChat.General.Counters
import LiChat.RecentOperations

/-!
# Unread messages over whole runs

Every operation runs without interruption here, by any member and on any room.  The
counter of a Recent is then a count over the history since the Recent was created.
-/

namespace LiChat
open Counters

inductive RecentAction where
  | createRecent (currentId : Uid) (date : String) (c : CreateRecent)
  | updateRecents (currentId : Uid) (date chatRoomId lastMessage : String)
  | clearRecentCouter (currentId : Uid) (chatRoomId : String)
  | deleteRecentChat (recentId : ℕ)

namespace RecentAction

/-- The owner of the Recents clears their counters in the room. -/
def clears (owner : Option Uid) (room : String) : RecentAction → Bool
  | clearRecentCouter currentId chatRoomId => some currentId = owner ∧ chatRoomId = room
  | _ => false

/-- Somebody else than the owner updates the Recents of the room. -/
def sentToOwner (owner : Option Uid) (room : String) : RecentAction → Bool
  | updateRecents currentId _ chatRoomId _ => some currentId ≠ owner ∧ chatRoomId = room
  | _ => false

/-- The operation is on the room; a deletion is on the room of the Recent that it
deletes. -/
def OnRoom (s : Recents) (room : String) : RecentAction → Prop
  | createRecent _ _ c => c.chatRoomId = room
  | updateRecents _ _ chatRoomId _ => chatRoomId = room
  | clearRecentCouter _ chatRoomId => chatRoomId = room
  | deleteRecentChat recentId => ∃ r ∈ s.all, r.recentId = recentId ∧ r.chatRoomId = room

end RecentAction

namespace Recents

def step (s : Recents) : RecentAction → Recents
  | .createRecent currentId date c => (Operation.createRecent currentId date c).run s
  | .updateRecents currentId date chatRoomId lastMessage =>
    (Operation.updateRecents currentId date chatRoomId lastMessage).run s
  | .clearRecentCouter currentId chatRoomId => (Operation.clearRecentCouter currentId chatRoomId).run s
  | .deleteRecentChat recentId => s.apply (.delete recentId)

def reached (actions : List RecentAction) : Recents := actions.foldl step empty

theorem reached_concat (actions : List RecentAction) (a : RecentAction) :
    reached (actions ++ [a]) = (reached actions).step a := by
  rw [reached, List.foldl_append]
  rfl

def Stores (s : Recents) (recentId : ℕ) (owner : Option Uid) (room : String) : Prop :=
  ∃ r ∈ s.all, r.recentId = recentId ∧ r.userId = owner ∧ r.chatRoomId = room

/-- The messages of others in the room since the owner's last clear. -/
def unread (owner : Option Uid) (room : String) (history : List RecentAction) : ℕ :=
  countSince (RecentAction.clears owner room) (RecentAction.sentToOwner owner room) history

/-- `creation` is the step of the run that created the Recent, and the counter is
what has come for its owner `after` that. -/
structure CreatedBy (r : Recent) (before : List RecentAction) (creation : RecentAction)
    (after : List RecentAction) : Prop where
  fresh : ∀ d ∈ (reached before).all, d.recentId ≠ r.recentId
  created : (reached (before ++ [creation])).Stores r.recentId r.userId r.chatRoomId
  counter : r.counter = unread r.userId r.chatRoomId after

/-- What an operation other than a deletion does to a Recent that is there. -/
def effectOn (a : RecentAction) (d : Recent) : Recent :=
  match a with
  | .updateRecents currentId date chatRoomId lastMessage =>
    if d.chatRoomId = chatRoomId then d.updateData (updateRecentValues currentId date lastMessage d)
    else d
  | .clearRecentCouter currentId chatRoomId =>
    if d.chatRoomId = chatRoomId ∧ d.userId = some currentId then d.updateData { counter := some 0 }
    else d
  | _ => d

/-- Every Recent after a step is an old one that the step has had its effect on, or
one that the step has created. -/
theorem step_cases {s : Recents} {a : RecentAction} {r : Recent} (hr : r ∈ (s.step a).all) :
    (∃ d ∈ s.all, r = effectOn a d) ∨
      (r.counter = 0 ∧ ∀ d ∈ s.all, d.recentId ≠ r.recentId) := by
  cases a with
  | createRecent currentId date c =>
    obtain ⟨users, created, -, -, hall, hcreated⟩ :=
      Operation.all_run_createRecent currentId date c s
    rcases List.mem_append.mp (hall ▸ hr) with hold | hnew
    · exact Or.inl ⟨r, hold, rfl⟩
    · obtain ⟨u, -, hu⟩ := Rows.exists_of_forall₂ hcreated hnew
      refine Or.inr ⟨hu.counter, fun d hd hid => ?_⟩
      -- a kRECENTID is handed out once
      have hnodup := nodup_recentId ((Operation.createRecent currentId date c).run s)
      rw [hall, List.map_append, List.nodup_append] at hnodup
      exact hnodup.2.2 _ (List.mem_map_of_mem hd) _ (List.mem_map_of_mem hnew) hid
  | updateRecents currentId date chatRoomId lastMessage =>
    rw [step, Operation.all_run_updateRecents] at hr
    obtain ⟨d, hd, rfl⟩ := List.mem_map.mp hr
    exact Or.inl ⟨d, hd, rfl⟩
  | clearRecentCouter currentId chatRoomId =>
    rw [step, Operation.all_run_clearRecentCouter] at hr
    obtain ⟨d, hd, rfl⟩ := List.mem_map.mp hr
    exact Or.inl ⟨d, hd, rfl⟩
  | deleteRecentChat recentId =>
    rw [step, all_delete] at hr
    exact Or.inl ⟨r, List.mem_of_mem_filter hr, rfl⟩

@[simp] theorem effectOn_recentId (a : RecentAction) (d : Recent) :
    (effectOn a d).recentId = d.recentId := by
  cases a <;> simp only [effectOn] <;> split_ifs <;> rfl

@[simp] theorem effectOn_userId (a : RecentAction) (d : Recent) :
    (effectOn a d).userId = d.userId := by
  cases a <;> simp only [effectOn] <;> split_ifs <;> rfl

@[simp] theorem effectOn_chatRoomId (a : RecentAction) (d : Recent) :
    (effectOn a d).chatRoomId = d.chatRoomId := by
  cases a <;> simp only [effectOn] <;> split_ifs <;> rfl

theorem effectOn_counter (a : RecentAction) {d : Recent} {history : List RecentAction}
    (h : d.counter = unread d.userId d.chatRoomId history) :
    (effectOn a d).counter = unread d.userId d.chatRoomId (history ++ [a]) := by
  cases a with
  | createRecent currentId date c =>
    rw [unread, countSince_concat rfl, ← unread]
    simpa [effectOn, RecentAction.sentToOwner] using h
  | deleteRecentChat recentId =>
    rw [unread, countSince_concat rfl, ← unread]
    simpa [effectOn, RecentAction.sentToOwner] using h
  | updateRecents currentId date chatRoomId lastMessage =>
    rw [unread, countSince_concat rfl, ← unread, effectOn]
    by_cases hroom : d.chatRoomId = chatRoomId
    · rw [if_pos hroom, Recent.updateData_counter]
      by_cases huser : d.userId = some currentId
      · simpa [updateRecentValues, RecentAction.sentToOwner, huser] using huser ▸ h
      · have hne : ¬ some currentId = d.userId := fun heq => huser heq.symm
        simp [updateRecentValues, RecentAction.sentToOwner, huser, hne, hroom.symm, h]
    · have hne : ¬ chatRoomId = d.chatRoomId := fun heq => hroom heq.symm
      simpa [hroom, RecentAction.sentToOwner, hne] using h
  | clearRecentCouter currentId chatRoomId =>
    rw [effectOn]
    split_ifs with hclear
    · have hreset : RecentAction.clears d.userId d.chatRoomId
          (.clearRecentCouter currentId chatRoomId) = true :=
        decide_eq_true ⟨hclear.2.symm, hclear.1.symm⟩
      rw [unread, countSince_concat_of_reset hreset, Recent.updateData_counter]
      rfl
    · have hkeep : RecentAction.clears d.userId d.chatRoomId
          (.clearRecentCouter currentId chatRoomId) = false :=
        decide_eq_false fun hboth => hclear ⟨hboth.2.symm, hboth.1.symm⟩
      rw [unread, countSince_concat hkeep, ← unread]
      simpa [RecentAction.sentToOwner] using h

/-- Every stored Recent has been created by a step of the run, and its counter is the
count since then. -/
theorem exists_createdBy (actions : List RecentAction) :
    ∀ r ∈ (reached actions).all, ∃ before creation after,
      actions = before ++ creation :: after ∧ CreatedBy r before creation after := by
  induction actions using List.reverseRecOn with
  | nil => exact fun r hr => absurd hr List.not_mem_nil
  | append_singleton actions a ih =>
    intro r hr
    rw [reached_concat] at hr
    rcases step_cases hr with ⟨d, hd, rfl⟩ | ⟨hcounter, hfresh⟩
    · obtain ⟨before, creation, after, hactions, h⟩ := ih d hd
      refine ⟨before, creation, after ++ [a], by rw [hactions]; simp, ?_⟩
      constructor
      · simpa using h.fresh
      · simpa using h.created
      · simpa using effectOn_counter a h.counter
    · refine ⟨actions, a, [], rfl, hfresh, ⟨r, ?_, rfl, rfl, rfl⟩, ?_⟩
      · rw [reached_concat]
        exact hr
      · rw [hcounter]
        rfl

theorem mem_step_of_not_onRoom {s : Recents} {a : RecentAction} {r : Recent} (hr : r ∈ s.all)
    (h : ¬ a.OnRoom s r.chatRoomId) : r ∈ (s.step a).all := by
  cases a with
  | createRecent currentId date c =>
    obtain ⟨users, created, -, -, hall, -⟩ := Operation.all_run_createRecent currentId date c s
    rw [step, hall]
    exact List.mem_append_left _ hr
  | updateRecents currentId date chatRoomId lastMessage =>
    rw [step, Operation.all_run_updateRecents]
    exact List.mem_map.mpr ⟨r, hr, if_neg (Ne.symm h)⟩
  | clearRecentCouter currentId chatRoomId =>
    rw [step, Operation.all_run_clearRecentCouter]
    exact List.mem_map.mpr ⟨r, hr, if_neg fun hboth => h hboth.1.symm⟩
  | deleteRecentChat recentId =>
    rw [step, all_delete, List.mem_filter]
    exact ⟨hr, decide_eq_true fun hid => h ⟨r, hr, hid, rfl⟩⟩

/-- After every run, the counter of a Recent is the number of messages that others have
sent to its room since its creation and its owner's last clear; and an operation on
another room changes neither the counter nor anything else of it. -/
theorem counter_eq_unread (actions : List RecentAction) :
    (∀ r ∈ (reached actions).all, ∃ before creation after,
      actions = before ++ creation :: after ∧ CreatedBy r before creation after) ∧
    (∀ a, ∀ r ∈ (reached actions).all, ¬ a.OnRoom (reached actions) r.chatRoomId →
      r ∈ (reached (actions ++ [a])).all ∧
        ∀ r' ∈ (reached (actions ++ [a])).all, r'.recentId = r.recentId → r' = r) := by
  refine ⟨exists_createdBy actions, fun a r hr h => ?_⟩
  have hmem : r ∈ (reached (actions ++ [a])).all := by
    rw [reached_concat]
    exact mem_step_of_not_onRoom hr h
  exact ⟨hmem, fun r' hr' hid => eq_of_recentId_eq hr' hmem hid⟩

end Recents

end LiChat
