import LiChat.RecentOperations

/-!
# Member lists of the Recents

kMEMBERS of a Recent tells a chat screen for whom a message is written.  The operations
are taken as a whole: private chats, groups, invitations, mutes, deletions and taps on the
rows of the chat list.
-/

namespace LiChat
open Documents

structure ChatStore where
  recents : Recents
  groups : String → Option Group

inductive ChatAction where
  | startPrivateChat (currentUser user : FUser) (date : String)
  | createGroup (groupId subject : String) (currentId : Uid) (memberIds : List Uid)
    (avatar date : String)
  | didSelectRow (currentUser : FUser) (date : String) (recentId : ℕ)
  | updatePushMembers (currentId : Uid) (recentId : ℕ)
  | deleteRecentChat (currentId : Uid) (recentId : ℕ)
  | updateGroup (currentId : Uid) (date : String) (group : Group) (newMemberIds : List Uid)
  | updateRecents (currentId : Uid) (date chatRoomId lastMessage : String)
  | clearRecentCouter (currentId : Uid) (chatRoomId : String)

namespace ChatStore

def empty : ChatStore := ⟨Recents.empty, fun _ => none⟩

/-- The row with the given kRECENTID among those that `loadRecentChats` shows. -/
def row (s : ChatStore) (currentId : Uid) (recentId : ℕ) : Option Recent :=
  s.recents.all.find? fun r =>
    r.recentId = recentId ∧ r.userId = some currentId ∧ r.lastMessage ≠ ""

def run (s : ChatStore) (op : Operation) : ChatStore := { s with recents := op.run s.recents }

/-- `Group.updateGroup` with new member lists, on a stored group. -/
def updateGroup (s : ChatStore) (stored : Group) (groupId : String)
    (members membersToPush : List Uid) : ChatStore :=
  { s with
    groups := Function.update s.groups groupId
      (some { stored with members := members, membersToPush := membersToPush }) }

def toggledMembersToPush (currentId : Uid) (recent : Recent) : List Uid :=
  if recent.membersToPush.contains currentId then recent.membersToPush.erase currentId
  else recent.membersToPush ++ [currentId]

/-- One operation, run to completion.  User ids have one length, and group ids are
fresh UUIDs. -/
def step (s : ChatStore) : ChatAction → Option ChatStore
  | .startPrivateChat currentUser user date =>
    if currentUser.objectId.length = user.objectId.length ∧
        s.groups (privateChatRoomId currentUser.objectId user.objectId) = none then
      some (s.run (.createRecent currentUser.objectId date (LiChat.startPrivateChat currentUser user)))
    else none
  | .createGroup groupId subject currentId memberIds avatar date =>
    if s.groups groupId = none ∧ s.recents.inRoom groupId = [] then
      let group := Group.make groupId subject currentId (memberIds ++ [currentId]) avatar
      let saved : ChatStore := { s with groups := Function.update s.groups groupId (some group) }
      some (saved.run (.createRecent currentId date (startGroupChat group)))
    else none
  | .didSelectRow currentUser date recentId => do
    let recent ← s.row currentUser.objectId recentId
    some (s.run (.createRecent currentUser.objectId date (restartRecentChat currentUser recent)))
  | .updatePushMembers currentId recentId => do
    let recent ← s.row currentId recentId
    some (s.run (.updateExistingRecentWithNewValues recent.chatRoomId
      { membersToPush := some (toggledMembersToPush currentId recent) }))
  | .deleteRecentChat currentId recentId => do
    let recent ← s.row currentId recentId
    some { s with recents := s.recents.apply (.delete recent.recentId) }
  | .updateGroup currentId date group newMemberIds => do
    let stored ← s.groups group.groupId
    let tempMembers := group.members ++ newMemberIds
    let tempMembersToPush := group.membersToPush ++ newMemberIds
    let updated := s.updateGroup stored group.groupId tempMembers tempMembersToPush
    some ((updated.run (.createRecent currentId date
        (createRecentForNewMembers group.groupId group.name tempMembersToPush group.avatar))).run
      (.updateExistingRecentWithNewValues group.groupId
        { members := some tempMembers, membersToPush := some tempMembersToPush }))
  | .updateRecents currentId date chatRoomId lastMessage =>
    some (s.run (.updateRecents currentId date chatRoomId lastMessage))
  | .clearRecentCouter currentId chatRoomId => some (s.run (.clearRecentCouter currentId chatRoomId))

/-- The users of a private room: the two halves of its id. -/
def privateUsers (chatRoomId : String) : List Uid :=
  let cs := chatRoomId.toList
  [String.ofList (cs.take (cs.length / 2)), String.ofList (cs.drop (cs.length / 2))]

def roomMembers (s : ChatStore) (r : Recent) : Option (List Uid) :=
  match r.type with
  | .kPRIVATE => some (privateUsers r.chatRoomId)
  | .kGROUP => (s.groups r.chatRoomId).map Group.members

def FullMembers (s : ChatStore) (r : Recent) : Prop :=
  ∃ full, s.roomMembers r = some full ∧ ∀ u, u ∈ r.members ↔ u ∈ full

def MembersComplete (s : ChatStore) : Prop := ∀ r ∈ s.recents.all, s.FullMembers r

/-- No private room is the room of a group. -/
def PrivateApart (s : ChatStore) : Prop :=
  ∀ r ∈ s.recents.all, r.type = .kPRIVATE → s.groups r.chatRoomId = none

/-- A tap on a row creates no Recent, or kMEMBERSTOPUSH of the row has the same
elements as its kMEMBERS. -/
def RestartKeepsMembers (s : ChatStore) : ChatAction → Prop
  | .didSelectRow currentUser _ recentId =>
    ∀ r, s.row currentUser.objectId recentId = some r →
      removeOwners r.membersToPush (s.recents.inRoom r.chatRoomId) = [] ∨
        ∀ u, u ∈ r.membersToPush ↔ u ∈ r.members
  | _ => True

theorem mem_privateUsers {a b u : Uid} (h : a.length = b.length) :
    u ∈ privateUsers (privateChatRoomId a b) ↔ u = a ∨ u = b := by
  have hhalves : ∀ c d : Uid, c.length = d.length → privateUsers (c ++ d) = [c, d] := by
    intro c d hcd
    have hlen : (c.toList ++ d.toList).length / 2 = c.toList.length := by
      rw [List.length_append]
      simp only [String.length_toList]
      omega
    simp only [privateUsers, String.toList_append, hlen, List.take_left, List.drop_left,
      String.ofList_toList]
  unfold privateChatRoomId
  split_ifs
  · rw [hhalves a b h]
    simp
  · rw [hhalves b a h.symm]
    simp [or_comm]

/-- Only the type, the room and the members of a Recent matter, and the group of
its room. -/
theorem fullMembers_congr {s s' : ChatStore} {r r' : Recent} (htype : r'.type = r.type)
    (hroom : r'.chatRoomId = r.chatRoomId) (hmembers : r'.members = r.members)
    (hgroup : s'.groups r.chatRoomId = s.groups r.chatRoomId) :
    s'.FullMembers r' ↔ s.FullMembers r := by
  unfold FullMembers roomMembers
  rw [htype, hroom, hmembers, hgroup]

theorem row_mem {s : ChatStore} {currentId : Uid} {recentId : ℕ} {r : Recent}
    (h : s.row currentId recentId = some r) : r ∈ s.recents.all :=
  List.mem_of_find?_eq_some h

theorem membersComplete_created {s s' : ChatStore} {created : List Recent}
    (hall : s'.recents.all = s.recents.all ++ created)
    (hgroups : ∀ r ∈ s.recents.all, s'.groups r.chatRoomId = s.groups r.chatRoomId)
    (h : s.MembersComplete) : s'.MembersComplete ↔ ∀ r ∈ created, s'.FullMembers r := by
  have hold : ∀ r ∈ s.recents.all, s'.FullMembers r := fun r hr =>
    (fullMembers_congr rfl rfl rfl (hgroups r hr)).mpr (h r hr)
  unfold MembersComplete
  rw [hall]
  constructor
  · intro hs r hr
    exact hs r (List.mem_append_right _ hr)
  · intro hnew r hr
    rcases List.mem_append.mp hr with hr | hr
    · exact hold r hr
    · exact hnew r hr

theorem privateApart_created {s s' : ChatStore} {created : List Recent}
    (hall : s'.recents.all = s.recents.all ++ created)
    (hgroups : ∀ r ∈ s.recents.all, s'.groups r.chatRoomId = s.groups r.chatRoomId)
    (hnew : ∀ r ∈ created, r.type = .kPRIVATE → s'.groups r.chatRoomId = none)
    (h : s.PrivateApart) : s'.PrivateApart := by
  intro r hr htype
  rw [hall] at hr
  rcases List.mem_append.mp hr with hr | hr
  · rw [hgroups r hr]
    exact h r hr htype
  · exact hnew r hr htype

theorem run_keeps {s : ChatStore} {op : Operation} (f : Recent → Recent)
    (hall : (op.run s.recents).all = s.recents.all.map f)
    (hf : ∀ r ∈ s.recents.all, (f r).type = r.type ∧ (f r).chatRoomId = r.chatRoomId ∧
      (f r).members = r.members)
    (hI : s.PrivateApart) (h : s.MembersComplete) :
    (s.run op).PrivateApart ∧ (s.run op).MembersComplete := by
  have hmem : ∀ r ∈ (s.run op).recents.all, ∃ d ∈ s.recents.all, f d = r := by
    intro r hr
    exact List.mem_map.mp (hall ▸ hr)
  constructor
  · intro r hr htype
    obtain ⟨d, hd, rfl⟩ := hmem r hr
    obtain ⟨hdtype, hroom, -⟩ := hf d hd
    rw [hroom]
    exact hI d hd (hdtype ▸ htype)
  · intro r hr
    obtain ⟨d, hd, rfl⟩ := hmem r hr
    obtain ⟨hdtype, hroom, hmembers⟩ := hf d hd
    exact (fullMembers_congr hdtype hroom hmembers rfl).mpr (h d hd)

/-- `createRecent` adds Recents of its own room, type and members; with users or an
avatar it adds none only if every member owns one. -/
theorem run_createRecent (s : ChatStore) (currentId : Uid) (date : String) (c : CreateRecent) :
    ∃ created, (s.run (.createRecent currentId date c)).recents.all = s.recents.all ++ created ∧
      (∀ r ∈ created, ∃ u, CreatedFor c u r) ∧
      (c.Complete → (created = [] ↔ removeOwners c.members (s.recents.inRoom c.chatRoomId) = [])) := by
  obtain ⟨users, created, -, hcomplete, hall, hcreated⟩ :=
    Operation.all_run_createRecent currentId date c s.recents
  refine ⟨created, hall, ?_, ?_⟩
  · intro r hr
    obtain ⟨u, -, hu⟩ := Rows.exists_of_forall₂ hcreated hr
    exact ⟨u, hu⟩
  · intro hc
    rw [← hcomplete hc, ← List.length_eq_zero_iff, ← hcreated.length_eq, List.length_eq_zero_iff]

theorem startPrivateChat_keeps {s s' : ChatStore} {currentUser user : FUser} {date : String}
    (hI : s.PrivateApart) (h : s.MembersComplete)
    (hs : s.step (.startPrivateChat currentUser user date) = some s') :
    s'.PrivateApart ∧ s'.MembersComplete := by
  simp only [step, Option.ite_none_right_eq_some, Option.some.injEq] at hs
  obtain ⟨⟨hlength, hnone⟩, hs⟩ := hs
  obtain ⟨created, hall, hcreated, -⟩ := s.run_createRecent currentUser.objectId date
    (LiChat.startPrivateChat currentUser user)
  rw [hs] at hall
  have hgroups : ∀ r ∈ s.recents.all, s'.groups r.chatRoomId = s.groups r.chatRoomId := by
    rw [← hs]
    exact fun _ _ => rfl
  constructor
  · apply privateApart_created hall hgroups _ hI
    intro r hr _
    obtain ⟨u, hr⟩ := hcreated r hr
    rw [hr.chatRoomId, ← hs]
    exact hnone
  · apply (membersComplete_created hall hgroups h).mpr
    intro r hr
    obtain ⟨u, hr⟩ := hcreated r hr
    have htype : r.type = .kPRIVATE := hr.type
    refine ⟨privateUsers r.chatRoomId, by rw [roomMembers, htype], fun v => ?_⟩
    rw [hr.chatRoomId, hr.members]
    show v ∈ [currentUser.objectId, user.objectId] ↔
      v ∈ privateUsers (privateChatRoomId currentUser.objectId user.objectId)
    rw [mem_privateUsers hlength]
    simp

theorem createGroup_keeps {s s' : ChatStore} {groupId subject : String} {currentId : Uid}
    {memberIds : List Uid} {avatar date : String} (hI : s.PrivateApart) (h : s.MembersComplete)
    (hs : s.step (.createGroup groupId subject currentId memberIds avatar date) = some s') :
    s'.PrivateApart ∧ s'.MembersComplete := by
  simp only [step, Option.ite_none_right_eq_some, Option.some.injEq] at hs
  obtain ⟨⟨-, hempty⟩, hs⟩ := hs
  set group := Group.make groupId subject currentId (memberIds ++ [currentId]) avatar
  obtain ⟨created, hall, hcreated, -⟩ := ChatStore.run_createRecent
    { s with groups := Function.update s.groups groupId (some group) } currentId date
    (startGroupChat group)
  rw [hs] at hall
  change s'.recents.all = s.recents.all ++ created at hall
  have hgroup : s'.groups groupId = some group := by
    rw [← hs]
    exact Function.update_self ..
  -- the id of the new group is not yet the room of a Recent
  have hgroups : ∀ r ∈ s.recents.all, s'.groups r.chatRoomId = s.groups r.chatRoomId := by
    intro r hr
    rw [← hs]
    apply Function.update_of_ne
    intro hroom
    have hmem := Recents.mem_inRoom.mpr ⟨hr, hroom⟩
    rw [hempty] at hmem
    simp at hmem
  constructor
  · apply privateApart_created hall hgroups _ hI
    intro r hr htype
    obtain ⟨u, hr⟩ := hcreated r hr
    rw [hr.type] at htype
    exact absurd htype nofun
  · apply (membersComplete_created hall hgroups h).mpr
    intro r hr
    obtain ⟨u, hr⟩ := hcreated r hr
    have htype : r.type = .kGROUP := hr.type
    have hroom : r.chatRoomId = groupId := hr.chatRoomId
    refine ⟨group.members, by rw [roomMembers, htype, hroom, hgroup]; rfl, fun v => ?_⟩
    rw [hr.members]
    rfl

theorem updateGroup_keeps {s s' : ChatStore} {currentId : Uid} {date : String} {group : Group}
    {newMemberIds : List Uid} (hI : s.PrivateApart) (h : s.MembersComplete)
    (hs : s.step (.updateGroup currentId date group newMemberIds) = some s') :
    s'.PrivateApart ∧ s'.MembersComplete := by
  obtain ⟨stored, hstored, hs⟩ := Option.bind_eq_some_iff.mp hs
  set tempMembers := group.members ++ newMemberIds
  set tempMembersToPush := group.membersToPush ++ newMemberIds
  set updated := s.updateGroup stored group.groupId tempMembers tempMembersToPush with hupdated
  obtain ⟨created, hall, hcreated, -⟩ := updated.run_createRecent currentId date
    (createRecentForNewMembers group.groupId group.name tempMembersToPush group.avatar)
  have hgroups : s'.groups = updated.groups := by
    rw [← Option.some.inj hs]
    rfl
  have hgroup : s'.groups group.groupId =
      some { stored with members := tempMembers, membersToPush := tempMembersToPush } := by
    rw [hgroups]
    exact Function.update_self ..
  have hother : ∀ room, room ≠ group.groupId → s'.groups room = s.groups room := by
    intro room hroom
    rw [hgroups]
    exact Function.update_of_ne hroom ..
  -- every Recent of the room gets the new lists, the created ones included
  have hmem : ∀ r ∈ s'.recents.all, ∃ d ∈ s.recents.all ++ created,
      r = if d.chatRoomId = group.groupId
        then d.updateData { members := some tempMembers, membersToPush := some tempMembersToPush }
        else d := by
    intro r hr
    rw [← Option.some.inj hs] at hr
    simp only [run, Operation.all_run_updateExistingRecentWithNewValues] at hr
    obtain ⟨d, hd, rfl⟩ := List.mem_map.mp hr
    exact ⟨d, hall ▸ hd, rfl⟩
  have hprivate : ∀ d ∈ s.recents.all ++ created, d.type = .kPRIVATE →
      d ∈ s.recents.all ∧ d.chatRoomId ≠ group.groupId := by
    intro d hd htype
    rcases List.mem_append.mp hd with hd | hd
    · refine ⟨hd, fun hroom => ?_⟩
      have hnone := hI d hd htype
      rw [hroom, hstored] at hnone
      exact absurd hnone nofun
    · obtain ⟨u, hd⟩ := hcreated d hd
      rw [hd.type] at htype
      exact absurd htype nofun
  constructor
  · intro r hr htype
    obtain ⟨d, hd, rfl⟩ := hmem r hr
    have hdtype : d.type = .kPRIVATE := by
      split_ifs at htype
      · exact htype
      · exact htype
    obtain ⟨hd, hroom⟩ := hprivate d hd hdtype
    rw [if_neg hroom, hother _ hroom]
    exact hI d hd hdtype
  · intro r hr
    obtain ⟨d, hd, rfl⟩ := hmem r hr
    by_cases hroom : d.chatRoomId = group.groupId
    · have htype : d.type = .kGROUP := by
        cases hdtype : d.type with
        | kPRIVATE => exact absurd hroom (hprivate d hd hdtype).2
        | kGROUP => rfl
      rw [if_pos hroom]
      refine ⟨tempMembers, ?_, fun v => Iff.rfl⟩
      rw [roomMembers, Recent.updateData_type, Recent.updateData_chatRoomId, htype, hroom, hgroup]
      rfl
    · rw [if_neg hroom]
      rcases List.mem_append.mp hd with hd | hd
      · exact (fullMembers_congr rfl rfl rfl (hother _ hroom)).mpr (h d hd)
      · obtain ⟨u, hd⟩ := hcreated d hd
        exact absurd hd.chatRoomId hroom

theorem didSelectRow_keeps {s s' : ChatStore} {currentUser : FUser} {date : String} {recentId : ℕ}
    (hI : s.PrivateApart) (h : s.MembersComplete)
    (hs : s.step (.didSelectRow currentUser date recentId) = some s') :
    s'.PrivateApart ∧
      (s'.MembersComplete ↔ s.RestartKeepsMembers (.didSelectRow currentUser date recentId)) := by
  obtain ⟨recent, hrow, hs⟩ := Option.bind_eq_some_iff.mp hs
  obtain ⟨full, hfull, hrecent⟩ := h recent (row_mem hrow)
  obtain ⟨created, hall, hcreated, hempty⟩ := s.run_createRecent currentUser.objectId date
    (restartRecentChat currentUser recent)
  -- there is no new Recent exactly if all of kMEMBERSTOPUSH own one
  have hnone := hempty (restartRecentChat_complete currentUser recent)
  rw [restartRecentChat_members, restartRecentChat_chatRoomId] at hnone
  rw [Option.some.inj hs] at hall
  have hgroups : ∀ r ∈ s.recents.all, s'.groups r.chatRoomId = s.groups r.chatRoomId := by
    rw [← Option.some.inj hs]
    exact fun _ _ => rfl
  have hsame : s'.groups recent.chatRoomId = s.groups recent.chatRoomId :=
    hgroups recent (row_mem hrow)
  constructor
  · apply privateApart_created hall hgroups _ hI
    intro r hr htype
    obtain ⟨u, hr⟩ := hcreated r hr
    rw [hr.type, restartRecentChat_type] at htype
    rw [hr.chatRoomId, restartRecentChat_chatRoomId, hsame]
    exact hI recent (row_mem hrow) htype
  · -- the new Recents belong to the room of the row and store its kMEMBERSTOPUSH
    have hnew : ∀ r ∈ created,
        (s'.FullMembers r ↔ ∀ u, u ∈ recent.membersToPush ↔ u ∈ recent.members) := by
      intro r hr
      obtain ⟨u, hr⟩ := hcreated r hr
      have hroom : s'.roomMembers r = some full := by
        rw [← hfull]
        unfold roomMembers
        rw [hr.type, restartRecentChat_type, hr.chatRoomId, restartRecentChat_chatRoomId, hsame]
      unfold FullMembers
      simp only [hroom, Option.some.injEq, exists_eq_left', hr.members, restartRecentChat_members,
        hrecent]
    rw [membersComplete_created hall hgroups h]
    constructor
    · intro hcomplete r hr
      obtain rfl : recent = r := Option.some.inj (hrow.symm.trans hr)
      cases hlist : created with
      | nil => exact Or.inl (hnone.mp hlist)
      | cons r l =>
        have hmem : r ∈ created := hlist ▸ List.mem_cons_self
        exact Or.inr ((hnew r hmem).mp (hcomplete r hmem))
    · intro hcond r hr
      rcases hcond recent hrow with hnil | hsets
      · rw [hnone.mpr hnil] at hr
        simp at hr
      · exact (hnew r hr).mpr hsets

/-- One operation: private rooms stay apart from groups, and the member lists stay
complete exactly when the operation meets the condition on taps. -/
theorem step_keeps {s s' : ChatStore} {a : ChatAction} (hI : s.PrivateApart)
    (h : s.MembersComplete) (hs : s.step a = some s') :
    s'.PrivateApart ∧ (s'.MembersComplete ↔ s.RestartKeepsMembers a) := by
  have hkept : s'.PrivateApart ∧ s'.MembersComplete →
      s'.PrivateApart ∧ (s'.MembersComplete ↔ True) := fun hk =>
    ⟨hk.1, iff_true_intro hk.2⟩
  cases a with
  | startPrivateChat currentUser user date => exact hkept (startPrivateChat_keeps hI h hs)
  | createGroup groupId subject currentId memberIds avatar date =>
    exact hkept (createGroup_keeps hI h hs)
  | didSelectRow currentUser date recentId => exact didSelectRow_keeps hI h hs
  | updateGroup currentId date group newMemberIds => exact hkept (updateGroup_keeps hI h hs)
  | updatePushMembers currentId recentId =>
    obtain ⟨recent, -, hs⟩ := Option.bind_eq_some_iff.mp hs
    obtain rfl := Option.some.inj hs
    apply hkept
    apply run_keeps _ (Operation.all_run_updateExistingRecentWithNewValues _ _ _) _ hI h
    intro r _
    split_ifs <;> exact ⟨rfl, rfl, rfl⟩
  | deleteRecentChat currentId recentId =>
    obtain ⟨recent, -, hs⟩ := Option.bind_eq_some_iff.mp hs
    obtain rfl := Option.some.inj hs
    have hmem : ∀ r ∈ (s.recents.apply (.delete recent.recentId)).all, r ∈ s.recents.all := by
      intro r hr
      rw [Recents.all_delete] at hr
      exact List.mem_of_mem_filter hr
    exact hkept ⟨fun r hr => hI r (hmem r hr), fun r hr => h r (hmem r hr)⟩
  | updateRecents currentId date chatRoomId lastMessage =>
    obtain rfl := Option.some.inj hs
    apply hkept
    apply run_keeps _ (Operation.all_run_updateRecents _ _ _ _ _) _ hI h
    intro r _
    split_ifs <;> exact ⟨rfl, rfl, rfl⟩
  | clearRecentCouter currentId chatRoomId =>
    obtain rfl := Option.some.inj hs
    apply hkept
    apply run_keeps _ (Operation.all_run_clearRecentCouter _ _ _) _ hI h
    intro r _
    split_ifs <;> exact ⟨rfl, rfl, rfl⟩

def alice : FUser := FUser.make "alice" none 0 0 "" "Alice" "" "" "" "" "" ""

def boris : FUser := FUser.make "boris" none 0 0 "" "Boris" "" "" "" "" "" ""

end ChatStore

end LiChat
