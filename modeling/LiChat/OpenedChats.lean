import LiChat.ChatSend
import LiChat.General.Runs
import LiChat.RecentMembers

/-!
# Member lists of the open chats

A chat screen copies the members of its room when it is opened, from a Recent, from a
new group or from the invitation that leads to it, and writes every message for that
copy.  The screens below it and those of other devices stay open with theirs.
-/

namespace LiChat

structure OpenedChat where
  currentId : Uid
  chatRoomId : String
  memberIds : List Uid
  isGroup : Bool

/-- A message that a screen has sent, and who was in the room at that time. -/
structure RoomMessage where
  chatRoomId : String
  messageId : String
  messageDictionary : MessageDictionary
  members : List Uid

/-- The Recents and Groups, the stored messages, the open chats of all clients, and the
messages sent so far. -/
structure OpenedChats where
  store : ChatStore
  messages : MessageStore
  chats : List OpenedChat
  sent : List RoomMessage

inductive OpenedChatsAction where
  | operation (a : ChatAction)
  | sendMessage (i : ℕ) (date uuid : String) (messageDictionary : MessageDictionary)
  | backAction (i : ℕ)

namespace ChatStore

def membersOf (s : ChatStore) (chat : OpenedChat) : Option (List Uid) :=
  if chat.isGroup then (s.groups chat.chatRoomId).map Group.members
  else some (privateUsers chat.chatRoomId)

def opens (s : ChatStore) : ChatAction → Option OpenedChat
  | .startPrivateChat currentUser user _ =>
    some ⟨currentUser.objectId, privateChatRoomId currentUser.objectId user.objectId,
      [currentUser.objectId, user.objectId], false⟩
  | .createGroup groupId _ currentId memberIds _ _ =>
    some ⟨currentId, groupId, memberIds ++ [currentId], true⟩
  | .didSelectRow currentUser _ recentId =>
    (s.row currentUser.objectId recentId).map fun recent =>
      ⟨currentUser.objectId, recent.chatRoomId, recent.members, recent.type = .kGROUP⟩
  | .updateGroup currentId _ group newMemberIds =>
    some ⟨currentId, group.groupId, group.members ++ newMemberIds, true⟩
  | _ => none

/-- The calls of `updateRecents` that a send makes. -/
def runUpdateRecents (s : ChatStore) (currentId : Uid) (date : String)
    (calls : List (String × String)) : ChatStore :=
  calls.foldl (fun s call => s.run (.updateRecents currentId date call.1 call.2)) s

def Covers (s : ChatStore) (chat : OpenedChat) : Prop :=
  ∃ full, s.membersOf chat = some full ∧ ∀ u ∈ full, u ∈ chat.memberIds

end ChatStore

namespace OpenedChats

def init (messages : MessageStore) : OpenedChats := ⟨ChatStore.empty, messages, [], []⟩

/-- One operation or one send, run to completion.  Message ids are fresh UUIDs. -/
def step (s : OpenedChats) : OpenedChatsAction → Option OpenedChats
  | .operation a => do
    let store ← s.store.step a
    some { s with store := store, chats := s.chats ++ (s.store.opens a).toList }
  | .sendMessage i date uuid messageDictionary => do
    let chat ← s.chats[i]?
    if uuid ∈ s.sent.map RoomMessage.messageId then none
    else
      let w ← OutgoingMessages.sendMessage uuid chat.chatRoomId messageDictionary chat.memberIds
        ⟨s.messages, [], [], [], 0, 0⟩
      some { s with
        store := s.store.runUpdateRecents chat.currentId date w.updateRecents
        messages := w.messages
        sent := s.sent ++ [⟨chat.chatRoomId, uuid,
          { messageDictionary with messageId := some uuid },
          (s.store.membersOf chat).getD []⟩] }
  | .backAction i => do
    let chat ← s.chats[i]?
    some { s with
      store := s.store.run (.clearRecentCouter chat.currentId chat.chatRoomId)
      chats := s.chats.eraseIdx i }

/-- The document is stored for everybody who was in the room. -/
def WrittenForAll (s : OpenedChats) (m : RoomMessage) : Prop :=
  ∀ u ∈ m.members, s.messages ⟨u, m.chatRoomId, m.messageId⟩ = some m.messageDictionary

/-- Recents and open chats have all members, and every message was written for them. -/
structure Complete (s : OpenedChats) : Prop where
  recents : s.store.MembersComplete
  chats : ∀ chat ∈ s.chats, s.store.Covers chat
  sent : ∀ m ∈ s.sent, s.WrittenForAll m

/-- The condition on taps; and when a group is updated, the chats of the group that are
open somewhere list all its members already. -/
def KeepsMembers (s : OpenedChats) : OpenedChatsAction → Prop
  | .operation (.updateGroup _ _ group newMemberIds) =>
    ∀ chat ∈ s.chats, chat.isGroup = true → chat.chatRoomId = group.groupId →
      ∀ u ∈ group.members ++ newMemberIds, u ∈ chat.memberIds
  | .operation a => s.store.RestartKeepsMembers a
  | _ => True

end OpenedChats

namespace ChatStore

theorem covers_congr {s s' : ChatStore} {chat : OpenedChat}
    (hgroup : s'.groups chat.chatRoomId = s.groups chat.chatRoomId) :
    s'.Covers chat ↔ s.Covers chat := by
  unfold Covers membersOf
  rw [hgroup]

theorem covers_of_fullMembers {s : ChatStore} {r : Recent} (h : s.FullMembers r)
    (currentId : Uid) :
    s.Covers ⟨currentId, r.chatRoomId, r.members, r.type = .kGROUP⟩ := by
  obtain ⟨full, hfull, hmembers⟩ := h
  refine ⟨full, ?_, fun u hu => (hmembers u).mpr hu⟩
  rw [← hfull, membersOf, roomMembers]
  cases r.type <;> simp

theorem groups_of_step {s s' : ChatStore} {a : ChatAction} (hs : s.step a = some s')
    (hcreate : ∀ groupId subject currentId memberIds avatar date,
      a ≠ .createGroup groupId subject currentId memberIds avatar date)
    (hupdate : ∀ currentId date group newMemberIds,
      a ≠ .updateGroup currentId date group newMemberIds) : s'.groups = s.groups := by
  cases a with
  | startPrivateChat currentUser user date =>
    simp only [step, Option.ite_none_right_eq_some, Option.some.injEq] at hs
    rw [← hs.2]
    rfl
  | createGroup groupId subject currentId memberIds avatar date =>
    exact (hcreate _ _ _ _ _ _ rfl).elim
  | didSelectRow currentUser date recentId =>
    obtain ⟨recent, -, hs⟩ := Option.bind_eq_some_iff.mp hs
    rw [← Option.some.inj hs]
    rfl
  | updatePushMembers currentId recentId =>
    obtain ⟨recent, -, hs⟩ := Option.bind_eq_some_iff.mp hs
    rw [← Option.some.inj hs]
    rfl
  | deleteRecentChat currentId recentId =>
    obtain ⟨recent, -, hs⟩ := Option.bind_eq_some_iff.mp hs
    rw [← Option.some.inj hs]
  | updateGroup currentId date group newMemberIds => exact (hupdate _ _ _ _ rfl).elim
  | updateRecents currentId date chatRoomId lastMessage =>
    rw [← Option.some.inj hs]
    rfl
  | clearRecentCouter currentId chatRoomId =>
    rw [← Option.some.inj hs]
    rfl

theorem createGroup_covers {s s' : ChatStore} {groupId subject : String} {currentId : Uid}
    {memberIds : List Uid} {avatar date : String}
    (hs : s.step (.createGroup groupId subject currentId memberIds avatar date) = some s') :
    (∀ chat, s.Covers chat → s'.Covers chat) ∧
      s'.Covers ⟨currentId, groupId, memberIds ++ [currentId], true⟩ := by
  simp only [step, Option.ite_none_right_eq_some, Option.some.injEq] at hs
  obtain ⟨⟨hnone, -⟩, hs⟩ := hs
  set group := Group.make groupId subject currentId (memberIds ++ [currentId]) avatar
  have hgroups : s'.groups = Function.update s.groups groupId (some group) := by
    rw [← hs]
    rfl
  constructor
  · rintro chat ⟨full, hfull, hsub⟩
    refine ⟨full, ?_, hsub⟩
    rw [membersOf] at hfull ⊢
    split_ifs at hfull ⊢ with hgroup
    · have hne : chat.chatRoomId ≠ groupId := by
        intro hroom
        rw [hroom, hnone] at hfull
        cases hfull
      rwa [hgroups, Function.update_of_ne hne]
    · exact hfull
  · refine ⟨memberIds ++ [currentId], ?_, fun u hu => hu⟩
    rw [membersOf, hgroups]
    simp [group, Group.make]

/-- After an invitation the screens of the group must list all its members; those of
other rooms see no change. -/
theorem updateGroup_covers {s s' : ChatStore} {currentId : Uid} {date : String} {group : Group}
    {newMemberIds : List Uid}
    (hs : s.step (.updateGroup currentId date group newMemberIds) = some s') :
    (∀ chat, s.Covers chat → (s'.Covers chat ↔ (chat.isGroup = true →
      chat.chatRoomId = group.groupId → ∀ u ∈ group.members ++ newMemberIds, u ∈ chat.memberIds))) ∧
      s'.Covers ⟨currentId, group.groupId, group.members ++ newMemberIds, true⟩ := by
  obtain ⟨stored, -, hs⟩ := Option.bind_eq_some_iff.mp hs
  have hgroups : s'.groups = Function.update s.groups group.groupId
      (some { stored with
        members := group.members ++ newMemberIds
        membersToPush := group.membersToPush ++ newMemberIds }) := by
    rw [← Option.some.inj hs]
    rfl
  have hself : (s'.groups group.groupId).map Group.members =
      some (group.members ++ newMemberIds) := by
    rw [hgroups, Function.update_self, Option.map_some]
  constructor
  · intro chat hchat
    by_cases hroom : chat.isGroup = true ∧ chat.chatRoomId = group.groupId
    · have hmembers : s'.membersOf chat = some (group.members ++ newMemberIds) := by
        rw [membersOf, if_pos hroom.1, hroom.2, hself]
      simp [Covers, hmembers, hroom]
    · refine iff_of_true ?_ fun hgroup hsame => absurd ⟨hgroup, hsame⟩ hroom
      obtain ⟨full, hfull, hsub⟩ := hchat
      refine ⟨full, ?_, hsub⟩
      rw [membersOf] at hfull ⊢
      split_ifs at hfull ⊢ with hgroup
      · have hne : chat.chatRoomId ≠ group.groupId := fun hsame => hroom ⟨hgroup, hsame⟩
        rwa [hgroups, Function.update_of_ne hne]
      · exact hfull
  · exact ⟨_, hself, fun u hu => hu⟩

theorem runUpdateRecents_keeps {s : ChatStore} (hI : s.PrivateApart) (h : s.MembersComplete)
    (currentId : Uid) (date : String) (calls : List (String × String)) :
    (s.runUpdateRecents currentId date calls).PrivateApart ∧
      (s.runUpdateRecents currentId date calls).MembersComplete ∧
      (s.runUpdateRecents currentId date calls).groups = s.groups := by
  induction calls generalizing s with
  | nil => exact ⟨hI, h, rfl⟩
  | cons call calls ih =>
    obtain ⟨hapart, hcomplete⟩ := step_keeps hI h
      (a := .updateRecents currentId date call.1 call.2) rfl
    exact ih hapart (hcomplete.mpr trivial)

end ChatStore

namespace OpenedChats

theorem operation_keeps {s s' : OpenedChats} {a : ChatAction} (hI : s.store.PrivateApart)
    (h : s.Complete) (hs : s.step (.operation a) = some s') :
    s'.store.PrivateApart ∧ (s'.Complete ↔ s.KeepsMembers (.operation a)) := by
  obtain ⟨store, hstore, hs⟩ := Option.bind_eq_some_iff.mp hs
  obtain rfl := Option.some.inj hs
  obtain ⟨hapart, hcomplete⟩ := ChatStore.step_keeps hI h.recents hstore
  refine ⟨hapart, ?_⟩
  have hsplit : OpenedChats.Complete
      { s with store := store, chats := s.chats ++ (s.store.opens a).toList } ↔
      s.store.RestartKeepsMembers a ∧ (∀ chat ∈ s.chats, store.Covers chat) ∧
        ∀ chat, s.store.opens a = some chat → store.Covers chat := by
    rw [← hcomplete]
    constructor
    · intro hc
      exact ⟨hc.recents, fun chat hchat => hc.chats chat (List.mem_append_left _ hchat),
        fun chat hchat => hc.chats chat (List.mem_append_right _ (by simp [hchat]))⟩
    · rintro ⟨hrecents, hold, hnew⟩
      refine ⟨hrecents, fun chat hchat => ?_, h.sent⟩
      rcases List.mem_append.mp hchat with hchat | hchat
      · exact hold chat hchat
      · exact hnew chat (by simpa using hchat)
  rw [hsplit]
  -- the groups change only where one is made or updated
  have hsame : store.groups = s.store.groups → ∀ chat, store.Covers chat ↔ s.store.Covers chat :=
    fun hgroups chat => ChatStore.covers_congr (congrFun hgroups _)
  have hopens : store.groups = s.store.groups →
      (∀ chat, s.store.opens a = some chat → s.store.Covers chat) →
      (s.store.RestartKeepsMembers a ∧ (∀ chat ∈ s.chats, store.Covers chat) ∧
        (∀ chat, s.store.opens a = some chat → store.Covers chat) ↔
          s.store.RestartKeepsMembers a) := by
    intro hgroups hnew
    refine and_iff_left ⟨fun chat hchat => (hsame hgroups chat).mpr (h.chats chat hchat),
      fun chat hchat => (hsame hgroups chat).mpr (hnew chat hchat)⟩
  cases a with
  | createGroup groupId subject currentId memberIds avatar date =>
    obtain ⟨hold, hnew⟩ := ChatStore.createGroup_covers hstore
    refine iff_of_true ⟨trivial, fun chat hchat => hold chat (h.chats chat hchat), ?_⟩ trivial
    intro chat hchat
    obtain rfl := Option.some.inj hchat
    exact hnew
  | updateGroup currentId date group newMemberIds =>
    obtain ⟨hold, hnew⟩ := ChatStore.updateGroup_covers hstore
    constructor
    · rintro ⟨-, hchats, -⟩ chat hchat
      exact (hold chat (h.chats chat hchat)).mp (hchats chat hchat)
    · intro hlists
      refine ⟨trivial, fun chat hchat => ?_, fun chat hchat => ?_⟩
      · exact (hold chat (h.chats chat hchat)).mpr (hlists chat hchat)
      · obtain rfl := Option.some.inj hchat
        exact hnew
  | startPrivateChat currentUser user date =>
    refine hopens (ChatStore.groups_of_step hstore (by simp) (by simp)) ?_
    intro chat hchat
    obtain rfl := Option.some.inj hchat
    simp only [ChatStore.step, Option.ite_none_right_eq_some] at hstore
    refine ⟨_, rfl, fun u hu => ?_⟩
    simpa using (ChatStore.mem_privateUsers hstore.1.1).mp hu
  | didSelectRow currentUser date recentId =>
    refine hopens (ChatStore.groups_of_step hstore (by simp) (by simp)) ?_
    intro chat hchat
    obtain ⟨recent, hrow, rfl⟩ := Option.map_eq_some_iff.mp hchat
    exact ChatStore.covers_of_fullMembers (h.recents recent (ChatStore.row_mem hrow)) _
  | updatePushMembers currentId recentId =>
    exact hopens (ChatStore.groups_of_step hstore (by simp) (by simp)) (by simp [ChatStore.opens])
  | deleteRecentChat currentId recentId =>
    exact hopens (ChatStore.groups_of_step hstore (by simp) (by simp)) (by simp [ChatStore.opens])
  | updateRecents currentId date chatRoomId lastMessage =>
    exact hopens (ChatStore.groups_of_step hstore (by simp) (by simp)) (by simp [ChatStore.opens])
  | clearRecentCouter currentId chatRoomId =>
    exact hopens (ChatStore.groups_of_step hstore (by simp) (by simp)) (by simp [ChatStore.opens])

theorem sendMessage_keeps {s s' : OpenedChats} {i : ℕ} {date uuid : String}
    {messageDictionary : MessageDictionary} (hI : s.store.PrivateApart) (h : s.Complete)
    (hs : s.step (.sendMessage i date uuid messageDictionary) = some s') :
    s'.store.PrivateApart ∧ s'.Complete := by
  obtain ⟨chat, hchat, hs⟩ := Option.bind_eq_some_iff.mp hs
  split_ifs at hs with hfresh
  obtain ⟨w, hw, hs⟩ := Option.bind_eq_some_iff.mp hs
  obtain ⟨lastMessage, -, hw⟩ := Option.bind_eq_some_iff.mp hw
  obtain rfl := Option.some.inj hw
  obtain rfl := Option.some.inj hs
  obtain ⟨hapart, hcomplete, hgroups⟩ := ChatStore.runUpdateRecents_keeps hI h.recents
    chat.currentId date [(chat.chatRoomId, lastMessage)]
  refine ⟨hapart, hcomplete, fun c hc => ?_, fun m hm u hu => ?_⟩
  · exact (ChatStore.covers_congr (congrFun hgroups _)).mpr (h.chats c hc)
  · refine (MessageStore.setDataFor_apply ..).trans ?_
    rcases List.mem_append.mp hm with hm | hm
    · have hne : m.messageId ≠ uuid := fun hid => hfresh (hid ▸ List.mem_map_of_mem hm)
      rw [if_neg fun hpath => hne hpath.2.2]
      exact h.sent m hm u hu
    · obtain rfl := List.mem_singleton.mp hm
      obtain ⟨full, hfull, hsub⟩ := h.chats chat (List.mem_of_getElem? hchat)
      rw [hfull, Option.getD_some] at hu
      rw [if_pos ⟨hsub u hu, rfl, rfl⟩]

theorem backAction_keeps {s s' : OpenedChats} {i : ℕ} (hI : s.store.PrivateApart)
    (h : s.Complete) (hs : s.step (.backAction i) = some s') :
    s'.store.PrivateApart ∧ s'.Complete := by
  obtain ⟨chat, -, hs⟩ := Option.bind_eq_some_iff.mp hs
  obtain rfl := Option.some.inj hs
  obtain ⟨hapart, hcomplete⟩ := ChatStore.step_keeps hI h.recents
    (a := .clearRecentCouter chat.currentId chat.chatRoomId) rfl
  refine ⟨hapart, hcomplete.mpr trivial, fun c hc => ?_, h.sent⟩
  exact h.chats c (List.mem_of_mem_eraseIdx hc)

theorem step_keeps {s s' : OpenedChats} {a : OpenedChatsAction} (hI : s.store.PrivateApart)
    (h : s.Complete) (hs : s.step a = some s') :
    s'.store.PrivateApart ∧ (s'.Complete ↔ s.KeepsMembers a) := by
  cases a with
  | operation a => exact operation_keeps hI h hs
  | sendMessage i date uuid messageDictionary =>
    obtain ⟨hapart, hcomplete⟩ := sendMessage_keeps hI h hs
    exact ⟨hapart, iff_of_true hcomplete trivial⟩
  | backAction i =>
    obtain ⟨hapart, hcomplete⟩ := backAction_keeps hI h hs
    exact ⟨hapart, iff_of_true hcomplete trivial⟩

/-- Along every run of operations and sends on the screens that they open, all Recents
store the full member set of their room, all open chats list it and every message was
written for it, exactly when every tap on a row and every update of a group meets its
condition. -/
theorem openedChats_complete_iff (messages : MessageStore) (actions : List OpenedChatsAction) :
    Runs.Always step Complete (init messages) actions ↔
      Runs.Guarded step KeepsMembers (init messages) actions := by
  apply Runs.always_iff_guarded (I := fun s => s.store.PrivateApart)
  · intro s a s' hI h hs
    exact step_keeps hI h hs
  · intro r hr
    exact absurd hr List.not_mem_nil
  · refine ⟨fun r hr => absurd hr List.not_mem_nil, fun chat hchat => ?_, fun m hm => ?_⟩
    · exact absurd hchat List.not_mem_nil
    · exact absurd hm List.not_mem_nil

def textFrom (user : FUser) (message : String) : MessageDictionary :=
  OutgoingMessages.text (dateFormatter 0) message user.objectId user.fullname 63684316800 kDELIVERED
    kTEXT

/-- Alice starts a chat, writes, and mutes it; Boris deletes his row and Alice taps hers
and writes again; Boris taps his new row and answers. -/
def muteDeleteReopen : List OpenedChatsAction :=
  [.operation (.startPrivateChat ChatStore.alice ChatStore.boris "20190204120000"),
    .sendMessage 0 "20190204120000" "m0" (textFrom ChatStore.alice "hi"),
    .operation (.updatePushMembers "alice" 0),
    .operation (.deleteRecentChat "boris" 1),
    .operation (.didSelectRow ChatStore.alice "20190204120100" 0),
    .sendMessage 1 "20190204120100" "m1" (textFrom ChatStore.alice "are you there?"),
    .operation (.didSelectRow ChatStore.boris "20190204120200" 2),
    .sendMessage 2 "20190204120200" "m2" (textFrom ChatStore.boris "yes")]

/-- Boris has the chat of the group open when Alice invites Carol. -/
def writeAfterInvitation : List OpenedChatsAction :=
  [.operation (.createGroup "group" "Trip" "alice" ["boris"] "" "20190204120000"),
    .sendMessage 0 "20190204120000" "m0" (textFrom ChatStore.alice "hi"),
    .operation (.didSelectRow ChatStore.boris "20190204120100" 0),
    .operation (.updateGroup "alice" "20190204120200"
      (Group.make "group" "Trip" "alice" ["boris", "alice"] "") ["carol"]),
    .sendMessage 1 "20190204120300" "m1" (textFrom ChatStore.boris "hello Carol")]

def Unwritten (s : OpenedChats) : Prop :=
  ∃ m ∈ s.sent, ∃ u ∈ m.members, s.messages ⟨u, m.chatRoomId, m.messageId⟩ = none

instance (s : OpenedChats) : Decidable s.Unwritten :=
  inferInstanceAs (Decidable (∃ m ∈ s.sent, ∃ u ∈ m.members,
    s.messages ⟨u, m.chatRoomId, m.messageId⟩ = none))

theorem Unwritten.not_complete {s : OpenedChats} (h : s.Unwritten) : ¬ s.Complete := by
  obtain ⟨m, hm, u, hu, hnone⟩ := h
  intro hcomplete
  rw [hcomplete.sent m hm u hu] at hnone
  cases hnone

/-- Boris's new Recent has no Alice among its members, and his answer is not written for
her; what he writes to the group is not written for Carol. -/
theorem openedChats_fails_mute_delete_reopen :
    (∃ s, Runs.exec step (init fun _ => none) muteDeleteReopen = some s ∧
      (∃ r ∈ s.store.recents.all, r.userId = some "boris" ∧
        s.store.roomMembers r = some ["alice", "boris"] ∧ r.members = ["boris"]) ∧
      s.messages ⟨"alice", "aliceboris", "m2"⟩ = none) ∧
    (∃ s, Runs.exec step (init fun _ => none) writeAfterInvitation = some s ∧
      (s.store.groups "group").map Group.members = some ["boris", "alice", "carol"] ∧
      s.messages ⟨"carol", "group", "m1"⟩ = none) ∧
    ∀ run ∈ [muteDeleteReopen, writeAfterInvitation],
      ¬ Runs.Always step Complete (init fun _ => none) run := by
  refine ⟨Runs.exists_of_any (by decide +kernel), Runs.exists_of_any (by decide +kernel), ?_⟩
  intro run hrun h
  obtain ⟨s, hs, hunwritten⟩ : ∃ s, Runs.exec step (init fun _ => none) run = some s ∧
      s.Unwritten := by
    rcases List.mem_pair.mp hrun with rfl | rfl
    · exact Runs.exists_of_any (by decide +kernel)
    · exact Runs.exists_of_any (by decide +kernel)
  exact hunwritten.not_complete (h.last hs)

end OpenedChats

end LiChat
